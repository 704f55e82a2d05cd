import ReleaseFlow.Proofs.Session.Overlap

/-!
# The versions and refs of two merges tagged at once

* `Known.fresh`, `Known.after`: the version that each run knew;
* `tagRace`, `tagRace_overlap`: two runs of tagging, after any schedule;
* `tags_at_once`: **a run that reads the version after the other stored its own goes on from that
  one; otherwise both go on from the same version, and the kinds of their releases decide**;
* `tags_at_once_lose`: a version is lowered, and a ref made twice.
-/

namespace ReleaseFlow

namespace Session

open Workflow

section Consequences

variable {ctx : Bool → Context} {sha : Bool → String} {config : Config} {m₀ : Memory}
  {made stored : List (Bool × MergeData)} {φ : Bool → Stage} {asked : List (Bool × Forge.Call)}

theorem current_of_read (hconfig : ∀ i, (ctx i).config = config) {i : Bool} {m : Memory}
    {d : MergeData} (hd : d.Read (ctx i) (sha i) m) :
    ∃ text, m.values.lookup config.release.versionVariable = some text ∧
      Version.parse text = .ok d.current := by
  rw [← hconfig i]
  exact hd.current

namespace Known

variable {x y : Bool × MergeData} (h : Known ctx sha config m₀ made stored φ asked)
include h

theorem mem_made_of_stored (hx : x ∈ stored) : x ∈ made :=
  (h.madeBy.mem x.1 x.2).2 (Stage.made?_of_stored? ((h.storedBy.mem x.1 x.2).1 hx))

theorem made_distinct : made.Pairwise fun x y => x.1 ≠ y.1 :=
  List.pairwise_map.1 h.madeBy.nodup

theorem stored_distinct : stored.Pairwise fun x y => x.1 ≠ y.1 :=
  List.pairwise_map.1 h.storedBy.nodup

/-- A run that has not read after the other stored its version knows the first memory. -/
theorem fresh (hx : x ∈ made) (hread : ¬ ReadsAfter asked x.1) :
    x.2.Read (ctx x.1) (sha x.1) m₀ := by
  obtain ⟨base, ⟨-, rfl⟩ | ⟨hafter, -⟩, hlearned⟩ := h.learned x.1
  · exact hlearned.made ((h.madeBy.mem x.1 x.2).1 hx)
  · exact absurd hafter hread

variable (hconfig : ∀ i, (ctx i).config = config)
include hconfig

/-- A run that has read after the other stored its version goes on from that version, which was
made from the first memory. -/
theorem after (hx : x ∈ made) (hread : ReadsAfter asked x.1) :
    ∃ d, (!x.1, d) ∈ stored ∧ d.Read (ctx !x.1) (sha !x.1) m₀ ∧
      x.2.Read (ctx x.1) (sha x.1)
        (m₀.setVariable config.release.versionVariable d.next.text) ∧ d.next < x.2.next := by
  obtain ⟨base, ⟨hbefore, -⟩ | ⟨-, d, hd, hfirst, rfl⟩, hlearned⟩ := h.learned x.1
  · exact absurd hread hbefore
  have hmade := hlearned.made ((h.madeBy.mem x.1 x.2).1 hx)
  obtain ⟨text, htext, hparse⟩ := current_of_read hconfig hmade
  obtain rfl : d.next.text = text := Option.some.inj (List.lookup_cons_self.symm.trans htext)
  rw [Version.parse_text] at hparse
  refine ⟨d, (h.storedBy.mem _ d).2 hd, hfirst, hmade, ?_⟩
  rw [Except.ok.inj hparse]
  exact Version.lt_of_bump hmade.next

theorem above (hx : x ∈ stored) :
    ∃ text v, m₀.values.lookup config.release.versionVariable = some text ∧
      Version.parse text = .ok v ∧ v < x.2.next := by
  have hmade := h.mem_made_of_stored hx
  by_cases hread : ReadsAfter asked x.1
  · obtain ⟨d, -, hfirst, -, hlt⟩ := h.after hconfig hmade hread
    obtain ⟨text, htext, hparse⟩ := current_of_read hconfig hfirst
    exact ⟨text, _, htext, hparse, Version.lt_trans (Version.lt_of_bump hfirst.next) hlt⟩
  · have hfirst := h.fresh hmade hread
    obtain ⟨text, htext, hparse⟩ := current_of_read hconfig hfirst
    exact ⟨text, _, htext, hparse, Version.lt_of_bump hfirst.next⟩

theorem lt_of_after (hx : x ∈ made) (hy : y ∈ made) (hne : x.1 ≠ y.1)
    (hread : ReadsAfter asked y.1) : x.2.next < y.2.next := by
  obtain ⟨d, hd, -, -, hlt⟩ := h.after hconfig hy hread
  rw [← Bool.eq_not.2 hne] at hd
  have hmade := (h.madeBy.mem x.1 x.2).1 hx
  rw [Stage.made?_of_stored? ((h.storedBy.mem x.1 d).1 hd)] at hmade
  exact Option.some.inj hmade ▸ hlt

/-- When one run has read after the other stored its version, versions rise. -/
theorem rising {i : Bool} (hread : ReadsAfter asked i) :
    stored.Pairwise fun x y => x.2.next < y.2.next := by
  refine (h.stored_distinct.and h.order).imp_of_mem fun {x y} hx hy hxy => ?_
  obtain ⟨hne, hbefore⟩ := hxy
  have hi : i ≠ x.1 := fun heq => hbefore (heq ▸ hread)
  obtain rfl : i = y.1 := (Bool.eq_not.2 hi).trans (Bool.eq_not.2 hne.symm).symm
  exact h.lt_of_after hconfig (h.mem_made_of_stored hx) (h.mem_made_of_stored hy) hne hread

theorem next_ne {i : Bool} (hread : ReadsAfter asked i) (hx : x ∈ made) (hy : y ∈ made)
    (hne : x.1 ≠ y.1) : x.2.next ≠ y.2.next := by
  by_cases hi : i = y.1
  · exact Version.ne_of_lt (h.lt_of_after hconfig hx hy hne (hi ▸ hread))
  · have hix : i = x.1 := (Bool.eq_not.2 hi).trans (Bool.eq_not.2 hne).symm
    exact (Version.ne_of_lt (h.lt_of_after hconfig hy hx hne.symm (hix ▸ hread))).symm

variable (hread : ∀ i, ¬ ReadsAfter asked i)
include hread

theorem bump_current (hx : x ∈ made) (hy : y ∈ made) :
    x.2.current.bump x.2.bump = .ok x.2.next ∧ x.2.current.bump y.2.bump = .ok y.2.next := by
  have hfirst := h.fresh hx (hread _)
  have hsecond := h.fresh hy (hread _)
  obtain ⟨text, htext, hparse⟩ := current_of_read hconfig hfirst
  obtain ⟨text', htext', hparse'⟩ := current_of_read hconfig hsecond
  obtain rfl : text = text' := Option.some.inj (htext.symm.trans htext')
  have hcurrent : x.2.current = y.2.current := Except.ok.inj (hparse.symm.trans hparse')
  exact ⟨hfirst.next, hcurrent ▸ hsecond.next⟩

theorem next_lt_iff (hx : x ∈ made) (hy : y ∈ made) :
    x.2.next < y.2.next ↔ x.2.bump.rank < y.2.bump.rank :=
  Version.bump_lt_iff (h.bump_current hconfig hread hx hy).1 (h.bump_current hconfig hread hx hy).2

theorem next_eq_iff (hx : x ∈ made) (hy : y ∈ made) :
    x.2.next = y.2.next ↔ x.2.bump = y.2.bump :=
  Version.bump_eq_iff (h.bump_current hconfig hread hx hy).1 (h.bump_current hconfig hread hx hy).2

end Known

theorem tagRef_format_eq_iff {p : TagPattern} {v w : Version} :
    tagRef (p.format v) = tagRef (p.format w) ↔ v = w :=
  (String.append_right_inj "refs/tags/").trans p.format_injective.eq_iff

end Consequences

/-! ## Runs -/

/-- Two runs of tagging, each in a world of its own. -/
def tagRace (ctx : Bool → Context) (sha : Bool → String) (world : Bool → World) (m : Memory) :
    Race Bool Forge.service Memory TagResult where
  flow i := createTag (ctx i) (sha i)
  world
  service := m

theorem tagRace_overlap {ctx : Bool → Context} {config : Config} {p : TagPattern} {m : Memory}
    (hconfig : ∀ i, (ctx i).config = config) (hdry : ∀ i, (ctx i).dryRun = false)
    (hfailing : m.failing = []) (hp : TagPattern.ofText config.release.tagPattern = .ok p)
    (sha : Bool → String) (world : Bool → World) (schedule : List Bool) :
    let r := (tagRace ctx sha world m).run Memory.host schedule
    ∃ φ, Overlap ctx sha config p m φ r.service r.asked := by
  intro r
  have hstart : (tagRace ctx sha world m).Agrees (fun i => Moves (ctx i) p (sha i))
      (Overlap ctx sha config p m) :=
    ⟨fun _ => .start, fun i => createTag_follows (hdry i) (by rw [Context.tagPattern, hconfig, hp]),
      [], [], .start hfailing, .start⟩
  have hend : r.Agrees (fun i => Moves (ctx i) p (sha i)) (Overlap ctx sha config p m) :=
    Race.run_keeps (fun h hanswer hmoves => h.move hfailing hconfig hanswer hmoves) hstart schedule
  obtain ⟨φ, -, h⟩ := hend
  exact ⟨φ, h⟩

theorem tagRace_still {ctx : Bool → Context} {config : Config} {e : Failure}
    (hconfig : ∀ i, (ctx i).config = config) (hdry : ∀ i, (ctx i).dryRun = false)
    (hp : TagPattern.ofText config.release.tagPattern = .error e) (sha : Bool → String)
    (world : Bool → World) (m : Memory) (schedule : List Bool) :
    (tagRace ctx sha world m).run Memory.host schedule = tagRace ctx sha world m := by
  refine Race.run_of_failed (fun i => ⟨e, ?_⟩) schedule
  have hpattern : (ctx i).tagPattern = .error e := by rw [Context.tagPattern, hconfig, hp]
  change createTag (ctx i) (sha i) = _
  rw [createTag_eq (sha i) (hdry i), hpattern]
  rfl

/-- **Two merges tagged at once.** Whatever the schedule, every version that is stored is greater
than the first one. If one run reads the version after the other stored its own, it goes on from
that one: the versions rise and the refs differ. Otherwise both go on from the first version: the
one stored later is the lesser exactly when its release is of the lesser kind, and the refs are the
same exactly when the releases are of the same kind. -/
theorem tags_at_once (ctx : Bool → Context) (config : Config)
    (hconfig : ∀ i, (ctx i).config = config) (hdry : ∀ i, (ctx i).dryRun = false) (m : Memory)
    (hfailing : m.failing = []) (sha : Bool → String) (world : Bool → World)
    (schedule : List Bool) :
    let name := config.release.versionVariable
    let r := (tagRace ctx sha world m).run Memory.host schedule
    ∃ (p : TagPattern) (made stored : List (Bool × MergeData)),
      (made ≠ [] → TagPattern.ofText config.release.tagPattern = .ok p) ∧
      r.service.marks.filterMap Forge.Mark.ref? = m.marks.filterMap Forge.Mark.ref? ++
        made.map (fun x => tagRef (p.format x.2.next)) ∧
      r.service.marks.filterMap Forge.Mark.value? = m.marks.filterMap Forge.Mark.value? ++
        stored.map (fun x => (name, x.2.next.text)) ∧
      r.service.values.lookup name =
        (stored.getLast?.map fun x => x.2.next.text).or (m.values.lookup name) ∧
      (made.map Prod.fst).Nodup ∧ (stored.map Prod.fst).Nodup ∧ stored ⊆ made ∧
      (∀ x ∈ made, (¬ ReadsAfter r.asked x.1 → x.2.Read (ctx x.1) (sha x.1) m) ∧
        (ReadsAfter r.asked x.1 → ∃ d, (!x.1, d) ∈ stored ∧
          x.2.Read (ctx x.1) (sha x.1) (m.setVariable name d.next.text))) ∧
      (∀ x ∈ stored, ∃ text v, m.values.lookup name = some text ∧ Version.parse text = .ok v ∧
        v < x.2.next) ∧
      (∀ i, ReadsAfter r.asked i → stored.Pairwise (fun x y => x.2.next < y.2.next) ∧
        (made.map fun x => tagRef (p.format x.2.next)).Nodup) ∧
      ((∀ i, ¬ ReadsAfter r.asked i) →
        stored.Pairwise (fun x y => y.2.next < x.2.next ↔ y.2.bump.rank < x.2.bump.rank) ∧
        ((made.map fun x => tagRef (p.format x.2.next)).Nodup ↔
          (made.map fun x => x.2.bump).Nodup)) := by
  intro name r
  cases hp : TagPattern.ofText config.release.tagPattern with
  | error e =>
    have hr : r = tagRace ctx sha world m := tagRace_still hconfig hdry hp sha world m schedule
    refine ⟨⟨"\x7bversion\x7d", by decide⟩, [], [], fun h => absurd rfl h, ?_⟩
    rw [hr]
    simp [tagRace]
  | ok p =>
  obtain ⟨φ, made, stored, hw, hk⟩ :=
    tagRace_overlap hconfig hdry hfailing hp sha world schedule
  refine ⟨p, made, stored, fun _ => rfl, hw.refs, hw.values, hw.value, hk.madeBy.nodup,
    hk.storedBy.nodup, fun x hx => hk.mem_made_of_stored hx, fun x hx => ⟨hk.fresh hx, ?_⟩,
    fun x hx => hk.above hconfig hx, fun i hread => ⟨hk.rising hconfig hread, ?_⟩,
    fun hread => ⟨?_, ?_⟩⟩
  · intro hread
    obtain ⟨d, hd, -, hmade, -⟩ := hk.after hconfig hx hread
    exact ⟨d, hd, hmade⟩
  · refine List.pairwise_map.2 (hk.made_distinct.imp_of_mem fun hx hy hne => ?_)
    rw [Ne, tagRef_format_eq_iff]
    exact hk.next_ne hconfig hread hx hy hne
  · refine hk.stored_distinct.imp_of_mem fun hx hy _ => ?_
    exact hk.next_lt_iff hconfig hread (hk.mem_made_of_stored hy) (hk.mem_made_of_stored hx)
  · rw [List.Nodup, List.Nodup, List.pairwise_map, List.pairwise_map]
    refine List.Pairwise.iff_of_mem fun hx hy => not_congr ?_
    rw [tagRef_format_eq_iff]
    exact hk.next_eq_iff hconfig hread hx hy

/-- Two merges with these labels that wait for their tags. -/
def twoMerges (labels labels' : List String) : Memory where
  pulls := [("aaaa", [⟨41, "https://example.com/pull/41", labels⟩]),
    ("bbbb", [⟨42, "https://example.com/pull/42", labels'⟩])]
  values := [("RELEASE_VERSION", "1.2.3")]
  commits := [("heads/release", "f00d")]

def twoShas : Bool → String
  | false => "aaaa"
  | true => "bbbb"

/-- The runs that tag them. -/
def twoTags (w : World) (m : Memory) (schedule : List Bool) :
    Race Bool Forge.service Memory TagResult :=
  (tagRace (fun _ => ⟨⟨"acme", "notify-api"⟩, {}, {}, false, .plain, 0, false⟩) twoShas (fun _ => w)
    m).run Memory.host schedule

/-- One merge after the other. -/
theorem tags_at_once_in_turn :
    let r := twoTags {} (twoMerges ["breaking"] ["bug"])
      (List.replicate 20 true ++ List.replicate 20 false)
    let refs := r.service.marks.filterMap Forge.Mark.ref?
    ReadsAfter r.asked false ∧ refs = ["refs/tags/1.2.4", "refs/tags/2.0.0"] ∧ refs.Nodup := by
  intro r refs
  have hread : ReadsAfter r.asked false := by decide +kernel
  obtain ⟨p, made, stored, -, hrefs, -, -, -, -, -, -, -, hafter, -⟩ := tags_at_once
    (fun _ => ⟨⟨"acme", "notify-api"⟩, {}, {}, false, .plain, 0, false⟩) {} (fun _ => rfl)
    (fun _ => rfl) (twoMerges ["breaking"] ["bug"]) rfl twoShas (fun _ => {})
    (List.replicate 20 true ++ List.replicate 20 false)
  refine ⟨hread, by decide +kernel, ?_⟩
  have hmade : refs = _ := hrefs
  rw [hmade]
  exact (hafter false hread).2

/-- A version that was read before the other run stored its own lowers that one, and two releases of
the same kind make the same ref. -/
theorem tags_at_once_lose :
    -- one of the runs reads, the other one runs, and the first goes on
    let started := List.replicate 3 true ++ List.replicate 20 false
    let ended := started ++ List.replicate 20 true
    ((twoTags {} (twoMerges ["breaking"] ["bug"]) started).service.values.lookup "RELEASE_VERSION" =
        some "2.0.0" ∧
      (twoTags {} (twoMerges ["breaking"] ["bug"]) ended).service.values.lookup "RELEASE_VERSION" =
        some "1.2.4" ∧ (⟨1, 2, 4⟩ : Version) < ⟨2, 0, 0⟩) ∧
    (twoTags {} (twoMerges ["feature"] ["feature"]) ended).service.marks.filterMap Forge.Mark.ref? =
      ["refs/tags/1.3.0", "refs/tags/1.3.0"] := by
  refine ⟨⟨?_, ?_, ?_⟩, ?_⟩
  · decide +kernel
  · decide +kernel
  · exact Version.lt_iff.2 (Or.inl (by decide))
  · decide +kernel

end Session

end ReleaseFlow
