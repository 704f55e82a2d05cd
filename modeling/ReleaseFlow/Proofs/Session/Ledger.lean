import Mathlib.Data.List.Nodup
import ReleaseFlow.Proofs.Session.Steps
import ReleaseFlow.Proofs.TagPattern.Form
import ReleaseFlow.Proofs.Workflow.Questions
import ReleaseFlow.Proofs.Workflow.Tagging

/-!
# The versions of a session

Every version that a session stores is greater than the ones before, so that no tag is made twice.

* `Forge.Mark.value?`, `Forge.Mark.ref?`: the variables and refs that were written;
* `Session.Ledger`: what the marks and the release variable have to do with the versions stored so
  far, an invariant of the steps;
* `Ledger.keep`, `Ledger.push`: steps that store no version, and steps that store one;
* `versions_rise`: **a session stores ever greater versions and makes each ref once**.
-/

namespace ReleaseFlow

namespace Forge.Mark

def value? : Forge.Mark → Option (String × String)
  | updateVariable name value => some (name, value)
  | _ => none

def ref? : Forge.Mark → Option String
  | createRef ref _ => some ref
  | _ => none

end Forge.Mark

namespace Session

/-- The versions that were stored since `m₀`, the oldest first: each is greater than those before
and than the first one. The release variable holds the last one, and each had its ref. -/
structure Ledger (config : Config) (p : TagPattern) (m₀ m : Memory) (vs : List Version) : Prop where
  writable : Forge.Operation.updateVariable ∉ m.failing
  stored : m.values.lookup config.release.versionVariable =
    (vs.getLast?.map Version.text).or (m₀.values.lookup config.release.versionVariable)
  marks : ∃ xs, m.marks = m₀.marks ++ xs ∧
    xs.filterMap Forge.Mark.value? =
      vs.map (fun v => (config.release.versionVariable, v.text)) ∧
    xs.filterMap Forge.Mark.ref? = vs.map fun v => tagRef (p.format v)
  rising : vs.Pairwise (· < ·)
  above : ∀ v ∈ vs, ∃ text v₀, m₀.values.lookup config.release.versionVariable = some text ∧
    Version.parse text = .ok v₀ ∧ v₀ < v

namespace Ledger

variable {config : Config} {p : TagPattern} {m₀ m m' : Memory} {vs : List Version}

theorem start (h : Forge.Operation.updateVariable ∉ m.failing) : Ledger config p m m [] :=
  ⟨h, rfl, ⟨[], by simp⟩, .nil, by simp⟩

/-- A step that writes neither the release variable nor a ref stores no version. -/
theorem keep (h : Ledger config p m₀ m vs) (hw : Forge.Operation.updateVariable ∉ m'.failing)
    (hs : m'.values.lookup config.release.versionVariable =
      m.values.lookup config.release.versionVariable)
    (hm : ∃ ys, m'.marks = m.marks ++ ys ∧ ys.filterMap Forge.Mark.value? = [] ∧
      ys.filterMap Forge.Mark.ref? = []) : Ledger config p m₀ m' vs := by
  obtain ⟨xs, hxs, hv, hr⟩ := h.marks
  obtain ⟨ys, hys, hyv, hyr⟩ := hm
  refine ⟨hw, hs.trans h.stored, ⟨xs ++ ys, ?_, ?_, ?_⟩, h.rising, h.above⟩
  · rw [hys, hxs, List.append_assoc]
  · rw [List.filterMap_append, hv, hyv, List.append_nil]
  · rw [List.filterMap_append, hr, hyr, List.append_nil]

theorem stored_eq (h : Ledger config p m₀ m vs) {text : String} {v : Version}
    (ht : m.values.lookup config.release.versionVariable = some text)
    (hv : Version.parse text = .ok v) :
    (∀ u ∈ vs, u = v ∨ u < v) ∧ ∃ text₀ v₀,
      m₀.values.lookup config.release.versionVariable = some text₀ ∧
      Version.parse text₀ = .ok v₀ ∧ (v₀ = v ∨ v₀ < v) := by
  rw [h.stored] at ht
  rcases List.eq_nil_or_concat vs with rfl | ⟨us, u, rfl⟩
  · exact ⟨by simp, text, v, ht, hv, Or.inl rfl⟩
  · rw [List.concat_eq_append] at h ht ⊢
    have hu : u.text = text := by simpa using ht
    rw [← hu, Version.parse_text] at hv
    obtain rfl : u = v := Except.ok.inj hv
    have hrise := (List.pairwise_append.1 h.rising).2.2
    obtain ⟨text₀, v₀, h₀, hp, hlt⟩ := h.above u (by simp)
    refine ⟨fun x hx => ?_, text₀, v₀, h₀, hp, Or.inr hlt⟩
    rcases List.mem_append.1 hx with hx | hx
    · exact Or.inr (hrise x hx u (by simp))
    · exact Or.inl (by simpa using hx)

/-! ## Tagging -/

section Tagging

variable {ctx : Context} {sha : String} {d : MergeData}

theorem push (h : Ledger ctx.config p m₀ m vs) (hd : MergeData.Read ctx sha m d) :
    Ledger ctx.config p m₀ (Workflow.tagged ctx (p.format d.next) d m) (vs ++ [d.next]) := by
  obtain ⟨xs, hxs, hv, hr⟩ := h.marks
  obtain ⟨text, ht, hc⟩ := hd.current
  have hlt := Version.lt_of_bump hd.next
  obtain ⟨hle, text₀, v₀, h₀, hp₀, hle₀⟩ := h.stored_eq ht hc
  have hrise : ∀ u ∈ vs, u < d.next := by
    intro u hu
    rcases hle u hu with rfl | hu
    · exact hlt
    · exact Version.lt_trans hu hlt
  refine ⟨h.writable, ?_, ⟨xs ++ Workflow.tagMarks ctx (p.format d.next) d, ?_, ?_, ?_⟩, ?_, ?_⟩
  · rw [Workflow.lookup_tagged, List.getLast?_concat]
    rfl
  · rw [← List.append_assoc, ← hxs]
    rfl
  · rw [List.filterMap_append, hv, List.map_append]
    rfl
  · rw [List.filterMap_append, hr, List.map_append]
    rfl
  · refine List.pairwise_append.2 ⟨h.rising, List.pairwise_singleton _ _, fun u hu v hv => ?_⟩
    obtain rfl := List.mem_singleton.1 hv
    exact hrise u hu
  · intro v hv
    rcases List.mem_append.1 hv with hv | hv
    · exact h.above v hv
    · obtain rfl := List.mem_singleton.1 hv
      refine ⟨text₀, v₀, h₀, hp₀, ?_⟩
      rcases hle₀ with rfl | hle₀
      · exact hlt
      · exact Version.lt_trans hle₀ hlt

/-- Where the variable can be written, tagging that fails has made no ref. -/
theorem accepted_of_ne {tag : String} (hw : Forge.Operation.updateVariable ∉ m.failing)
    (hne : m.accepted (Workflow.tagMarks ctx tag d) ≠ Workflow.tagMarks ctx tag d) :
    (m.accepted (Workflow.tagMarks ctx tag d)).filterMap Forge.Mark.value? = [] ∧
      (m.accepted (Workflow.tagMarks ctx tag d)).filterMap Forge.Mark.ref? = [] := by
  rw [Workflow.tagMarks] at hne ⊢
  by_cases h1 : Forge.Operation.createTagObject ∈ m.failing
  · rw [Memory.accepted_cons_of_failing h1]
    exact ⟨rfl, rfl⟩
  rw [Memory.accepted_cons h1] at hne ⊢
  by_cases h2 : Forge.Operation.createRef ∈ m.failing
  · rw [Memory.accepted_cons_of_failing h2]
    exact ⟨rfl, rfl⟩
  · rw [Memory.accepted_cons h2, Memory.accepted_cons hw] at hne
    exact absurd rfl hne

/-- Tagging that may change something stores one version or none. -/
theorem createTag (h : Ledger ctx.config p m₀ m vs) (hp : ctx.tagPattern = .ok p)
    (hdry : ctx.dryRun = false) (w : World) :
    ∃ vs', Ledger ctx.config p m₀ ((Workflow.createTag ctx sha).run Memory.host m w).2.1 vs' := by
  rcases Workflow.createTag_run ctx sha m w hdry with ⟨-, e, w', -, hr⟩ | ⟨p', d, hp', hd, hrun⟩
  · exact ⟨vs, by rw [hr]; exact h⟩
  obtain rfl : p' = p := Except.ok.inj (hp'.symm.trans hp)
  rw [hrun.memory]
  split
  · exact ⟨vs ++ [d.next], h.push hd⟩
  · next hacc =>
    exact ⟨vs, h.keep h.writable rfl ⟨_, rfl, accepted_of_ne h.writable hacc⟩⟩

end Tagging

/-! ## Other questions and steps -/

/-- A question that writes no variable and makes no ref stores no version. -/
theorem change (h : Ledger config p m₀ m vs) {op : Forge.Operation} {m' : Memory}
    (hm : Memory.Change op m m') (hu : op ≠ .updateVariable) (hr : op ≠ .createRef) :
    Ledger config p m₀ m' vs := by
  cases hm with
  | nothing => exact h
  | marked x hx =>
    have hnone : x.value? = none ∧ x.ref? = none := by
      cases x with
      | updateVariable name value => exact absurd hx.symm hu
      | createRef ref sha => exact absurd hx.symm hr
      | _ => exact ⟨rfl, rfl⟩
    exact h.keep h.writable rfl ⟨[x], rfl, by simp [hnone.1], by simp [hnone.2]⟩
  | written name value hop => exact absurd hop hu
  | listed | told => exact h.keep h.writable rfl ⟨[], by simp⟩

theorem flow (h : Ledger config p m₀ m vs) {α : Type} {f : Flow Forge.service α}
    {kinds : List Forge.Operation} (hf : f.Asks (Forge.Among kinds))
    (hk : Forge.Operation.updateVariable ∉ kinds ∧ Forge.Operation.createRef ∉ kinds) (w : World) :
    Ledger config p m₀ (f.run Memory.host m w).2.1 vs := by
  refine Flow.run_keeps (I := fun m' => Ledger config p m₀ m' vs) hf
    (fun c m' hc h' => h'.change (Memory.answer_change c m') ?_ ?_) h
  · exact fun hu => hk.1 (hu ▸ hc)
  · exact fun hr => hk.2 (hr ▸ hc)

theorem step (h : Ledger config p m₀ m vs)
    (hp : TagPattern.ofText config.release.tagPattern = .ok p) {s : Step}
    (hs : s.Respects config) : ∃ vs', Ledger config p m₀ (s.apply m) vs' := by
  cases s with
  | ask c => exact ⟨vs, h.change (Memory.answer_change c m) hs.1 hs.2⟩
  | setup s =>
    refine ⟨vs, ?_⟩
    cases s with
    | value name text =>
      refine h.keep h.writable ?_ ⟨[], by simp [Step.apply, Memory.Setup.apply, Memory.setVariable]⟩
      have hne : (config.release.versionVariable == name) = false := beq_eq_false_iff_ne.2 hs.symm
      change List.lookup _ ((name, text) :: m.values) = _
      rw [List.lookup_cons, hne]
    | failure operation =>
      refine h.keep ?_ rfl ⟨[], by simp [Step.apply, Memory.Setup.apply, Memory.failOn]⟩
      exact fun hmem => (List.mem_cons.1 hmem).elim hs.symm h.writable
    | _ => exact h.keep h.writable rfl ⟨[], (List.append_nil _).symm, rfl, rfl⟩
  | run ctx w task =>
    obtain rfl : ctx.config = config := hs
    cases task with
    | data sha => exact ⟨vs, h.flow (Workflow.mergeData_asks ctx sha) (by simp) w⟩
    | notes previous date =>
      exact ⟨vs, h.flow (Workflow.createNotes_asks ctx previous date) (by split <;> simp) w⟩
    | regression environment =>
      exact ⟨vs, h.flow (Workflow.regression_asks ctx environment) (by split <;> simp) w⟩
    | tag sha =>
      cases hdry : ctx.dryRun with
      | true => exact ⟨vs, h.flow (Workflow.createTag_asks sha hdry) (by simp) w⟩
      | false => exact h.createTag hp hdry w

theorem run (h : Ledger config p m₀ m vs) (hp : TagPattern.ofText config.release.tagPattern = .ok p)
    {steps : List Step} (hs : ∀ s ∈ steps, s.Respects config) :
    ∃ vs', Ledger config p m₀ (Session.run m steps) vs' := by
  induction steps generalizing m vs with
  | nil => exact ⟨vs, h⟩
  | cons s steps ih =>
    obtain ⟨vs', h'⟩ := h.step hp (hs s (by simp))
    rw [run_cons]
    exact ih h' fun s' hs' => hs s' (List.mem_cons_of_mem s hs')

end Ledger

/-- **Versions rise.** A session stores versions that are greater than each one before, and greater
than the one that was stored when it began; no ref is made twice. -/
theorem versions_rise {config : Config} {p : TagPattern}
    (hp : TagPattern.ofText config.release.tagPattern = .ok p) (m : Memory)
    (hw : Forge.Operation.updateVariable ∉ m.failing) {steps : List Step}
    (hs : ∀ s ∈ steps, s.Respects config) :
    ∃ (xs : List Forge.Mark) (vs : List Version), (run m steps).marks = m.marks ++ xs ∧
      xs.filterMap Forge.Mark.value? =
        vs.map (fun v => (config.release.versionVariable, v.text)) ∧
      vs.Pairwise (· < ·) ∧
      (∀ v ∈ vs, ∃ text v₀, m.values.lookup config.release.versionVariable = some text ∧
        Version.parse text = .ok v₀ ∧ v₀ < v) ∧
      (xs.filterMap Forge.Mark.ref?).Nodup := by
  obtain ⟨vs, h⟩ := (Ledger.start hw).run hp hs
  obtain ⟨xs, hxs, hv, hr⟩ := h.marks
  refine ⟨xs, vs, hxs, hv, h.rising, h.above, ?_⟩
  -- rising versions are different, and different versions have different refs
  have hinj : Function.Injective fun v => tagRef (p.format v) := fun u v huv =>
    p.format_injective ((String.append_right_inj "refs/tags/").1 huv)
  have hnodup : vs.Nodup := h.rising.imp fun hlt => Version.ne_of_lt hlt
  rw [hr]
  exact hnodup.map hinj

/-- The same commit, tagged with other labels in between. -/
theorem versions_rise_twice :
    let m : Memory := {
      pulls := [("c0ffee", [⟨42, "https://example.com/pull/42", ["feature"]⟩])]
      values := [("RELEASE_VERSION", "1.2.3")]
      commits := [("heads/release", "f00d")] }
    let tag : Step :=
      .run ⟨⟨"acme", "notify-api"⟩, {}, {}, false, .plain, 0, false⟩ {} (.tag "c0ffee")
    let relabel : Step := .setup (.pulls "c0ffee" [⟨42, "https://example.com/pull/42", ["hotfix"]⟩])
    let refs := (run m [tag, relabel, tag]).marks.filterMap Forge.Mark.ref?
    refs = ["refs/tags/1.3.0", "refs/tags/1.3.1"] ∧ refs.Nodup := by
  intro m tag relabel refs
  have hs : ∀ s ∈ [tag, relabel, tag], s.Respects {} := by
    intro s hs
    simp only [List.mem_cons, List.not_mem_nil, or_false] at hs
    rcases hs with rfl | rfl | rfl
    · rfl
    · trivial
    · rfl
  have hp : TagPattern.ofText ({} : Config).release.tagPattern =
      .ok ⟨"\x7bversion\x7d", by decide⟩ := rfl
  obtain ⟨xs, vs, hxs, -, -, -, hrefs⟩ := versions_rise hp m (by simp [m]) hs
  refine ⟨by decide, ?_⟩
  change ((run m [tag, relabel, tag]).marks.filterMap Forge.Mark.ref?).Nodup
  rw [hxs]
  exact hrefs

end Session

end ReleaseFlow
