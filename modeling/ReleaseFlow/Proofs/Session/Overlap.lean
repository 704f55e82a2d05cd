import Mathlib.Data.Bool.Basic
import ReleaseFlow.Proofs.Session.Ledger
import ReleaseFlow.Proofs.Workflow.Stages

/-!
# Two merges tagged at once

Two runs of tagging take turns at one memory, in any order. The runs are told apart by a truth
value.

* `ReadsAfter`: a run has read the release variable after the other one stored its version;
* `Lists`: what each of the runs has, in some order;
* `Written`: what was written, an invariant of the memory; `Written.name`, `Written.store`: a ref
  and a version more;
* `Known`: what the runs know, an invariant of their stages; `Known.advance`, `Known.store`: a stage
  more;
* `Overlap.move`: **every move of a run keeps both**.
-/

namespace ReleaseFlow

theorem pair_sublist_concat {α : Type} {a b c : α} {l : List α} :
    [a, b].Sublist (l ++ [c]) ↔ [a, b].Sublist l ∨ b = c ∧ a ∈ l := by
  rw [← List.reverse_sublist, ← @List.reverse_sublist _ [a, b] l]
  simp [List.cons_sublist_cons']

/-- The list holds what each of the runs has, in some order. -/
structure Lists {ι α : Type} (g : ι → Option α) (xs : List (ι × α)) : Prop where
  mem : ∀ i a, (i, a) ∈ xs ↔ g i = some a
  nodup : (xs.map Prod.fst).Nodup

namespace Lists

variable {ι α : Type} {g g' : ι → Option α} {xs : List (ι × α)} {i : ι} {a : α}

theorem nil : Lists (fun _ => none) ([] : List (ι × α)) :=
  ⟨by simp, by simp⟩

theorem push (h : Lists g xs) (hnone : g i = none) (hi : g' i = some a)
    (hg : ∀ j ≠ i, g' j = g j) : Lists g' (xs ++ [(i, a)]) := by
  constructor
  · intro j b
    by_cases hj : j = i
    · subst hj
      simp [h.mem, hnone, hi, eq_comm]
    · simp [h.mem, hg j hj, hj]
  · have hnew : i ∉ xs.map Prod.fst := by
      intro hmem
      obtain ⟨⟨j, b⟩, hx, rfl⟩ := List.mem_map.1 hmem
      simp [h.mem, hnone] at hx
    rw [List.map_append, List.nodup_append]
    refine ⟨h.nodup, by simp, fun j hj k hk => ?_⟩
    obtain rfl := List.mem_singleton.1 hk
    exact fun heq => hnew (heq ▸ hj)

end Lists

namespace Workflow.Stage

/-- The merge that the run has made a ref for. -/
def made? : Stage → Option MergeData
  | named d => some d
  | stored d => some d
  | _ => none

/-- The merge whose version the run has stored. -/
def stored? : Stage → Option MergeData
  | stored d => some d
  | _ => none

/-- What is known is what the memory tells. -/
def Learned (ctx : Context) (sha : String) (m : Memory) : Stage → Prop
  | start => True
  | listed pulls => pulls = (m.pulls.lookup sha).getD []
  | read pulls text => pulls = (m.pulls.lookup sha).getD [] ∧
    m.values.lookup ctx.config.release.versionVariable = some text
  | decided d => d.Read ctx sha m
  | tagged d _ => d.Read ctx sha m
  | named d => d.Read ctx sha m
  | stored d => d.Read ctx sha m
  | ended => True

variable {stage : Stage} {d : MergeData}

theorem stored?_eq_some_iff : stage.stored? = some d ↔ stage = stored d := by
  cases stage <;> simp [stored?]

theorem made?_of_stored? (h : stage.stored? = some d) : stage.made? = some d := by
  rw [stored?_eq_some_iff.1 h]
  rfl

theorem Learned.made {ctx : Context} {sha : String} {m : Memory} (h : stage.Learned ctx sha m)
    (hd : stage.made? = some d) : d.Read ctx sha m := by
  cases stage with
  | named d' => exact Option.some.inj hd ▸ h
  | stored d' => exact Option.some.inj hd ▸ h
  | _ => cases hd

end Workflow.Stage

namespace Session

open Workflow

/-- What kinds of question were asked, and by whom. -/
def kinds (asked : List (Bool × Forge.Call)) : List (Bool × Forge.Operation) :=
  asked.map fun x => (x.1, x.2.query.operation)

/-- The run has read the release variable after the other one stored its version. -/
def ReadsAfter (asked : List (Bool × Forge.Call)) (i : Bool) : Prop :=
  [(!i, Forge.Operation.updateVariable), (i, .getVariable)].Sublist (kinds asked)

instance (asked : List (Bool × Forge.Call)) (i : Bool) : Decidable (ReadsAfter asked i) := by
  unfold ReadsAfter
  infer_instance

section Trace

variable {asked : List (Bool × Forge.Call)} {i j : Bool} {c : Forge.Call}

theorem mem_kinds_append {x : Bool × Forge.Operation} :
    x ∈ kinds (asked ++ [(i, c)]) ↔ x ∈ kinds asked ∨ x = (i, c.query.operation) := by
  simp [kinds]

theorem readsAfter_append : ReadsAfter (asked ++ [(i, c)]) j ↔ ReadsAfter asked j ∨
    (j, Forge.Operation.getVariable) = (i, c.query.operation) ∧
      (!j, .updateVariable) ∈ kinds asked := by
  rw [ReadsAfter, ReadsAfter, kinds, List.map_append]
  exact pair_sublist_concat

theorem readsAfter_append_of_ne (h : c.query.operation ≠ .getVariable ∨ j ≠ i) :
    ReadsAfter (asked ++ [(i, c)]) j ↔ ReadsAfter asked j := by
  rw [readsAfter_append, or_iff_left]
  rintro ⟨heq, -⟩
  obtain ⟨rfl, hop⟩ := Prod.mk.inj heq
  rcases h with h | h
  · exact h hop.symm
  · exact h rfl

end Trace

/-! ## What was written -/

section Invariant

variable (ctx : Bool → Context) (sha : Bool → String) (config : Config) (p : TagPattern)
  (m₀ : Memory)

/-- What two runs have written since `m₀`: the refs of the merges in `made` and the versions of
those in `stored`. -/
structure Written (made stored : List (Bool × MergeData)) (m : Memory) : Prop where
  failing : m.failing = []
  pulls : m.pulls = m₀.pulls
  commits : m.commits = m₀.commits
  value : m.values.lookup config.release.versionVariable =
    (stored.getLast?.map fun x => x.2.next.text).or
      (m₀.values.lookup config.release.versionVariable)
  refs : m.marks.filterMap Forge.Mark.ref? =
    m₀.marks.filterMap Forge.Mark.ref? ++ made.map fun x => tagRef (p.format x.2.next)
  values : m.marks.filterMap Forge.Mark.value? = m₀.marks.filterMap Forge.Mark.value? ++
    stored.map fun x => (config.release.versionVariable, x.2.next.text)

namespace Written

variable {config p m₀} {made stored : List (Bool × MergeData)} {m : Memory}

theorem start (h : m₀.failing = []) : Written config p m₀ [] [] m₀ :=
  ⟨h, rfl, rfl, rfl, by simp, by simp⟩

theorem answer (h : Written config p m₀ made stored m) (c : Forge.Call) :
    Memory.host c m = Memory.reply c.repository c.query m :=
  Memory.answer_of_not_failing (by simp [h.failing])

theorem other (h : Written config p m₀ made stored m) {x : Forge.Mark} (hr : x.ref? = none)
    (hv : x.value? = none) : Written config p m₀ made stored (m.mark x) := by
  refine ⟨h.failing, h.pulls, h.commits, h.value, ?_, ?_⟩
  · rw [Memory.mark, List.filterMap_append, h.refs]
    simp [hr]
  · rw [Memory.mark, List.filterMap_append, h.values]
    simp [hv]

theorem name (h : Written config p m₀ made stored m) (x : Bool × MergeData) (object : String) :
    Written config p m₀ (made ++ [x]) stored
      (m.mark (.createRef (tagRef (p.format x.2.next)) object)) := by
  refine ⟨h.failing, h.pulls, h.commits, h.value, ?_, ?_⟩
  · rw [Memory.mark, List.filterMap_append, h.refs, List.map_append, List.append_assoc]
    rfl
  · rw [Memory.mark, List.filterMap_append, h.values]
    simp [Forge.Mark.value?]

theorem store (h : Written config p m₀ made stored m) (x : Bool × MergeData) :
    Written config p m₀ made (stored ++ [x])
      ((m.setVariable config.release.versionVariable x.2.next.text).mark
        (.updateVariable config.release.versionVariable x.2.next.text)) := by
  refine ⟨h.failing, h.pulls, h.commits, ?_, ?_, ?_⟩
  · simp [Memory.mark, Memory.setVariable, Memory.set]
  · rw [Memory.mark, Memory.setVariable, List.filterMap_append, h.refs]
    simp [Forge.Mark.ref?]
  · rw [Memory.mark, Memory.setVariable, List.filterMap_append, h.values, List.map_append,
      List.append_assoc]
    rfl

end Written

/-! ## What the runs know -/

/-- The memory from which a run knows the version: the first one, or the one after the other run
stored its version. -/
def Source (φ : Bool → Stage) (asked : List (Bool × Forge.Call)) (i : Bool) (base : Memory) :
    Prop :=
  ¬ ReadsAfter asked i ∧ base = m₀ ∨
  ReadsAfter asked i ∧ ∃ d, (φ !i).stored? = some d ∧ d.Read (ctx !i) (sha !i) m₀ ∧
    base = m₀.setVariable config.release.versionVariable d.next.text

/-- What two runs know that have come to their stages and have made refs and stored versions. -/
structure Known (made stored : List (Bool × MergeData)) (φ : Bool → Stage)
    (asked : List (Bool × Forge.Call)) : Prop where
  madeBy : Lists (fun i => (φ i).made?) made
  storedBy : Lists (fun i => (φ i).stored?) stored
  wrote : ∀ i, (i, .updateVariable) ∈ kinds asked ↔ (φ i).stored?.isSome
  learned : ∀ i, ∃ base, Source ctx sha config m₀ φ asked i base ∧
    (φ i).Learned (ctx i) (sha i) base
  /-- The first to store its version has not read that of the other. -/
  order : stored.Pairwise fun x _ => ¬ ReadsAfter asked x.1

variable {ctx sha config p m₀} {made made' stored : List (Bool × MergeData)} {φ : Bool → Stage}
  {asked : List (Bool × Forge.Call)} {i : Bool} {c : Forge.Call} {stage : Stage} {base : Memory}

/-- Only the stored version tells the sources apart. -/
theorem Source.same (h : Source ctx sha config m₀ φ asked i base) : base.failing = m₀.failing ∧
    base.pulls = m₀.pulls ∧ base.commits = m₀.commits := by
  rcases h with ⟨-, rfl⟩ | ⟨-, d, -, -, rfl⟩ <;> exact ⟨rfl, rfl, rfl⟩

theorem source_congr {φ' : Bool → Stage} {asked' : List (Bool × Forge.Call)}
    (hasked : ReadsAfter asked' i ↔ ReadsAfter asked i) (hφ : (φ' !i).stored? = (φ !i).stored?) :
    Source ctx sha config m₀ φ' asked' i base ↔ Source ctx sha config m₀ φ asked i base := by
  simp only [Source, hasked, hφ]

/-- What a new stage has in common with the one before. -/
theorem update_congr {β : Type} (g : Stage → β) (h : g stage = g (φ i)) (j : Bool) :
    g (Function.update φ i stage j) = g (φ j) := by
  by_cases hj : j = i
  · rw [hj, Function.update_self, h]
  · rw [Function.update_of_ne hj]

namespace Known

theorem start : Known ctx sha config m₀ [] [] (fun _ => .start) [] :=
  ⟨.nil, .nil, by simp [kinds, Stage.stored?],
    fun i => ⟨m₀, Or.inl ⟨by simp [ReadsAfter, kinds], rfl⟩, trivial⟩, .nil⟩

theorem not_readsAfter (h : Known ctx sha config m₀ made stored φ asked)
    (hopen : (φ i).stored? = none) {j : Bool} (hj : j ≠ i) : ¬ ReadsAfter asked j := by
  intro hread
  obtain ⟨base, ⟨hnot, -⟩ | ⟨-, d, hd, -⟩, -⟩ := h.learned j
  · exact hnot hread
  · rw [← Bool.eq_not.2 hj.symm, hopen] at hd
    cases hd

/-- When one run has not stored its version, the version that the other one stored was made from
the first memory. -/
theorem read_of_open (h : Known ctx sha config m₀ made stored φ asked)
    (hopen : (φ i).stored? = none) {d : MergeData} (hd : (φ !i).stored? = some d) :
    d.Read (ctx !i) (sha !i) m₀ := by
  obtain ⟨base, ⟨-, rfl⟩ | ⟨hread, -⟩, hlearned⟩ := h.learned (!i)
  · exact hlearned.made (Stage.made?_of_stored? hd)
  · exact absurd hread (h.not_readsAfter hopen (Bool.not_ne_self i))

theorem ne_of_mem (h : Known ctx sha config m₀ made stored φ asked) (hopen : (φ i).stored? = none)
    {x : Bool × MergeData} (hx : x ∈ stored) : x.1 ≠ i := by
  rintro rfl
  have hsome := (h.storedBy.mem x.1 x.2).1 hx
  rw [hopen] at hsome
  cases hsome

/-- A run that has not stored its version, and does not store it now, comes to another stage. -/
theorem advance (h : Known ctx sha config m₀ made stored φ asked) (hopen : (φ i).stored? = none)
    (hstage : stage.stored? = none) (hop : c.query.operation ≠ .updateVariable)
    (hmade : Lists (fun j => (Function.update φ i stage j).made?) made')
    (hlearned : ∃ base, Source ctx sha config m₀ φ (asked ++ [(i, c)]) i base ∧
      stage.Learned (ctx i) (sha i) base) :
    Known ctx sha config m₀ made' stored (Function.update φ i stage) (asked ++ [(i, c)]) := by
  have hstored : ∀ j, (Function.update φ i stage j).stored? = (φ j).stored? :=
    update_congr Stage.stored? (hstage.trans hopen.symm)
  refine ⟨hmade, ?_, fun j => ?_, fun j => ?_, ?_⟩
  · simpa only [hstored] using h.storedBy
  · rw [mem_kinds_append, hstored, ← h.wrote, or_iff_left]
    exact fun heq => hop (Prod.mk.inj heq).2.symm
  · by_cases hji : j = i
    · subst hji
      obtain ⟨base, hsource, hknown⟩ := hlearned
      exact ⟨base, (source_congr Iff.rfl (hstored _)).2 hsource, by rwa [Function.update_self]⟩
    · obtain ⟨base, hsource, hknown⟩ := h.learned j
      refine ⟨base, (source_congr ?_ (hstored _)).2 hsource, by rwa [Function.update_of_ne hji]⟩
      exact readsAfter_append_of_ne (Or.inr hji)
  · refine h.order.imp_of_mem fun {x y} hx _ hbefore => ?_
    rwa [readsAfter_append_of_ne (Or.inr (h.ne_of_mem hopen hx))]

/-- Whatever a run asks before it stores its version, there is a memory that it knows. -/
theorem exists_source (h : Known ctx sha config m₀ made stored φ asked)
    (hopen : (φ i).stored? = none) (c : Forge.Call) :
    ∃ base, Source ctx sha config m₀ φ (asked ++ [(i, c)]) i base := by
  by_cases hread : ReadsAfter (asked ++ [(i, c)]) i
  · have hwrote : (!i, Forge.Operation.updateVariable) ∈ kinds (asked ++ [(i, c)]) :=
      hread.subset (by simp)
    rw [mem_kinds_append, or_iff_left (by simp), h.wrote] at hwrote
    obtain ⟨d, hd⟩ := Option.isSome_iff_exists.1 hwrote
    exact ⟨_, Or.inr ⟨hread, d, hd, h.read_of_open hopen hd, rfl⟩⟩
  · exact ⟨m₀, Or.inl ⟨hread, rfl⟩⟩

theorem stop (h : Known ctx sha config m₀ made stored φ asked) (hopen : (φ i).stored? = none)
    (hop : c.query.operation ≠ .updateVariable)
    (hmade : Lists (fun j => (Function.update φ i .ended j).made?) made) :
    Known ctx sha config m₀ made stored (Function.update φ i .ended) (asked ++ [(i, c)]) := by
  obtain ⟨base, hsource⟩ := h.exists_source hopen c
  exact h.advance hopen rfl hop hmade ⟨base, hsource, trivial⟩

theorem pass (h : Known ctx sha config m₀ made stored φ asked) (hfailing : m₀.failing = [])
    (hopen : (φ i).stored? = none) (hstage : stage.stored? = none)
    (hop : c.query.operation ∉ [Forge.Operation.updateVariable, .getVariable])
    (hmade : Lists (fun j => (Function.update φ i stage j).made?) made')
    (hlearned : ∀ base : Memory, base.failing = [] → base.pulls = m₀.pulls →
      base.commits = m₀.commits → (φ i).Learned (ctx i) (sha i) base →
      stage.Learned (ctx i) (sha i) base) :
    Known ctx sha config m₀ made' stored (Function.update φ i stage) (asked ++ [(i, c)]) := by
  have hget : c.query.operation ≠ .getVariable := fun h => hop (by simp [h])
  refine h.advance hopen hstage (fun h => hop (by simp [h])) hmade ?_
  obtain ⟨base, hsource, hknown⟩ := h.learned i
  obtain ⟨hf, hpulls, hcommits⟩ := hsource.same
  exact ⟨base, (source_congr (readsAfter_append_of_ne (Or.inl hget)) rfl).2 hsource,
    hlearned base (hf.trans hfailing) hpulls hcommits hknown⟩

theorem store (h : Known ctx sha config m₀ made stored φ asked) {d : MergeData}
    (hstage : φ i = .named d) (hop : c.query.operation = .updateVariable) :
    Known ctx sha config m₀ made (stored ++ [(i, d)]) (Function.update φ i (.stored d))
      (asked ++ [(i, c)]) := by
  have hopen : (φ i).stored? = none := by rw [hstage]; rfl
  have hget : c.query.operation ≠ .getVariable := by rw [hop]; decide
  have hafter : ∀ j, ReadsAfter (asked ++ [(i, c)]) j ↔ ReadsAfter asked j :=
    fun j => readsAfter_append_of_ne (Or.inl hget)
  have hothers : ∀ j ≠ i, Function.update φ i (.stored d) j = φ j :=
    fun j hj => Function.update_of_ne hj _ _
  have hbefore : ∀ j ≠ i, ¬ ReadsAfter asked j := fun j hj => h.not_readsAfter hopen hj
  have hmade : ∀ j, (Function.update φ i (.stored d) j).made? = (φ j).made? :=
    update_congr Stage.made? (by rw [hstage]; rfl)
  refine ⟨?_, ?_, fun j => ?_, fun j => ?_, ?_⟩
  · simpa only [hmade] using h.madeBy
  · refine h.storedBy.push hopen ?_ fun j hj => ?_
    · rw [Function.update_self]
      rfl
    · rw [hothers j hj]
  · rw [mem_kinds_append, h.wrote, hop]
    by_cases hj : j = i
    · simp [hj, Stage.stored?]
    · simp [hj]
  · obtain ⟨base, hsource, hknown⟩ := h.learned j
    by_cases hji : j = i
    · subst hji
      refine ⟨base, (source_congr (hafter j) ?_).2 hsource, ?_⟩
      · rw [hothers _ (Bool.not_ne_self j)]
      · rw [Function.update_self]
        rwa [hstage] at hknown
    · rcases hsource with ⟨-, rfl⟩ | ⟨hread, -⟩
      · exact ⟨base, Or.inl ⟨by rw [hafter]; exact hbefore j hji, rfl⟩, by rwa [hothers j hji]⟩
      · exact absurd hread (hbefore j hji)
  · simp only [hafter]
    exact List.pairwise_append.2 ⟨h.order, List.pairwise_singleton _ _,
      fun x hx _ _ => hbefore x.1 (h.ne_of_mem hopen hx)⟩

end Known

/-! ## Moves -/

variable (ctx sha config p m₀) in
/-- Two runs that have come to their stages, with what they have written in the memory. -/
def Overlap (φ : Bool → Stage) (m : Memory) (asked : List (Bool × Forge.Call)) : Prop :=
  ∃ made stored, Written config p m₀ made stored m ∧ Known ctx sha config m₀ made stored φ asked

variable {m : Memory}

/-- A run that reads the stored version now finds the one that the other run stored, if it stored
one, and else that of the first memory. -/
theorem source_of_read (hw : Written config p m₀ made stored m)
    (hk : Known ctx sha config m₀ made stored φ asked) (hopen : (φ i).stored? = none)
    (hop : c.query.operation = .getVariable) {text : String}
    (htext : m.values.lookup config.release.versionVariable = some text) :
    ∃ base, Source ctx sha config m₀ φ (asked ++ [(i, c)]) i base ∧
      base.values.lookup config.release.versionVariable = some text := by
  obtain ⟨base, hsource⟩ := hk.exists_source hopen c
  refine ⟨base, hsource, ?_⟩
  rw [hw.value] at htext
  rcases hsource with ⟨hnot, rfl⟩ | ⟨-, d, hd, -, rfl⟩
  · have hnone : stored = [] := by
      refine List.eq_nil_iff_forall_not_mem.2 fun x hx => hnot (readsAfter_append.2 (Or.inr ?_))
      refine ⟨by rw [hop], (hk.wrote _).2 ?_⟩
      rw [← Bool.eq_not.2 (hk.ne_of_mem hopen hx), (hk.storedBy.mem x.1 x.2).1 hx]
      rfl
    rwa [hnone] at htext
  · obtain ⟨x, hlast⟩ : ∃ x, stored.getLast? = some x := by
      refine Option.isSome_iff_exists.1 (List.getLast?_isSome.2 ?_)
      exact List.ne_nil_of_mem ((hk.storedBy.mem _ d).2 hd)
    have hx := List.mem_of_getLast? hlast
    have hsome := (hk.storedBy.mem x.1 x.2).1 hx
    rw [Bool.eq_not.2 (hk.ne_of_mem hopen hx), hd] at hsome
    obtain rfl := Option.some.inj hsome
    rw [hlast] at htext
    rw [← htext]
    exact List.lookup_cons_self

/-- **Every move of a run keeps what was written and what is known.** -/
theorem Overlap.move (hfailing : m₀.failing = []) (hconfig : ∀ i, (ctx i).config = config)
    (h : Overlap ctx sha config p m₀ φ m asked) {reply : Except Failure c.query.Answer}
    {m' : Memory} (hanswer : Memory.host c m = (reply, m'))
    (hmoves : Moves (ctx i) p (sha i) (φ i) c reply stage) :
    Overlap ctx sha config p m₀ (Function.update φ i stage) m' (asked ++ [(i, c)]) := by
  obtain ⟨made, stored, hw, hk⟩ := h
  rw [hw.answer] at hanswer
  -- a question that makes no ref
  have hsame : ∀ {stage : Stage}, stage.made? = (φ i).made? →
      Lists (fun j => (Function.update φ i stage j).made?) made :=
    fun h => by simpa only [update_congr Stage.made? h] using hk.madeBy
  generalize hφ : φ i = current at hmoves
  cases hmoves with
  | list pulls =>
    cases hanswer
    refine ⟨made, stored, hw, hk.pass hfailing (by rw [hφ]; rfl) rfl
      (by simp [Forge.Query.operation]) (hsame (by rw [hφ]; rfl)) fun base _ hpulls _ _ => ?_⟩
    rw [Stage.Learned, hpulls, hw.pulls]
  | read text =>
    obtain ⟨htext, rfl⟩ : m.values.lookup config.release.versionVariable = some text ∧ m' = m := by
      simp only [Memory.reply, hconfig] at hanswer
      split at hanswer <;> cases hanswer
      exact ⟨‹_›, rfl⟩
    have hopen : (φ i).stored? = none := by rw [hφ]; rfl
    refine ⟨made, stored, hw, hk.advance hopen rfl (by simp [Forge.Query.operation])
      (hsame (by rw [hφ]; rfl)) ?_⟩
    obtain ⟨base, hsource, hbase⟩ := source_of_read (c := ⟨(ctx i).repository,
      .getVariable (ctx i).config.release.versionVariable⟩) hw hk hopen rfl htext
    obtain ⟨base', hsource', hlisted⟩ := hk.learned i
    rw [hφ] at hlisted
    refine ⟨base, hsource, ?_, by rwa [hconfig]⟩
    rw [hsource.same.2.1, ← hsource'.same.2.1]
    exact hlisted
  | decide hd =>
    obtain ⟨hhead, rfl⟩ : m.commits.lookup (branchRef (ctx i).config.release.branch) = some _ ∧
        m' = m := by
      simp only [Memory.reply] at hanswer
      split at hanswer <;> cases hanswer
      exact ⟨‹_›, rfl⟩
    refine ⟨made, stored, hw, hk.pass hfailing (by rw [hφ]; rfl) rfl
      (by simp [Forge.Query.operation]) (hsame (by rw [hφ]; rfl))
      fun base hbase hpulls hcommits hknown => ?_⟩
    rw [hφ] at hknown
    obtain ⟨rfl, htext⟩ := hknown
    rw [hw.commits, ← hcommits] at hhead
    exact (read_iff_madeOf (by simp [hbase]) htext hhead).2 hd
  | giveUp =>
    have hsecond : m' = m := by
      simp only [Memory.reply] at hanswer
      split at hanswer <;> cases hanswer
      rfl
    subst hsecond
    exact ⟨made, stored, hw, hk.stop (by rw [hφ]; rfl) (by simp [Forge.Query.operation])
      (hsame (by rw [hφ]; rfl))⟩
  | tag object =>
    cases hanswer
    exact ⟨made, stored, hw.other rfl rfl, hk.pass hfailing (by rw [hφ]; rfl) rfl
      (by simp [Forge.Query.operation]) (hsame (by rw [hφ]; rfl))
      fun base _ _ _ hknown => by rwa [hφ] at hknown⟩
  | @name d object =>
    cases hanswer
    refine ⟨made ++ [(i, d)], stored, hw.name (i, d) object, hk.pass hfailing (by rw [hφ]; rfl) rfl
      (by simp [Forge.Query.operation]) ?_ fun base _ _ _ hknown => by rwa [hφ] at hknown⟩
    refine hk.madeBy.push (by rw [hφ]; rfl) (by rw [Function.update_self]; rfl) fun j hj => ?_
    rw [Function.update_of_ne hj]
  | @store d =>
    rw [hconfig] at hanswer ⊢
    cases hanswer
    exact ⟨made, stored ++ [(i, d)], hw.store (i, d), hk.store hφ rfl⟩
  | refuse hq e =>
    obtain ⟨rfl, hop⟩ := Memory.of_reply_error hanswer
    have hwrite : Forge.Operation.updateVariable ∉
        [Forge.Operation.getVariable, .commitSha, .run, .logs] := by decide
    obtain ⟨hmade, hopen⟩ : current.made? = none ∧ current.stored? = none := by
      cases current with
      | named d => cases hq; exact absurd hop hwrite
      | stored d => cases hq
      | _ => exact ⟨rfl, rfl⟩
    exact ⟨made, stored, hw, hk.stop (hφ ▸ hopen) (fun h => hwrite (h ▸ hop))
      (hsame (by rw [hφ, hmade]; rfl))⟩

end Invariant

end Session

end ReleaseFlow
