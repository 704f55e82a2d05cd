import ReleaseFlow.Proofs.Flow.Asked
import ReleaseFlow.Proofs.Forge.Variation
import ReleaseFlow.Proofs.Session.Steps

/-!
# The history of a service in memory

A session comes down to deeds: the service in memory is set up, or it is asked a question, by a
workflow or directly. What happened tells what the memory holds.

* `Deed`, `deeds`: what is done in a session, one deed after another;
* `Happening`, `history`: the deeds together with the replies;
* `Happening.writeTo?`, `Happening.mark?`: what was written to a variable, and what was recorded;
* `Deed.store_apply`, `Deed.failing_apply`: what one deed does to the memory;
* `lookup_after`, `marks_after`, `failing_after`: the memory as its history tells;
* `history_of_failing`: a history in which an operation fails, beside the one in which it is never
  used;
* `store_is_faithful`: **a memory holds what was written last, and records what was done**.
-/

namespace ReleaseFlow

namespace Forge.Call

/-- The trace that the question leaves when it is answered. -/
def mark? (c : Call) : Option Mark :=
  match c.query with
  | .updateVariable name value => some (.updateVariable name value)
  | .createTagObject tag message sha => some (.createTagObject tag message sha)
  | .createRef ref sha => some (.createRef ref sha)
  | .generateNotes request => some (.generateNotes request)
  | .createRelease release => some (.createRelease release)
  | .dispatch workflow ref inputs => some (.dispatch c.repository workflow ref inputs)
  | _ => none

/-- The value that the question writes to the variable when it is answered. -/
def writeTo? (name : String) (c : Call) : Option String :=
  match c.query with
  | .updateVariable other value => if other = name then some value else none
  | _ => none

theorem of_not_marking {c : Call} (h : c.query.operation ∉ Operation.marking) :
    c.mark? = none ∧ ∀ name, c.writeTo? name = none := by
  obtain ⟨repository, q⟩ := c
  cases q with
  | updateVariable | createTagObject | createRef | generateNotes | createRelease | dispatch =>
    exact absurd (by simp [Operation.marking, Query.operation]) h
  | _ => exact ⟨rfl, fun _ => rfl⟩

end Forge.Call

namespace Session

/-! ## Deeds -/

/-- Something that is done to a service in memory. -/
inductive Deed where
  | setup (s : Memory.Setup)
  | ask (c : Forge.Call)
  deriving DecidableEq, Repr

/-- The memory after a deed. -/
def Deed.apply (m : Memory) : Deed → Memory
  | setup s => s.apply m
  | ask c => (Memory.answer c m).2

/-- The deed is a question of the given kind. -/
def Deed.uses (op : Forge.Operation) : Deed → Bool
  | setup _ => false
  | ask c => c.query.operation == op

/-- The memory after some deeds. -/
def after (m : Memory) (done : List Deed) : Memory :=
  done.foldl Deed.apply m

theorem after_append (m : Memory) (done later : List Deed) :
    after m (done ++ later) = after (after m done) later :=
  List.foldl_append

/-- What a step does. -/
def Step.deeds (m : Memory) : Step → List Deed
  | setup s => [.setup s]
  | ask c => [.ask c]
  | run ctx w task => ((task.flow ctx).asked Memory.host m w).map .ask

/-- What all steps do. -/
def deeds (m : Memory) : List Step → List Deed
  | [] => []
  | s :: steps => s.deeds m ++ deeds (s.apply m) steps

theorem Step.after_deeds (m : Memory) (s : Step) : after m (s.deeds m) = s.apply m := by
  cases s with
  | setup s => rfl
  | ask c => rfl
  | run ctx w task =>
    rw [Step.deeds, after, List.foldl_map, Step.apply, Flow.run_service]
    rfl

theorem after_deeds (m : Memory) (steps : List Step) : after m (deeds m steps) = run m steps := by
  induction steps generalizing m with
  | nil => rfl
  | cons s steps ih => rw [deeds, after_append, s.after_deeds, ih, run_cons]

/-! ## Happenings -/

/-- A deed, with the reply to a question. -/
inductive Happening where
  | setup (s : Memory.Setup)
  | answer (c : Forge.Call) (reply : Except Failure c.query.Answer)

/-- What happens when the deed is done. -/
def Deed.happens (m : Memory) : Deed → Happening
  | setup s => .setup s
  | ask c => .answer c (Memory.answer c m).1

/-- What happens when all deeds are done, one after another. -/
def history (m : Memory) : List Deed → List Happening
  | [] => []
  | d :: done => d.happens m :: history (d.apply m) done

namespace Happening

/-- A question of the given kind was asked. -/
def uses (op : Forge.Operation) : Happening → Bool
  | setup _ => false
  | answer c _ => c.query.operation == op

/-- The value that was written to the variable. -/
def writeTo? (name : String) : Happening → Option String
  | setup (.value other text) => if other = name then some text else none
  | answer c (.ok _) => c.writeTo? name
  | _ => none

/-- The trace that was left. -/
def mark? : Happening → Option Forge.Mark
  | answer c (.ok _) => c.mark?
  | _ => none

end Happening

theorem Deed.uses_happens (m : Memory) (op : Forge.Operation) (d : Deed) :
    (d.happens m).uses op = d.uses op := by
  cases d <;> rfl

theorem Happening.of_not_marking {c : Forge.Call}
    (h : c.query.operation ∉ Forge.Operation.marking) (reply : Except Failure c.query.Answer) :
    (Happening.answer c reply).mark? = none ∧
      ∀ name, (Happening.answer c reply).writeTo? name = none := by
  cases reply with
  | ok a => exact Forge.Call.of_not_marking h
  | error e => exact ⟨rfl, fun _ => rfl⟩

/-! ## What a deed does to the memory -/

theorem lookup_setVariable (m : Memory) (name other value : String) :
    (m.setVariable other value).values.lookup name =
      (if other = name then some value else none).or (m.values.lookup name) := by
  change List.lookup name ((other, value) :: m.values) = _
  by_cases h : other = name
  · rw [if_pos h, h, List.lookup_cons_self, Option.some_or]
  · have hne : (name == other) = false := beq_eq_false_iff_ne.2 fun h' => h h'.symm
    rw [if_neg h, List.lookup_cons, hne, Option.none_or]

/-- After a deed a variable holds what was written to it, or else what it held before, and the trace
of the deed is added at the end. -/
theorem Deed.store_apply (m : Memory) (d : Deed) :
    (∀ name, (d.apply m).values.lookup name =
      ((d.happens m).writeTo? name).or (m.values.lookup name)) ∧
    (d.apply m).marks = m.marks ++ (d.happens m).mark?.toList := by
  have hsame : m.marks = m.marks ++ [] := (List.append_nil _).symm
  cases d with
  | setup s =>
    cases s with
    | value other text => exact ⟨fun name => lookup_setVariable m name other text, hsame⟩
    | _ => exact ⟨fun _ => rfl, hsame⟩
  | ask c =>
    change (∀ name, (Memory.answer c m).2.values.lookup name =
        ((Happening.answer c (Memory.answer c m).1).writeTo? name).or (m.values.lookup name)) ∧
      (Memory.answer c m).2.marks =
        m.marks ++ (Happening.answer c (Memory.answer c m).1).mark?.toList
    by_cases hmark : c.query.operation ∈ Forge.Operation.marking
    · obtain ⟨repository, q⟩ := c
      by_cases hq : q.operation ∈ m.failing
      · rw [Memory.answer_of_failing hq]
        exact ⟨fun _ => rfl, hsame⟩
      · rw [Memory.answer_of_not_failing hq]
        cases q with
        | updateVariable other value =>
          exact ⟨fun name => lookup_setVariable m name other value, rfl⟩
        | createTagObject | createRef | generateNotes | createRelease | dispatch =>
          exact ⟨fun _ => rfl, rfl⟩
        | _ => exact absurd hmark (by simp [Forge.Operation.marking, Forge.Query.operation])
    · obtain ⟨hmarks, hvalues⟩ := (Memory.answer_change c m).silent hmark
      obtain ⟨hnone, hnowhere⟩ := Happening.of_not_marking hmark (Memory.answer c m).1
      rw [hmarks, hvalues, hnone]
      exact ⟨fun name => by rw [hnowhere name, Option.none_or], hsame⟩

theorem Deed.failing_apply (m : Memory) (op : Forge.Operation) (d : Deed) :
    op ∈ (d.apply m).failing ↔ op ∈ m.failing ∨ d = .setup (.failure op) := by
  cases d with
  | setup s =>
    cases s with
    | failure other =>
      rw [Deed.setup.injEq, Memory.Setup.failure.injEq, eq_comm, or_comm]
      exact List.mem_cons
    | _ => simp [Deed.apply, Memory.Setup.apply, Memory.setVariable, Memory.setCommit,
        Memory.setPulls, Memory.pushListing, Memory.pushState, Memory.setLogs]
  | ask c =>
    simp only [Deed.apply, (Memory.answer_change c m).fixed.2.2, reduceCtorEq, or_false]

/-! ## The memory as its history tells -/

variable (m : Memory)

/-- A variable holds what was written to it last. -/
theorem lookup_after (name : String) (done : List Deed) :
    (after m done).values.lookup name =
      ((history m done).filterMap (Happening.writeTo? name)).getLast?.or
        (m.values.lookup name) := by
  induction done generalizing m with
  | nil => rfl
  | cons d done ih =>
    change (after (d.apply m) done).values.lookup name = _
    rw [ih, (d.store_apply m).1, ← Option.or_assoc, history, List.filterMap_cons]
    cases hw : (d.happens m).writeTo? name with
    | none => rw [Option.or_none]
    | some value => rw [List.getLast?_cons, Option.or_some]

theorem marks_after (done : List Deed) :
    (after m done).marks = m.marks ++ (history m done).filterMap Happening.mark? := by
  induction done generalizing m with
  | nil => exact (List.append_nil _).symm
  | cons d done ih =>
    change (after (d.apply m) done).marks = _
    rw [ih, (d.store_apply m).2, List.append_assoc, history, List.filterMap_cons]
    cases (d.happens m).mark? <;> rfl

theorem failing_after (op : Forge.Operation) (done : List Deed) :
    op ∈ (after m done).failing ↔ op ∈ m.failing ∨ .setup (.failure op) ∈ done := by
  induction done generalizing m with
  | nil => simp [after]
  | cons d done ih =>
    change op ∈ (after (d.apply m) done).failing ↔ _
    rw [ih, d.failing_apply, List.mem_cons, or_assoc, @eq_comm _ d]

/-! ## One operation that fails -/

section Failing

variable {m} {m' : Memory} {op : Forge.Operation}

theorem sameBut_setup (h : m.SameBut op m') (s : Memory.Setup) :
    (s.apply m).SameBut op (s.apply m') := by
  obtain ⟨hrest, hlogs, hfailing⟩ := h
  cases s with
  | logs job text =>
    refine ⟨?_, fun hop => ?_, hfailing⟩
    · rw [hrest]
      rfl
    · exact congrArg (Memory.set job text) (hlogs hop)
  | failure other =>
    refine ⟨?_, hlogs, fun another hne => ?_⟩
    · rw [hrest]
      rfl
    · exact List.mem_cons.trans ((or_congr_right (hfailing another hne)).trans List.mem_cons.symm)
  | _ =>
    refine ⟨?_, hlogs, hfailing⟩
    rw [hrest]
    rfl

theorem Deed.sameBut_apply (h : m.SameBut op m') {d : Deed} (hd : d.uses op = false) :
    d.happens m' = d.happens m ∧ (d.apply m).SameBut op (d.apply m') := by
  cases d with
  | setup s => exact ⟨rfl, sameBut_setup h s⟩
  | ask c =>
    obtain ⟨hreply, hafter⟩ := h.answer (beq_eq_false_iff_ne.1 hd)
    exact ⟨congrArg (Happening.answer c) hreply, hafter⟩

theorem Deed.apply_of_uses (hop : op ∈ m.failing) {d : Deed} (hd : d.uses op = true) :
    d.apply m = m := by
  cases d with
  | setup s => cases hd
  | ask c =>
    obtain ⟨repository, q⟩ := c
    obtain rfl : q.operation = op := beq_iff_eq.1 hd
    rw [Deed.apply, Memory.answer_of_failing hop]

/-- Beside the uses of an operation that fails, all happens as if it was never used. -/
theorem history_of_failing (h : m.SameBut op m') (hop : op ∈ m'.failing) (done : List Deed) :
    (history m' done).filter (!·.uses op) = history m (done.filter (!·.uses op)) := by
  induction done generalizing m m' with
  | nil => rfl
  | cons d done ih =>
    rw [history, List.filter_cons, List.filter_cons, Deed.uses_happens]
    cases hd : d.uses op with
    | true => simpa [Deed.apply_of_uses hop hd] using ih h hop
    | false =>
      obtain ⟨hsame, hafter⟩ := Deed.sameBut_apply h hd
      have hop' : op ∈ (d.apply m').failing := (d.failing_apply m' op).2 (Or.inl hop)
      simpa [history, hsame] using ih hafter hop'

end Failing

/-- **A memory is a faithful store.** A session is no more than its deeds. After any number of them,
a variable holds what was written to it last, and that is what it is read as, unless reading
fails. The record holds the traces that were left, in order. An operation that was made to fail
fails whenever it is used and changes nothing; and to make one fail does not change what else
happens from then on. -/
theorem store_is_faithful (steps : List Step) (k : Nat) :
    let past := (deeds {} steps).take k
    let m := after {} past
    let happened := history {} past
    run {} steps = after {} (deeds {} steps) ∧
    (∀ name,
      let written := (happened.filterMap (Happening.writeTo? name)).getLast?
      m.values.lookup name = written ∧
      ∀ repository, .setup (.failure .getVariable) ∉ past →
        Memory.answer ⟨repository, .getVariable name⟩ m =
          (written.elim (.error (.api 404 "Not Found")) .ok, m)) ∧
    m.marks = happened.filterMap Happening.mark? ∧
    (∀ c : Forge.Call, .setup (.failure c.query.operation) ∈ past →
      Memory.answer c m = (.error (.api 500 (c.query.operation.text ++ " failed")), m)) ∧
    ∀ op later, (history (m.failOn op) later).filter (!·.uses op) =
      history m (later.filter (!·.uses op)) := by
  intro past m happened
  have hfailing : ∀ op, op ∈ m.failing ↔ .setup (.failure op) ∈ past := fun op =>
    (failing_after {} op past).trans (or_iff_right List.not_mem_nil)
  have hlookup : ∀ name, m.values.lookup name =
      (happened.filterMap (Happening.writeTo? name)).getLast? := fun name =>
    (lookup_after {} name past).trans (Option.or_none)
  refine ⟨(after_deeds {} steps).symm, fun name => ⟨hlookup name, fun repository hget => ?_⟩,
    marks_after {} past, fun c hc => Memory.answer_of_failing ((hfailing _).2 hc),
    fun op later => history_of_failing (.failOn op m) List.mem_cons_self later⟩
  have hq : (Forge.Query.getVariable name).operation ∉ m.failing := fun h => hget ((hfailing _).1 h)
  rw [Memory.answer_of_not_failing hq, ← hlookup name]
  cases hvalue : m.values.lookup name with
  | none => exact Memory.reply_getVariable_none hvalue
  | some value => exact Memory.reply_getVariable_some hvalue

/-- A version that was tagged is stored, and can still be seen in the record when the variable
cannot be read. -/
theorem tagged_version_is_stored :
    let steps : List Step := [.setup (.value "RELEASE_VERSION" "1.2.3"),
      .setup (.commit "heads/release" "f00d"),
      .setup (.pulls "c0ffee" [⟨42, "https://example.com/pull/42", ["feature"]⟩]),
      .run ⟨⟨"acme", "notify-api"⟩, {}, {}, false, .plain, 0, false⟩ {} (.tag "c0ffee"),
      .setup (.failure .getVariable)]
    let past := (deeds {} steps).take 10
    let m := after {} past
    .setup (.failure .getVariable) ∈ past ∧
      Memory.answer ⟨⟨"acme", "notify-api"⟩, .getVariable "RELEASE_VERSION"⟩ m =
        (.error (.api 500 "get_variable failed"), m) ∧
      m.values.lookup "RELEASE_VERSION" = some "1.3.0" := by
  intro steps past m
  have hpast : .setup (.failure .getVariable) ∈ past := by decide
  obtain ⟨-, hvalues, -, hfails, -⟩ := store_is_faithful steps 10
  exact ⟨hpast, hfails ⟨⟨"acme", "notify-api"⟩, .getVariable "RELEASE_VERSION"⟩ hpast,
    (hvalues "RELEASE_VERSION").1.trans (by decide)⟩

end Session

end ReleaseFlow
