import Mathlib.Logic.Relation
import ReleaseFlow.Proofs.Files.Collected
import ReleaseFlow.Proofs.Flow.Run

/-!
# The steps of a flow

* `Act.Tells`: a step that writes to the console or to the log;
* `FileTree.Grows`: files after texts were appended, one after another;
* `World.warnings`: what was written to the standard error;
* `Flow.Ends`: whatever the replies, the flow ends with a failure or with a result of some kind;
* `Flow.Acts.asks`, `Flow.Acts.grows`, `Flow.Acts.warnings`: **what a property of the steps says
  about the questions, about the files that a run leaves, and about its warnings**.
-/

namespace ReleaseFlow

namespace FileTree

/-- The files after texts were appended, each to a path and with a text that may go together. -/
def Grows (P : String → String → Prop) : FileTree → FileTree → Prop :=
  Relation.ReflTransGen fun t t' => ∃ path text, P path text ∧ t.append path text = .ok t'

variable {P Q : String → String → Prop} {t t' : FileTree}

theorem Grows.mono (hPQ : ∀ path text, P path text → Q path text) (h : t.Grows P t') :
    t.Grows Q t' := by
  refine Relation.ReflTransGen.mono (fun _ _ hstep => ?_) _ _ h
  obtain ⟨path, text, hP, ha⟩ := hstep
  exact ⟨path, text, hPQ path text hP, ha⟩

theorem Grows.elsewhere (h : t.Grows P t') :
    (∀ path place, t'.resolve path = .ok place ↔ t.resolve path = .ok place) ∧
      ∀ place, (∀ path text, P path text → t.resolve path ≠ .ok place) →
        t'.node? place = t.node? place := by
  induction h with
  | refl => exact ⟨fun _ _ => Iff.rfl, fun _ _ => rfl⟩
  | tail _ hlast ih =>
    obtain ⟨path, text, hP, ha⟩ := hlast
    obtain ⟨hresolve, hnode⟩ := append_elsewhere ha
    refine ⟨fun other place => (hresolve other place).trans (ih.1 other place),
      fun place hplace => ?_⟩
    rw [hnode place fun hp => hplace path text hP ((ih.1 path place).1 hp), ih.2 place hplace]

end FileTree

/-- What was written to the standard error, line by line. -/
def World.warnings (w : World) : List String :=
  w.record.filterMap fun e => if let .warn text := e then some text else none

@[simp] theorem World.warnings_noteIf_warn (w : World) (c : Bool) (text : String) :
    (w.noteIf c (.warn text)).warnings = w.warnings ++ if c then [text] else [] := by
  cases c with
  | true => simp [World.noteIf, World.warnings, World.note]
  | false => simp [World.noteIf]

/-- The step writes to the console or to the log. -/
def Act.Tells {S : Service} : Act S → Prop
  | .print _ => True
  | .warn _ => True
  | .log _ _ => True
  | _ => False

namespace Flow

variable {S : Service} {α β σ : Type} {P : Act S → Prop}

theorem Acts.asks {Q : S.Query → Prop} (hPQ : ∀ q, P (.ask q) → Q q) {m : Flow S α}
    (hm : m.Acts P) : m.Asks Q := by
  refine Acts.mono (fun act hact q hq => hPQ q ?_) hm
  rwa [← hq]

theorem Acts.asks_of_tells {Q : S.Query → Prop} {m : Flow S α} (hm : m.Acts Act.Tells) :
    m.Asks Q :=
  hm.asks fun _ h => h.elim

theorem Acts.grows {m : Flow S α} (hm : m.Acts P) (host : Host S σ) (s : σ) (w : World) :
    w.files.Grows (fun path text => P (.appendFile path text)) (m.run host s w).2.2.files := by
  induction m generalizing s w with
  | done a => exact .refl
  | failed e => exact .refl
  | stalled => exact .refl
  | step act next ih =>
    have h : w.files.Grows (fun path text => P (.appendFile path text))
        (act.perform host s w).2.2.files := by
      cases act with
      | appendFile path text =>
        simp only [Act.perform]
        split
        · next ha => exact .single ⟨path, text, hm.1, ha⟩
        · exact .refl
      | _ => exact .refl
    exact h.trans (ih _ (hm.2 _) _ _)

theorem Acts.warnings {m : Flow S α} (hm : m.Acts fun act => ∀ text, act ≠ .warn text)
    (host : Host S σ) (s : σ) (w : World) : (m.run host s w).2.2.warnings = w.warnings := by
  induction m generalizing s w with
  | done a => rfl
  | failed e => rfl
  | stalled => rfl
  | step act next ih =>
    have h : (act.perform host s w).2.2.warnings = w.warnings := by
      cases act with
      | warn text => exact absurd rfl (hm.1 text)
      | print text => simp [Act.perform, World.note, World.warnings]
      | log level text => simp [Act.perform, World.note, World.warnings]
      | appendFile path text =>
        simp only [Act.perform]
        split <;> rfl
      | _ => rfl
    exact (ih _ (hm.2 _) _ _).trans h

/-! ## How a flow ends -/

/-- Whatever the replies, the flow ends with a failure or with a result that has the property. -/
def Ends (Q : α → Prop) : Flow S α → Prop
  | done a => Q a
  | failed _ => True
  | stalled => False
  | step _ next => ∀ r, (next r).Ends Q

variable {Q : α → Prop} {R : β → Prop}

theorem Ends.bind {m : Flow S α} {f : α → Flow S β} (hm : m.Ends Q)
    (hf : ∀ a, Q a → (f a).Ends R) : (m >>= f).Ends R := by
  change (m.bind f).Ends R
  induction m with
  | done a => exact hf a hm
  | failed e => exact trivial
  | stalled => exact hm.elim
  | step act next ih => exact fun r => ih r (hm r)

theorem Ends.mono {Q' : α → Prop} (h : ∀ a, Q a → Q' a) {m : Flow S α} (hm : m.Ends Q) :
    m.Ends Q' := by
  induction m with
  | done a => exact h a hm
  | failed e => exact trivial
  | stalled => exact hm
  | step act next ih => exact fun r => ih r (hm r)

theorem ends_ofExcept {x : Except Failure α} (h : ∀ a, x = .ok a → Q a) :
    (ofExcept x : Flow S α).Ends Q := by
  cases x with
  | ok a => exact h a rfl
  | error e => exact trivial

theorem ends_ask {q : S.Query} : (ask q).Ends fun _ => True :=
  fun (r : Except Failure (S.Answer q)) => by cases r <;> exact trivial

/-- The steps of a flow whose results have a property, and those that are taken after it. -/
theorem Acts.bind_of_ends {m : Flow S α} {f : α → Flow S β} (hm : m.Acts P) (hends : m.Ends Q)
    (hf : ∀ a, Q a → (f a).Acts P) : (m >>= f).Acts P := by
  change (m.bind f).Acts P
  induction m with
  | done a => exact hf a hends
  | failed e => exact trivial
  | stalled => exact trivial
  | step act next ih => exact ⟨hm.1, fun r => ih r (hm.2 r) (hends r)⟩

/-- A flow that only tells ends in every run as it does in one. -/
theorem Acts.ends_of_run {m : Flow S α} (hm : m.Acts Act.Tells) (host : Host S σ) (s : σ)
    (w : World) (hdone : ∀ a, (m.run host s w).1 = .done a → Q a)
    (hstalled : (m.run host s w).1 ≠ .stalled) : m.Ends Q := by
  induction m generalizing s w with
  | done a => exact hdone a rfl
  | failed e => exact trivial
  | stalled => exact absurd rfl hstalled
  | step act next ih =>
    obtain ⟨hact, hnext⟩ := hm
    cases act with
    | print text => exact fun r => ih r (hnext r) _ _ hdone hstalled
    | warn text => exact fun r => ih r (hnext r) _ _ hdone hstalled
    | log level text => exact fun r => ih r (hnext r) _ _ hdone hstalled
    | _ => exact hact.elim

theorem Ends.failed {m : Flow S α} (hm : m.Ends fun _ => False) (host : Host S σ) (s : σ)
    (w : World) : ∃ e, (m.run host s w).1 = .failed e := by
  induction m generalizing s w with
  | done a => exact hm.elim
  | failed e => exact ⟨e, rfl⟩
  | stalled => exact hm.elim
  | step act next ih => exact ih _ (hm _) _ _

end Flow

end ReleaseFlow
