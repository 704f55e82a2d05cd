import Mathlib.Logic.Function.Basic
import ReleaseFlow.Proofs.Flow.Acts

/-!
# Flows that take turns

Several flows run at the same time, each in a world of its own, and ask the same service. A schedule
says whose turn it is; in a turn a flow takes one step.

* `Race`, `Race.turn`, `Race.run`: the flows, a turn of one of them, and a whole schedule;
* `Flow.Follows`: the questions of a flow and their replies follow a protocol;
* `Race.run_keeps`: **what every move of a protocol keeps true, every schedule keeps true**.
-/

namespace ReleaseFlow

/-- Flows that ask the same service, and what they have asked, the oldest first. -/
structure Race (ι : Type) (S : Service) (σ α : Type) where
  flow : ι → Flow S α
  world : ι → World
  service : σ
  asked : List (ι × S.Query) := []

namespace Race

variable {ι : Type} [DecidableEq ι] {S : Service} {σ α : Type}

/-- A turn of one of the flows. One that has ended does nothing. -/
def turn (host : Host S σ) (i : ι) (r : Race ι S σ α) : Race ι S σ α :=
  match r.flow i with
  | .step act next =>
    let (reply, service, world) := act.perform host r.service (r.world i)
    { flow := Function.update r.flow i (next reply)
      world := Function.update r.world i world
      service
      asked := r.asked ++ (act.question?.map fun q => (i, q)).toList }
  | _ => r

/-- One turn after another. -/
def run (host : Host S σ) (r : Race ι S σ α) (schedule : List ι) : Race ι S σ α :=
  schedule.foldl (fun r i => r.turn host i) r

variable {host : Host S σ}

theorem turn_of_step {i : ι} {r : Race ι S σ α} {act : Act S} {next : act.Reply → Flow S α}
    (h : r.flow i = .step act next) : r.turn host i =
      { flow := Function.update r.flow i (next (act.perform host r.service (r.world i)).1)
        world := Function.update r.world i (act.perform host r.service (r.world i)).2.2
        service := (act.perform host r.service (r.world i)).2.1
        asked := r.asked ++ (act.question?.map fun q => (i, q)).toList } := by
  rw [turn, h]

theorem run_of_failed {r : Race ι S σ α} (h : ∀ i, ∃ e, r.flow i = .failed e) (schedule : List ι) :
    r.run host schedule = r := by
  induction schedule with
  | nil => rfl
  | cons i schedule ih =>
    obtain ⟨e, he⟩ := h i
    have hturn : r.turn host i = r := by rw [turn, he]
    rw [run, List.foldl_cons, hturn]
    exact ih

end Race

namespace Act

variable {S : Service} {Φ : Type}

/-- What a step and its reply make of the state of a protocol: only questions move it. -/
def Moves (T : Φ → (q : S.Query) → Except Failure (S.Answer q) → Φ → Prop) (φ : Φ) :
    (act : Act S) → act.Reply → Φ → Prop
  | ask q, reply, φ' => T φ q reply φ'
  | _, _, φ' => φ' = φ

end Act

namespace Flow

variable {S : Service} {α β Φ : Type}
  {T : Φ → (q : S.Query) → Except Failure (S.Answer q) → Φ → Prop} {φ : Φ}

/-- Whatever the replies, the questions of the flow and their replies follow the protocol. -/
def Follows (T : Φ → (q : S.Query) → Except Failure (S.Answer q) → Φ → Prop) :
    Flow S α → Φ → Prop
  | done _, _ => True
  | failed _, _ => True
  | stalled, _ => True
  | step act next, φ => ∀ r, ∃ φ', act.Moves T φ r φ' ∧ (next r).Follows T φ'

theorem follows_of_quiet {m : Flow S α} (hm : m.Asks fun _ => False) : m.Follows T φ := by
  induction m generalizing φ with
  | done a => exact trivial
  | failed e => exact trivial
  | stalled => exact trivial
  | step act next ih =>
    intro r
    refine ⟨φ, ?_, ih r (hm.2 r)⟩
    cases act with
    | ask q => exact (hm.1 q rfl).elim
    | _ => exact rfl

theorem Follows.bind_of_quiet {Q : α → Prop} {m : Flow S α} {f : α → Flow S β}
    (hm : m.Asks fun _ => False) (hends : m.Ends Q) (hf : ∀ a, Q a → (f a).Follows T φ) :
    (m >>= f).Follows T φ := by
  change (m.bind f).Follows T φ
  induction m with
  | done a => exact hf a hends
  | failed e => exact trivial
  | stalled => exact trivial
  | step act next ih =>
    intro r
    refine ⟨φ, ?_, ih r (hm.2 r) (hends r)⟩
    cases act with
    | ask q => exact (hm.1 q rfl).elim
    | _ => exact rfl

theorem follows_print_bind {text : String} {f : Unit → Flow S β} (hf : (f ()).Follows T φ) :
    (print text >>= f).Follows T φ :=
  fun _ => ⟨φ, rfl, hf⟩

/-- A question moves the protocol, whether or not it is answered. -/
theorem follows_ask_bind {q : S.Query} {f : S.Answer q → Flow S β}
    (herror : ∀ e, ∃ φ', T φ q (.error e) φ')
    (hok : ∀ a, ∃ φ', T φ q (.ok a) φ' ∧ (f a).Follows T φ') :
    (ask q >>= f).Follows T φ := by
  intro (r : Except Failure (S.Answer q))
  cases r with
  | error e =>
    obtain ⟨φ', h⟩ := herror e
    exact ⟨φ', h, trivial⟩
  | ok a => exact hok a

end Flow

namespace Race

variable {ι : Type} [DecidableEq ι] {S : Service} {σ α Φ : Type} {host : Host S σ}
  {T : ι → Φ → (q : S.Query) → Except Failure (S.Answer q) → Φ → Prop}
  {I : (ι → Φ) → σ → List (ι × S.Query) → Prop}

/-- Every flow follows its protocol, and the states of the protocols agree with the service and with
what was asked. -/
def Agrees (T : ι → Φ → (q : S.Query) → Except Failure (S.Answer q) → Φ → Prop)
    (I : (ι → Φ) → σ → List (ι × S.Query) → Prop) (r : Race ι S σ α) : Prop :=
  ∃ φ : ι → Φ, (∀ i, (r.flow i).Follows (T i) (φ i)) ∧ I φ r.service r.asked

variable (hI : ∀ {i φ s asked q reply s' φ'}, I φ s asked → host q s = (reply, s') →
  T i (φ i) q reply φ' → I (Function.update φ i φ') s' (asked ++ [(i, q)]))
include hI

theorem turn_keeps {r : Race ι S σ α} (h : r.Agrees T I) (i : ι) : (r.turn host i).Agrees T I := by
  obtain ⟨φ, hfollows, hinv⟩ := h
  have hi := hfollows i
  cases hflow : r.flow i with
  | step act next =>
    rw [hflow] at hi
    rw [turn_of_step hflow]
    obtain ⟨φ', hmoves, hnext⟩ := hi (act.perform host r.service (r.world i)).1
    refine ⟨Function.update φ i φ', fun j => ?_, ?_⟩
    · by_cases hj : j = i
      · subst hj
        simpa only [Function.update_self] using hnext
      · simpa only [Function.update_of_ne hj] using hfollows j
    -- a step that asks nothing leaves the protocol and the service as they were
    · have hquiet : ∀ s', φ' = φ i → s' = r.service →
          I (Function.update φ i φ') s' (r.asked ++ []) := by
        rintro s' rfl rfl
        rwa [Function.update_eq_self, List.append_nil]
      cases act with
      | ask q => exact hI hinv rfl hmoves
      | appendFile path text =>
        refine hquiet _ hmoves ?_
        simp only [Act.perform]
        split <;> rfl
      | _ => exact hquiet _ hmoves rfl
  | _ =>
    rw [turn, hflow]
    exact ⟨φ, hfollows, hinv⟩

/-- **What every move of the protocols keeps true, every schedule keeps true.** -/
theorem run_keeps {r : Race ι S σ α} (h : r.Agrees T I) (schedule : List ι) :
    (r.run host schedule).Agrees T I := by
  induction schedule generalizing r with
  | nil => exact h
  | cons i schedule ih => exact ih (turn_keeps hI h i)

end Race

end ReleaseFlow
