import ReleaseFlow.Proofs.Flow.Run

/-!
# Flows that do not see a difference

Two services may differ in something that a flow cannot tell, though it asks about it.

* `World.Unlogged`: worlds that differ at most by what was logged and warned;
* `Flow.Beside`: two runs that end in the same way and keep the difference;
* `Flow.Blind`: a flow all of whose runs do so;
* `Flow.Blind.bind`, `Flow.Asks.blind`: **a flow is blind when its parts are, or when each of its
  questions is answered in the same way**.
-/

namespace ReleaseFlow

namespace World

/-- What was written to the standard output, piece by piece. -/
def prints (w : World) : List String :=
  w.record.filterMap fun e => if let .print text := e then some text else none

/-- The worlds differ at most by what was logged and warned. -/
def Unlogged (w w' : World) : Prop :=
  ∃ record, w' = { w with record } ∧ w'.prints = w.prints

namespace Unlogged

variable {w w' : World}

theorem refl (w : World) : w.Unlogged w :=
  ⟨w.record, rfl, rfl⟩

theorem note (h : w.Unlogged w') (e : Event) : (w.note e).Unlogged (w'.note e) := by
  obtain ⟨record, rfl, h⟩ := h
  refine ⟨record ++ [e], rfl, ?_⟩
  simp only [prints, World.note, List.filterMap_append] at h ⊢
  rw [h]

theorem note_of_silent (h : w.Unlogged w') {e e' : Event} (he : ∀ text, e ≠ .print text)
    (he' : ∀ text, e' ≠ .print text) : (w.note e).Unlogged (w'.note e') := by
  have hsilent : ∀ (w : World) (e : Event), (∀ text, e ≠ .print text) →
      (w.note e).prints = w.prints := by
    intro w e he
    cases e with
    | print text => exact absurd rfl (he text)
    | _ => simp [prints, World.note]
  have hprints := hsilent w' e' he'
  obtain ⟨record, rfl, h⟩ := h
  exact ⟨record ++ [e'], rfl, (hprints.trans h).trans (hsilent w e he).symm⟩

theorem output (h : w.Unlogged w') : w'.output = w.output := by
  obtain ⟨record, -, h⟩ := h
  exact congrArg String.join h

end Unlogged

end World

namespace Flow

variable {S : Service} {σ α β : Type}

/-- Two runs that end in the same way, in worlds that differ at most by what was logged and warned,
with services that are related. -/
structure Beside (R : σ → σ → Prop) (run run' : Outcome α × σ × World) : Prop where
  outcome : run'.1 = run.1
  service : R run.2.1 run'.2.1
  world : run.2.2.Unlogged run'.2.2

/-- The flow does not see the difference between services that are related. -/
def Blind (host : Host S σ) (R : σ → σ → Prop) (m : Flow S α) : Prop :=
  ∀ ⦃s s' w w'⦄, R s s' → World.Unlogged w w' → Beside R (m.run host s w) (m.run host s' w')

variable {host : Host S σ} {R : σ → σ → Prop}

theorem Blind.bind {m : Flow S α} {f : α → Flow S β} (hm : m.Blind host R)
    (hf : ∀ a, (f a).Blind host R) : (m >>= f).Blind host R := by
  intro s s' w w' hs hw
  obtain ⟨houtcome, hservice, hworld⟩ := hm hs hw
  generalize hrun : m.run host s w = before at houtcome hservice hworld
  generalize hrun' : m.run host s' w' = before' at houtcome hservice hworld
  obtain ⟨o, s₁, w₁⟩ := before
  obtain ⟨o', s₁', w₁'⟩ := before'
  obtain rfl : o' = o := houtcome
  cases o' with
  | done a =>
    rw [run_bind_of_done f hrun, run_bind_of_done f hrun']
    exact hf a hservice hworld
  | failed e =>
    rw [run_bind_of_failed f hrun, run_bind_of_failed f hrun']
    exact ⟨rfl, hservice, hworld⟩
  | stalled =>
    rw [run_bind_of_stalled f hrun, run_bind_of_stalled f hrun']
    exact ⟨rfl, hservice, hworld⟩

/-- A step other than a question does not look at the service, nor at what was logged. -/
theorem perform_beside {act : Act S} (hact : ∀ q, act ≠ .ask q) {s s' : σ} {w w' : World}
    (hw : w.Unlogged w') : ∃ reply w₁ w₁', w₁.Unlogged w₁' ∧
      act.perform host s w = (reply, s, w₁) ∧ act.perform host s' w' = (reply, s', w₁') := by
  have hnote := hw.note
  obtain ⟨record, rfl, hprints⟩ := hw
  cases act with
  | ask q => exact absurd rfl (hact q)
  | print text => exact ⟨_, _, _, hnote (.print text), rfl, rfl⟩
  | warn text => exact ⟨_, _, _, hnote (.warn text), rfl, rfl⟩
  | log level text => exact ⟨_, _, _, hnote (.log level text), rfl, rfl⟩
  | appendFile path text =>
    simp only [Act.perform]
    cases w.files.append path text with
    | ok files =>
      exact ⟨_, { w with files }, { w with files, record }, ⟨record, rfl, hprints⟩, rfl, rfl⟩
    | error fault => exact ⟨_, _, _, ⟨record, rfl, hprints⟩, rfl, rfl⟩
  | sleep span =>
    have hslept : World.Unlogged { w with uptime := wakeUp w.uptime span }
        { w with uptime := wakeUp w.uptime span, record } := ⟨record, rfl, hprints⟩
    exact ⟨_, _, _, hslept, rfl, rfl⟩
  | _ => exact ⟨_, _, _, ⟨record, rfl, hprints⟩, rfl, rfl⟩

/-- **A flow is blind when each of its questions is answered in the same way.** -/
theorem Asks.blind {P : S.Query → Prop} {m : Flow S α} (hm : m.Asks P)
    (hP : ∀ q, P q → ∀ s s', R s s' →
      (host q s').1 = (host q s).1 ∧ R (host q s).2 (host q s').2) : m.Blind host R := by
  intro s s' w w' hs hw
  induction m generalizing s s' w w' with
  | done a => exact ⟨rfl, hs, hw⟩
  | failed e => exact ⟨rfl, hs, hw⟩
  | stalled => exact ⟨rfl, hs, hw⟩
  | step act next ih =>
    by_cases hact : ∃ q, act = .ask q
    · obtain ⟨q, rfl⟩ := hact
      obtain ⟨hreply, hs'⟩ := hP q (hm.1 q rfl) s s' hs
      have hrun : (step (.ask q) next).run host s' w' =
          (next (host q s).1).run host (host q s').2 w' := by
        rw [← hreply]
        rfl
      rw [hrun]
      exact ih _ (hm.2 _) hs' hw
    · obtain ⟨reply, w₁, w₁', hw₁, hperform, hperform'⟩ :=
        perform_beside (fun q hq => hact ⟨q, hq⟩) hw
      rw [run, run, hperform, hperform']
      exact ih reply (hm.2 reply) hs hw₁

end Flow

end ReleaseFlow
