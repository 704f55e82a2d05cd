import ReleaseFlow.Proofs.Flow.Run

/-!
# A flow beside two services

* `Flow.run_silent`: a flow that asks nothing does the same beside every service;
* `Flow.Agrees`: two runs that end in the same way and in the same world;
* `Flow.Agrees.ask`, `Flow.Agrees.silent`: **runs agree as long as both services give the same
  answers**.
-/

namespace ReleaseFlow.Flow

variable {S : Service} {α β σ τ : Type}

/-- What a step other than a question replies, and what it does to the world, does not depend on
the service, which it leaves as it is. -/
theorem perform_silent {act : Act S} (h : ∀ q, act ≠ .ask q) (w : World) :
    ∃ reply w', ∀ {σ : Type} (host : Host S σ) (s : σ),
      act.perform host s w = (reply, s, w') := by
  cases act with
  | ask q => exact absurd rfl (h q)
  | appendFile path text =>
    cases happend : w.files.append path text with
    | ok files => exact ⟨.ok (), { w with files }, fun _ _ => by simp only [Act.perform, happend]⟩
    | error fault => exact ⟨.error fault, w, fun _ _ => by simp only [Act.perform, happend]⟩
  | _ => exact ⟨_, _, fun _ _ => rfl⟩

theorem run_silent {m : Flow S α} (hm : m.Asks fun _ => False) (w : World) :
    ∃ o w', ∀ {σ : Type} (host : Host S σ) (s : σ), m.run host s w = (o, s, w') := by
  induction m generalizing w with
  | done a => exact ⟨_, _, fun _ _ => rfl⟩
  | failed e => exact ⟨_, _, fun _ _ => rfl⟩
  | stalled => exact ⟨_, _, fun _ _ => rfl⟩
  | step act next ih =>
    obtain ⟨reply, w₁, hact⟩ := perform_silent hm.1 w
    obtain ⟨o, w', hrun⟩ := ih reply (hm.2 reply) w₁
    refine ⟨o, w', fun host s => ?_⟩
    rw [run, hact]
    exact hrun host s

/-- Two runs that end in the same way and in the same world, with services that are related. -/
structure Agrees (R : σ → τ → Prop) (run₁ : Outcome α × σ × World) (run₂ : Outcome α × τ × World) :
    Prop where
  outcome : run₁.1 = run₂.1
  world : run₁.2.2 = run₂.2.2
  services : R run₁.2.1 run₂.2.1

namespace Agrees

variable {R : σ → τ → Prop} {host₁ : Host S σ} {host₂ : Host S τ} {s s' : σ} {t t' : τ} {w : World}

theorem ask {q : S.Query} {a : S.Answer q} {f : S.Answer q → Flow S β}
    (h₁ : host₁ q s = (.ok a, s')) (h₂ : host₂ q t = (.ok a, t'))
    (h : Agrees R ((f a).run host₁ s' w) ((f a).run host₂ t' w)) :
    Agrees R ((Flow.ask q >>= f).run host₁ s w) ((Flow.ask q >>= f).run host₂ t w) := by
  rw [run_ask_bind_of_ok f h₁, run_ask_bind_of_ok f h₂]
  exact h

theorem silent {m : Flow S α} (hm : m.Asks fun _ => False) (hR : R s t) :
    Agrees R (m.run host₁ s w) (m.run host₂ t w) := by
  obtain ⟨o, w', hrun⟩ := run_silent hm w
  rw [hrun, hrun]
  exact ⟨rfl, rfl, hR⟩

theorem silent_bind {m : Flow S α} {f : α → Flow S β} (hm : m.Asks fun _ => False) (hR : R s t)
    (h : ∀ a w', m.run host₁ s w = (.done a, s, w') →
      Agrees R ((f a).run host₁ s w') ((f a).run host₂ t w')) :
    Agrees R ((m >>= f).run host₁ s w) ((m >>= f).run host₂ t w) := by
  obtain ⟨o, w', hrun⟩ := run_silent hm w
  cases o with
  | done a =>
    rw [run_bind_of_done f (hrun host₁ s), run_bind_of_done f (hrun host₂ t)]
    exact h a w' (hrun host₁ s)
  | failed e =>
    rw [run_bind_of_failed f (hrun host₁ s), run_bind_of_failed f (hrun host₂ t)]
    exact ⟨rfl, rfl, hR⟩
  | stalled =>
    rw [run_bind_of_stalled f (hrun host₁ s), run_bind_of_stalled f (hrun host₂ t)]
    exact ⟨rfl, rfl, hR⟩

end Agrees

end ReleaseFlow.Flow
