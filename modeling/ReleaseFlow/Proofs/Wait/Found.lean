import ReleaseFlow.Proofs.Flow.Run
import ReleaseFlow.Wait

/-!
# What a wait finds

Whatever the intervals, the deadline and the clock, what a wait gives is what its last try gave.

* `loop_found`, `poll_found`: **the try that a wait ends with**, and what all tries before it keep
  true.
-/

namespace ReleaseFlow.Wait

variable {S : Service} {σ α : Type} {host : Host S σ} {attempt : Flow S (Option α)} {s s' : σ}
  {w w' : World} {a : α} {I : σ → FileTree → Prop} (wait : Wait)

/-- Between two tries no file changes and the service is not asked, so what every try keeps true is
true of the last one, too. -/
theorem loop_found
    (hkeep : ∀ s w, I s w.files →
      I (attempt.run host s w).2.1 (attempt.run host s w).2.2.files)
    (deadline : Option Nat) (left : Nat) (made : UInt32) (hs : I s w.files)
    (h : (wait.loop deadline attempt left made).run host s w = (.done a, s', w')) :
    ∃ s₁ w₁ w₂, I s₁ w₁.files ∧ attempt.run host s₁ w₁ = (.done (some a), s', w₂) ∧
      w'.files = w₂.files := by
  induction left generalizing s w made with
  | zero => cases h
  | succ left ih =>
    unfold loop at h
    split at h
    · cases h
    obtain ⟨found, s₂, w₂, hfirst, hrest⟩ := Flow.of_run_bind_done h
    have hkept := hkeep s w hs
    rw [hfirst] at hkept
    cases found with
    | some value =>
      cases hrest
      exact ⟨s, w, w₂, hs, hfirst, rfl⟩
    | none =>
      cases deadline with
      | none => exact ih (w := { w₂ with uptime := wakeUp w₂.uptime wait.interval }) _ hkept hrest
      | some d =>
        dsimp only at hrest
        rw [Flow.run_uptime_bind] at hrest
        by_cases hover : wait.isOver d w₂.uptime = true
        · rw [if_pos hover] at hrest
          cases hrest
        · rw [if_neg hover] at hrest
          exact ih (w := { w₂ with uptime := wakeUp w₂.uptime wait.interval }) _ hkept hrest

/-- **What a wait gives is what its last try gave.** -/
theorem poll_found
    (hkeep : ∀ s w, I s w.files →
      I (attempt.run host s w).2.1 (attempt.run host s w).2.2.files)
    (hs : I s w.files) (h : (wait.poll attempt).run host s w = (.done a, s', w')) :
    ∃ s₁ w₁ w₂, I s₁ w₁.files ∧ attempt.run host s₁ w₁ = (.done (some a), s', w₂) ∧
      w'.files = w₂.files := by
  rw [poll, Flow.run_uptime_bind] at h
  exact wait.loop_found hkeep _ _ _ hs h

end ReleaseFlow.Wait
