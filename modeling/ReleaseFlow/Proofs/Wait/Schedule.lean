import ReleaseFlow.Proofs.Wait.Intervals

/-!
# When waits end

* `Wait.EndsAt`: the first try that is not in vain, and what it gives;
* `Wait.RunsOut`: a wait whose arithmetic is checked comes to a try that has no number;
* `Wait.poll_in_time`, `Wait.poll_too_late`: waits with a deadline;
* `Wait.poll_endless_ends`, `Wait.of_poll_endless_failed`: waits without a deadline;
* `Wait.poll_exact`: **when a wait ends, after how many tries and with what**;
* `tape`, `tapeHost`, `tape_tries`: tries whose outcomes are given in advance, and counted.
-/

namespace ReleaseFlow

namespace Wait

variable (wait : Wait) {S : Service} {σ α : Type} {host : Host S σ} {attempt : Flow S (Option α)}
  {o : ℕ → Except Failure (Option α)} {s : ℕ → σ} {w : World}

/-- Try `n` is the first that is not in vain, and gives `last`. -/
def EndsAt (o : ℕ → Except Failure (Option α)) (n : ℕ) (last : Except Failure α) : Prop :=
  (∀ k < n, o k = .ok none) ∧ o n = last.map some

theorem exists_last {found : Except Failure (Option α)} (h : found ≠ .ok none) :
    ∃ last : Except Failure α, found = last.map some := by
  match found, h with
  | .error e, _ => exact ⟨.error e, rfl⟩
  | .ok none, h => exact absurd rfl h
  | .ok (some a), _ => exact ⟨.ok a, rfl⟩

theorem vain_of_not_ends {P : ℕ → Prop} (hP : ∀ j k, j ≤ k → P k → P j)
    (h : ∀ n last, EndsAt o n last → ¬ P n) : ∀ k, P k → o k = .ok none := by
  intro k
  induction k using Nat.strongRecOn with
  | ind k ih =>
    intro hk
    by_contra hne
    obtain ⟨last, hlast⟩ := exists_last hne
    exact h k last ⟨fun j hj => ih j hj (hP j k (Nat.le_of_lt hj) hk), hlast⟩ hk

theorem EndsAt.pos {n : ℕ} {last : Except Failure α} (h : EndsAt o n last) (ho : o 0 = .ok none) :
    0 < n := by
  refine Nat.pos_of_ne_zero ?_
  rintro rfl
  have hnone : last.map some = .ok none := h.2.symm.trans ho
  cases last <;> cases hnone

/-- The arithmetic is checked, and the wait comes to a try that has no number: those before it are
in vain, and it is in time. -/
def RunsOut (o : ℕ → Except Failure (Option α)) : Prop :=
  wait.checked = true ∧ (∀ k < UInt32.size - 1, o k = .ok none) ∧
    (UInt32.size - 1) * wait.interval ≤ wait.timeout

theorem canCount_of_not_runsOut (h : ¬ wait.RunsOut o) {n : ℕ} (hvain : ∀ k < n, o k = .ok none)
    (hn : n * wait.interval ≤ wait.timeout) : CanCount wait.checked (n + 1) := by
  intro hchecked
  by_contra hsize
  have hle : UInt32.size - 1 ≤ n := by omega
  exact h ⟨hchecked, fun k hk => hvain k (Nat.lt_of_lt_of_le hk hle),
    Nat.le_trans (Nat.mul_le_mul_right _ hle) hn⟩

/-! ## Waits with a deadline -/

section Deadline

variable (ht : attempt.Tries host o s) (hi : 0 < wait.interval)
  (hw : w.uptime + wait.timeout < horizon)

include ht hi hw

theorem poll_in_time {n : ℕ} {last : Except Failure α} (h : EndsAt o n last)
    (hn : n * wait.interval ≤ wait.timeout) (hc : CanCount wait.checked (n + 1)) :
    ∃ w', w'.uptime = w.uptime + n * wait.interval ∧ wait.Noted (UInt32.ofNat (n + 1)) last w' ∧
      (wait.poll attempt).run host (s 0) w = (.ofExcept last, s (n + 1), w') := by
  obtain ⟨w', hq, hnoted, hrun⟩ := wait.poll_ends ht hi hw h.1 h.2 hn hc
  exact ⟨w', hq.uptime, hnoted, hrun⟩

theorem poll_too_late (hlate : ∀ n last, EndsAt o n last → wait.timeout < n * wait.interval)
    (hc : CanCount wait.checked (wait.timeout / wait.interval + 1)) :
    ∃ w', w'.uptime = w.uptime + wait.timeout / wait.interval * wait.interval ∧
      (wait.poll attempt).run host (s 0) w =
        (.failed (.timeout wait.what (wait.timeout / 1000)),
          s (wait.timeout / wait.interval + 1), w') := by
  have hvain : ∀ k, k * wait.interval ≤ wait.timeout → o k = .ok none :=
    vain_of_not_ends (fun j k hjk hk => Nat.le_trans (Nat.mul_le_mul_right _ hjk) hk)
      fun n last h => Nat.not_le.2 (hlate n last h)
  obtain ⟨w', hq, hrun⟩ := wait.poll_late ht hi hw hvain hc
  exact ⟨w', hq.uptime, hrun⟩

theorem poll_runsOut (h : wait.RunsOut o) :
    ∃ w', w'.uptime = w.uptime + (UInt32.size - 1) * wait.interval ∧
      (wait.poll attempt).run host (s 0) w = (.stalled, s (UInt32.size - 1), w') := by
  obtain ⟨w', hq, hrun⟩ := wait.poll_uncounted ht hi hw h.1 h.2.1 h.2.2
  exact ⟨w', hq.uptime, hrun⟩

/-- A wait with a deadline ends, unless its tries run out of numbers, and not after it. -/
theorem poll_bounded : (((wait.poll attempt).run host (s 0) w).1 = .stalled ↔ wait.RunsOut o) ∧
    ((wait.poll attempt).run host (s 0) w).2.2.uptime ≤ w.uptime + wait.timeout := by
  by_cases hout : wait.RunsOut o
  · obtain ⟨w', htime, hrun⟩ := wait.poll_runsOut ht hi hw hout
    rw [hrun]
    refine ⟨iff_of_true rfl hout, ?_⟩
    rw [htime]
    exact Nat.add_le_add_left hout.2.2 _
  by_cases hends : ∃ n last, EndsAt o n last ∧ n * wait.interval ≤ wait.timeout
  · obtain ⟨n, last, h, hn⟩ := hends
    obtain ⟨w', htime, -, hrun⟩ := wait.poll_in_time ht hi hw h hn
      (wait.canCount_of_not_runsOut hout h.1 hn)
    rw [hrun]
    refine ⟨iff_of_false (by cases last <;> simp [Outcome.ofExcept]) hout, ?_⟩
    rw [htime]
    exact Nat.add_le_add_left hn _
  · have hlate : ∀ n last, EndsAt o n last → wait.timeout < n * wait.interval :=
      fun n last h => Nat.not_le.1 fun hn => hends ⟨n, last, h, hn⟩
    have hvain : ∀ k < wait.timeout / wait.interval, o k = .ok none := by
      intro k hk
      refine vain_of_not_ends (P := fun k => k * wait.interval ≤ wait.timeout)
        (fun j k hjk hk => Nat.le_trans (Nat.mul_le_mul_right _ hjk) hk)
        (fun n last h => Nat.not_le.2 (hlate n last h)) k ?_
      exact (Nat.le_div_iff_mul_le hi).1 (Nat.le_of_lt hk)
    obtain ⟨w', htime, hrun⟩ := wait.poll_too_late ht hi hw hlate
      (wait.canCount_of_not_runsOut hout hvain (Nat.div_mul_le_self _ _))
    rw [hrun]
    refine ⟨iff_of_false (by simp) hout, ?_⟩
    rw [htime]
    exact Nat.add_le_add_left (Nat.div_mul_le_self _ _) _

/-- If the second try would have no instant, a first one in vain is the last. -/
theorem poll_once (hnext : horizon ≤ w.uptime + wait.interval) (ho : o 0 = .ok none) :
    ∃ w', w'.uptime = w.uptime ∧ (wait.poll attempt).run host (s 0) w =
      (.failed (.timeout wait.what (wait.timeout / 1000)), s 1, w') := by
  have hlt : wait.timeout < wait.interval := by omega
  have hone : wait.timeout / wait.interval = 0 := Nat.div_eq_of_lt hlt
  have hlate := wait.poll_too_late ht hi hw
    (fun n last h => Nat.lt_of_lt_of_le hlt (Nat.le_mul_of_pos_left _ (h.pos ho)))
    (by rw [hone]; exact canCount_one _)
  rwa [hone, Nat.zero_mul, Nat.add_zero] at hlate

end Deadline

/-! ## Waits without a deadline -/

theorem loop_endless_vain (ht : attempt.Tries host o s) {n : ℕ} (hvain : ∀ k < n, o k = .ok none)
    (hc : CanCount wait.checked n) (left : ℕ) :
    ∃ w', (wait.loop none attempt (left + n) 0).run host (s 0) w =
      (wait.loop none attempt left (UInt32.ofNat n)).run host (s n) w' := by
  induction n generalizing left with
  | zero => exact ⟨w, rfl⟩
  | succ n ih =>
    obtain ⟨w₁, hr₁⟩ := ih (fun k hk => hvain k (Nat.lt_succ_of_lt hk)) (hc.mono (Nat.le_succ n))
      (left + 1)
    obtain ⟨w₂, -, hr₂⟩ := ht n w₁
    rw [hvain n (Nat.lt_succ_self n)] at hr₂
    refine ⟨{ w₂ with uptime := wakeUp w₂.uptime wait.interval }, ?_⟩
    rw [show left + (n + 1) = left + 1 + n by omega, hr₁, loop, wait.count?_ofNat hc]
    dsimp only
    rw [Flow.run_bind_of_done _ hr₂]
    rfl

/-- Without a deadline, a wait that goes on fails only as one of its tries does. -/
theorem of_loop_endless_failed (ht : attempt.Tries host o s) {failure : Failure} {left k : ℕ}
    {made : UInt32}
    (h : ((wait.loop none attempt left made).run host (s k) w).1 = .failed failure) :
    ∃ n, k ≤ n ∧ (∀ j, k ≤ j → j < n → o j = .ok none) ∧ o n = .error failure := by
  induction left generalizing k made w with
  | zero => cases h
  | succ left ih =>
    cases hc : wait.count? made with
    | none =>
      rw [loop_uncounted wait hc] at h
      cases h
    | some tries =>
    obtain ⟨w₁, -, hr⟩ := ht k w
    rw [loop, hc] at h
    cases ho : o k with
    | error e =>
      rw [ho] at hr
      dsimp only at h
      rw [Flow.run_bind_of_failed _ hr] at h
      cases h
      exact ⟨k, le_rfl, fun j hkj hjk => by omega, ho⟩
    | ok found =>
      rw [ho] at hr
      dsimp only at h
      rw [Flow.run_bind_of_done _ hr] at h
      cases found with
      | some a => cases h
      | none =>
        obtain ⟨n, hkn, hvain, hn⟩ :=
          ih (w := { w₁ with uptime := wakeUp w₁.uptime wait.interval }) h
        refine ⟨n, Nat.le_of_succ_le hkn, fun j hkj hjn => ?_, hn⟩
        rcases Nat.eq_or_lt_of_le hkj with rfl | hlt
        · exact ho
        · exact hvain j hlt hjn

section Endless

variable (hw : horizon ≤ w.uptime + wait.timeout)

include hw

theorem poll_endless_eq :
    (wait.poll attempt).run host (s 0) w =
      (wait.loop none attempt wait.patience 0).run host (s 0) w := by
  have hlater : later? w.uptime wait.timeout = none := if_neg (Nat.not_lt.2 hw)
  rw [poll, Flow.run_uptime_bind]
  simp only [hlater, limit, Option.isSome_none, Bool.false_and]
  rfl

variable (ht : attempt.Tries host o s)

include ht

theorem poll_endless_ends {n : ℕ} {last : Except Failure α} (h : EndsAt o n last)
    (hn : n < wait.patience) (hc : CanCount wait.checked (n + 1)) :
    ∃ w', (wait.poll attempt).run host (s 0) w = (.ofExcept last, s (n + 1), w') := by
  obtain ⟨left, hleft⟩ := Nat.exists_eq_add_of_lt hn
  obtain ⟨w₁, hr₁⟩ := loop_endless_vain wait ht (w := w) h.1 (hc.mono (Nat.le_succ n)) (left + 1)
  obtain ⟨w₂, -, -, hr₂⟩ := loop_ends wait ht h.2 (w := w₁) none left (wait.count?_ofNat hc)
  refine ⟨w₂, ?_⟩
  rw [wait.poll_endless_eq hw, show wait.patience = left + 1 + n by omega, hr₁, hr₂]

theorem of_poll_endless_failed {failure : Failure}
    (h : ((wait.poll attempt).run host (s 0) w).1 = .failed failure) :
    ∃ n, EndsAt o n (.error failure) := by
  rw [wait.poll_endless_eq hw] at h
  obtain ⟨n, -, hvain, hn⟩ := wait.of_loop_endless_failed ht h
  exact ⟨n, fun k hk => hvain k (Nat.zero_le k) hk, hn⟩

end Endless

/-! ## All waits -/

/-- **When a wait ends.** Let the tries take no time, and let the service count them. With a
deadline, a wait ends with the first try that is not in vain, after one interval for each try before
it, unless that is too late; a value is noted with the number of its try in 32 bits. Then it ends
with a timeout, after the last try that is not too late. It always ends, and never after the
deadline. If already the second try would have no instant, there is one try. Without a deadline a
wait ends with the first try that is not in vain, and never with a timeout of its own. All this
holds of any number of tries, unless the arithmetic is checked: then it holds as far as the tries
can be counted, and the wait breaks off where they cannot. -/
theorem poll_exact (ht : attempt.Tries host o s) (made : σ → ℕ) (hmade : ∀ k, made (s k) = k)
    (hi : 0 < wait.interval) (w : World) :
    let run := (wait.poll attempt).run host (s 0) w
    (w.uptime + wait.timeout < horizon →
      (∀ n last, EndsAt o n last → n * wait.interval ≤ wait.timeout →
        CanCount wait.checked (n + 1) →
        run.1 = .ofExcept last ∧ made run.2.1 = n + 1 ∧
        run.2.2.uptime = w.uptime + n * wait.interval ∧
        wait.Noted (UInt32.ofNat (n + 1)) last run.2.2) ∧
      ((∀ n last, EndsAt o n last → wait.timeout < n * wait.interval) →
        CanCount wait.checked (wait.timeout / wait.interval + 1) →
        run.1 = .failed (.timeout wait.what (wait.timeout / 1000)) ∧
        made run.2.1 = wait.timeout / wait.interval + 1 ∧
        run.2.2.uptime = w.uptime + wait.timeout / wait.interval * wait.interval) ∧
      (run.1 = .stalled ↔ wait.RunsOut o) ∧
      (wait.RunsOut o → made run.2.1 = UInt32.size - 1 ∧
        run.2.2.uptime = w.uptime + (UInt32.size - 1) * wait.interval) ∧
      run.2.2.uptime ≤ w.uptime + wait.timeout ∧
      (horizon ≤ w.uptime + wait.interval → o 0 = .ok none →
        run.1 = .failed (.timeout wait.what (wait.timeout / 1000)) ∧ made run.2.1 = 1 ∧
        run.2.2.uptime = w.uptime)) ∧
    (horizon ≤ w.uptime + wait.timeout →
      (∀ n last, EndsAt o n last → n < wait.patience → CanCount wait.checked (n + 1) →
        run.1 = .ofExcept last ∧ made run.2.1 = n + 1) ∧
      ∀ failure, run.1 = .failed failure → ∃ n, EndsAt o n (.error failure)) := by
  intro run
  refine ⟨fun hw => ⟨?_, ?_, ?_⟩, fun hw => ⟨?_, ?_⟩⟩
  · intro n last h hn hc
    obtain ⟨w', htime, hnoted, hrun⟩ : ∃ w', _ ∧ _ ∧ run = _ := wait.poll_in_time ht hi hw h hn hc
    rw [hrun]
    exact ⟨rfl, hmade _, htime, hnoted⟩
  · intro hlate hc
    obtain ⟨w', htime, hrun⟩ : ∃ w', _ ∧ run = _ := wait.poll_too_late ht hi hw hlate hc
    rw [hrun]
    exact ⟨rfl, hmade _, htime⟩
  · obtain ⟨hends, htime⟩ := wait.poll_bounded ht hi hw
    refine ⟨hends, fun hout => ?_, htime, fun hnext ho => ?_⟩
    · obtain ⟨w', htime, hrun⟩ : ∃ w', _ ∧ run = _ := wait.poll_runsOut ht hi hw hout
      rw [hrun]
      exact ⟨hmade _, htime⟩
    · obtain ⟨w', htime, hrun⟩ : ∃ w', _ ∧ run = _ := wait.poll_once ht hi hw hnext ho
      rw [hrun]
      exact ⟨rfl, hmade _, htime⟩
  · intro n last h hn hc
    obtain ⟨w', hrun⟩ : ∃ w', run = _ := wait.poll_endless_ends hw ht h hn hc
    rw [hrun]
    exact ⟨rfl, hmade _⟩
  · intro failure hfailed
    exact wait.of_poll_endless_failed hw ht hfailed

end Wait

/-! ## Outcomes given in advance -/

/-- Tries as questions. -/
abbrev tape (α : Type) : Service where
  Query := Unit
  Answer _ := Option α

/-- The outcomes one after another; the state is the number of tries made. -/
def tapeHost {α : Type} (o : ℕ → Except Failure (Option α)) : Host (tape α) ℕ :=
  fun _ k => (o k, k + 1)

/-- Whatever the outcomes, there are tries that have them. -/
theorem tape_tries {α : Type} (o : ℕ → Except Failure (Option α)) :
    (@Flow.ask (tape α) ()).Tries (tapeHost o) o id := by
  intro k w
  refine ⟨w, .refl w, ?_⟩
  cases h : o k with
  | error e => simp [Flow.ask, Flow.run, Act.perform, tapeHost, h, Flow.ofExcept, Outcome.ofExcept]
  | ok a => simp [Flow.ask, Flow.run, Act.perform, tapeHost, h, Flow.ofExcept, Outcome.ofExcept]

namespace Wait

/-- Four tries in 100 seconds, one every 30 seconds, and two tries without a deadline. -/
theorem poll_exact_in_vain :
    let bounded := (poll ⟨"workflow run", 30000, 100000, 0, true⟩ (@Flow.ask (tape Unit) ())).run
      (tapeHost fun _ => .ok none) 0 {}
    let endless := (poll ⟨"run", 1000, horizon, 9, false⟩ (@Flow.ask (tape ℕ) ())).run
      (tapeHost fun k => .ok (if k = 0 then none else some k)) 0 {}
    (bounded.1 = .failed (.timeout "workflow run" 100) ∧ bounded.2.1 = 4 ∧
      bounded.2.2.uptime = 90000) ∧ endless.1 = .done 1 ∧ endless.2.1 = 2 := by
  have hlate := ((poll_exact ⟨"workflow run", 30000, 100000, 0, true⟩
    (tape_tries (α := Unit) fun _ => .ok none) id (fun _ => rfl) (by decide) {}).1 (by decide)).2.1
  have hendless := ((poll_exact ⟨"run", 1000, horizon, 9, false⟩
    (tape_tries fun k => .ok (if k = 0 then none else some k)) id (fun _ => rfl)
    (by decide) {}).2 (by decide)).1
  refine ⟨hlate (fun n last h => ?_) fun _ => by decide,
    hendless 1 (.ok 1) ⟨?_, rfl⟩ (by decide) nofun⟩
  · have hnone := h.2
    cases last <;> cases hnone
  · intro k hk
    obtain rfl : k = 0 := by omega
    rfl

end Wait

end ReleaseFlow
