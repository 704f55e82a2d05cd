import Mathlib.Data.Nat.Basic
import Mathlib.Tactic.SplitIfs
import ReleaseFlow.Proofs.Flow.Run
import ReleaseFlow.Wait

/-!
# Waits at fixed intervals

The tries of a wait are numbered from `0`. Try `k` finds the service in the state `s k` and has the
outcome `o k`, in no time. All instants can be represented.

* `Flow.Tries`: the tries of a wait, with their states and outcomes;
* `later?_of_lt`, `wakeUp_of_lt`, `isOver_iff`: the clock, as long as it can be represented;
* `Wait.CanCount`, `Wait.count?_ofNat`: the count of tries, as long as it fits;
* `poll_ends`: **a wait ends with the first try that is not in vain**, when it is not late;
* `poll_late`: **else it ends with a timeout, after the last interval that fits**;
* `poll_uncounted`: **a wait whose arithmetic is checked breaks off at a try that has no number**.
-/

namespace ReleaseFlow

/-- Try `k` of the attempt takes the service from `s k` to `s (k + 1)` and gives `o k`. -/
def Flow.Tries {S : Service} {σ α : Type} (host : Host S σ) (attempt : Flow S (Option α))
    (o : ℕ → Except Failure (Option α)) (s : ℕ → σ) : Prop :=
  ∀ k w, ∃ w', w.Quiet w' ∧ attempt.run host (s k) w = (.ofExcept (o k), s (k + 1), w')

/-! ## The clock -/

theorem later?_of_lt {instant span : ℕ} (h : instant + span < horizon) :
    later? instant span = some (instant + span) :=
  if_pos h

theorem wakeUp_of_lt {instant span : ℕ} (h : instant + span < horizon) :
    wakeUp instant span = instant + span := by
  rw [wakeUp, later?_of_lt h]
  rfl

namespace Wait

variable (wait : Wait) {deadline now : ℕ}

theorem isOver_iff (h : deadline < horizon) :
    wait.isOver deadline now = true ↔ deadline < now + wait.interval := by
  unfold isOver later?
  split_ifs with hl
  · simp
  · simp only [true_iff]
    omega

/-! ## The count -/

/-- So many tries can be counted: any number, unless the arithmetic is checked. -/
def CanCount (checked : Bool) (tries : ℕ) : Prop :=
  checked = true → tries < UInt32.size

theorem CanCount.mono {checked : Bool} {m n : ℕ} (h : CanCount checked n) (hmn : m ≤ n) :
    CanCount checked m :=
  fun hchecked => Nat.lt_of_le_of_lt hmn (h hchecked)

theorem canCount_one (checked : Bool) : CanCount checked 1 :=
  fun _ => by decide

theorem count?_ofNat {made : ℕ} (h : CanCount wait.checked (made + 1)) :
    wait.count? (UInt32.ofNat made) = some (UInt32.ofNat (made + 1)) := by
  have hfull : (wait.checked && UInt32.ofNat made == 4294967295) = false := by
    rw [Bool.and_eq_false_iff, beq_eq_false_iff_ne]
    by_cases hchecked : wait.checked = true
    · have hlt := h hchecked
      refine Or.inr fun heq => ?_
      have hnat := congrArg UInt32.toNat heq
      rw [UInt32.toNat_ofNat_of_lt' (Nat.lt_of_succ_lt hlt)] at hnat
      rw [hnat] at hlt
      exact absurd hlt (by decide)
    · exact Or.inl (Bool.eq_false_iff.2 hchecked)
  rw [count?, hfull, if_neg (by simp), UInt32.ofNat_add]
  rfl

theorem count?_full (h : wait.checked = true) :
    wait.count? (UInt32.ofNat (UInt32.size - 1)) = none := by
  rw [count?, h]
  rfl

/-! ## The tries -/

/-- A value is the last thing that was noted, with the number of its try. -/
def Noted {α : Type} (tries : UInt32) (last : Except Failure α) (w : World) : Prop :=
  ∀ a, last = .ok a → w.record.getLast? = some (.log .debug (wait.readyLine tries))

variable {S : Service} {σ α : Type} {host : Host S σ} {attempt : Flow S (Option α)}
  {o : ℕ → Except Failure (Option α)} {s : ℕ → σ} {w : World} {made tries : UInt32}

theorem loop_again (ht : attempt.Tries host o s) {k : ℕ} (ho : o k = .ok none)
    (hd : deadline < horizon) (hw : w.uptime + wait.interval ≤ deadline) (left : ℕ)
    (hc : wait.count? made = some tries) :
    ∃ w', World.Quiet { w with uptime := w.uptime + wait.interval } w' ∧
      (wait.loop (some deadline) attempt (left + 1) made).run host (s k) w =
        (wait.loop (some deadline) attempt left tries).run host (s (k + 1)) w' := by
  obtain ⟨w₁, hq, hr⟩ := ht k w
  rw [ho] at hr
  have hover : wait.isOver deadline w₁.uptime = false := by
    rw [← Bool.not_eq_true, wait.isOver_iff hd, hq.uptime]
    omega
  refine ⟨{ w₁ with uptime := w.uptime + wait.interval }, ?_, ?_⟩
  · obtain ⟨events, rfl⟩ := hq
    exact ⟨events, rfl⟩
  · rw [loop, hc]
    dsimp only
    rw [Flow.run_bind_of_done _ hr]
    dsimp only
    rw [Flow.run_uptime_bind, hover, if_neg (by simp), Flow.run_sleep_bind, hq.uptime,
      wakeUp_of_lt (by omega)]

/-- A try that is not in vain is the last one, with a deadline or without. A value is noted with the
number of the try. -/
theorem loop_ends (ht : attempt.Tries host o s) {k : ℕ} {last : Except Failure α}
    (ho : o k = last.map some) (until? : Option ℕ) (left : ℕ) (hc : wait.count? made = some tries) :
    ∃ w', w.Quiet w' ∧ wait.Noted tries last w' ∧
      (wait.loop until? attempt (left + 1) made).run host (s k) w =
        (.ofExcept last, s (k + 1), w') := by
  obtain ⟨w₁, hq, hr⟩ := ht k w
  rw [ho] at hr
  rw [loop, hc]
  cases last with
  | ok a =>
    exact ⟨_, hq.note _, fun _ _ => List.getLast?_concat, Flow.run_bind_of_done _ hr⟩
  | error e => exact ⟨w₁, hq, nofun, Flow.run_bind_of_failed _ hr⟩

/-- A try in vain after which there is no time for another one is the last one, too. -/
theorem loop_late (ht : attempt.Tries host o s) {k : ℕ} (ho : o k = .ok none)
    (hd : deadline < horizon) (hw : deadline < w.uptime + wait.interval) (left : ℕ)
    (hc : wait.count? made = some tries) :
    ∃ w', w.Quiet w' ∧ (wait.loop (some deadline) attempt (left + 1) made).run host (s k) w =
      (.failed (.timeout wait.what (wait.timeout / 1000)), s (k + 1), w') := by
  obtain ⟨w₁, hq, hr⟩ := ht k w
  rw [ho] at hr
  have hover : wait.isOver deadline w₁.uptime = true := by
    rw [wait.isOver_iff hd, hq.uptime]
    exact hw
  refine ⟨w₁, hq, ?_⟩
  rw [loop, hc]
  dsimp only
  rw [Flow.run_bind_of_done _ hr]
  dsimp only
  rw [Flow.run_uptime_bind, hover, if_pos rfl]
  rfl

theorem loop_uncounted (hc : wait.count? made = none) (until? : Option ℕ) (left : ℕ) (t : σ) :
    (wait.loop until? attempt (left + 1) made).run host t w = (.stalled, t, w) := by
  rw [loop, hc]
  rfl

theorem loop_vain (ht : attempt.Tries host o s) {n : ℕ} (hvain : ∀ k < n, o k = .ok none)
    (hd : deadline < horizon) (hw : w.uptime + n * wait.interval ≤ deadline)
    (hc : CanCount wait.checked n) (left : ℕ) :
    ∃ w', World.Quiet { w with uptime := w.uptime + n * wait.interval } w' ∧
      (wait.loop (some deadline) attempt (left + n) 0).run host (s 0) w =
        (wait.loop (some deadline) attempt left (UInt32.ofNat n)).run host (s n) w' := by
  induction n generalizing left with
  | zero => exact ⟨w, ⟨[], by simp⟩, rfl⟩
  | succ n ih =>
    rw [Nat.succ_mul] at hw
    obtain ⟨w₁, hq₁, hr₁⟩ := ih (fun k hk => hvain k (by omega)) (by omega)
      (hc.mono (Nat.le_succ n)) (left + 1)
    obtain ⟨w₂, hq₂, hr₂⟩ := loop_again wait ht (hvain n (by omega)) hd
      (w := w₁) (by rw [hq₁.uptime]; dsimp only; omega) left (wait.count?_ofNat hc)
    refine ⟨w₂, ?_, ?_⟩
    · obtain ⟨events, rfl⟩ := hq₁
      refine World.Quiet.trans ⟨events, ?_⟩ hq₂
      simp only [Nat.succ_mul, Nat.add_assoc]
    · rw [show left + (n + 1) = left + 1 + n by omega, hr₁, hr₂]

/-! ## Whole waits -/

theorem poll_eq (hi : 0 < wait.interval) (hw : w.uptime + wait.timeout < horizon) :
    (wait.poll attempt).run host (s 0) w =
      (wait.loop (some (w.uptime + wait.timeout)) attempt (wait.timeout / wait.interval + 1) 0).run
        host (s 0) w := by
  rw [poll, Flow.run_uptime_bind]
  simp only [later?_of_lt hw, limit, Option.isSome_some, Bool.true_and, decide_eq_true hi, if_true]

/-- A wait comes to every try that is in time, if those before it are in vain and can be counted. -/
theorem poll_vain (ht : attempt.Tries host o s) (hi : 0 < wait.interval)
    (hw : w.uptime + wait.timeout < horizon) {n : ℕ} (hvain : ∀ k < n, o k = .ok none)
    (hn : n * wait.interval ≤ wait.timeout) (hc : CanCount wait.checked n) :
    ∃ left w', World.Quiet { w with uptime := w.uptime + n * wait.interval } w' ∧
      (wait.poll attempt).run host (s 0) w =
        (wait.loop (some (w.uptime + wait.timeout)) attempt (left + 1) (UInt32.ofNat n)).run host
          (s n) w' := by
  have hle : n ≤ wait.timeout / wait.interval := (Nat.le_div_iff_mul_le hi).2 hn
  obtain ⟨left, hleft⟩ := Nat.exists_eq_add_of_le hle
  obtain ⟨w', hq, hr⟩ := loop_vain wait ht (w := w) hvain hw (Nat.add_le_add_left hn _) hc
    (left + 1)
  refine ⟨left, w', hq, ?_⟩
  rw [wait.poll_eq hi hw, hleft, show n + left + 1 = left + 1 + n by omega, hr]

/-- **A wait ends with the first try that is not in vain**, when it is not late. -/
theorem poll_ends (ht : attempt.Tries host o s) (hi : 0 < wait.interval)
    (hw : w.uptime + wait.timeout < horizon) {n : ℕ} (hvain : ∀ k < n, o k = .ok none)
    {last : Except Failure α} (ho : o n = last.map some)
    (hn : n * wait.interval ≤ wait.timeout) (hc : CanCount wait.checked (n + 1)) :
    ∃ w', World.Quiet { w with uptime := w.uptime + n * wait.interval } w' ∧
      wait.Noted (UInt32.ofNat (n + 1)) last w' ∧
      (wait.poll attempt).run host (s 0) w = (.ofExcept last, s (n + 1), w') := by
  obtain ⟨left, w₁, hq₁, hr₁⟩ := wait.poll_vain ht hi hw hvain hn (hc.mono (Nat.le_succ n))
  obtain ⟨w₂, hq₂, hnoted, hr₂⟩ := loop_ends wait ht ho (w := w₁) _ left (wait.count?_ofNat hc)
  exact ⟨w₂, hq₁.trans hq₂, hnoted, hr₁.trans hr₂⟩

/-- **Else a wait ends with a timeout**, after the last interval that fits. -/
theorem poll_late (ht : attempt.Tries host o s) (hi : 0 < wait.interval)
    (hw : w.uptime + wait.timeout < horizon)
    (hvain : ∀ k, k * wait.interval ≤ wait.timeout → o k = .ok none)
    (hc : CanCount wait.checked (wait.timeout / wait.interval + 1)) :
    ∃ w', World.Quiet
        { w with uptime := w.uptime + wait.timeout / wait.interval * wait.interval } w' ∧
      (wait.poll attempt).run host (s 0) w =
        (.failed (.timeout wait.what (wait.timeout / 1000)),
          s (wait.timeout / wait.interval + 1), w') := by
  have hn := Nat.div_mul_le_self wait.timeout wait.interval
  have hlt := Nat.lt_div_mul_add hi (a := wait.timeout)
  have hle : ∀ k < wait.timeout / wait.interval, k * wait.interval ≤ wait.timeout := fun k hk =>
    (Nat.le_div_iff_mul_le hi).1 (Nat.le_of_lt hk)
  -- all tries but the last one pass an interval; the last one has no time for another
  obtain ⟨left, w₁, hq₁, hr₁⟩ := wait.poll_vain ht hi hw (fun k hk => hvain k (hle k hk)) hn
    (hc.mono (Nat.le_succ _))
  obtain ⟨w₂, hq₂, hr₂⟩ := loop_late wait ht (hvain _ hn) hw (w := w₁)
    (by rw [hq₁.uptime]; dsimp only; omega) left (wait.count?_ofNat hc)
  exact ⟨w₂, hq₁.trans hq₂, hr₁.trans hr₂⟩

/-- **A wait whose arithmetic is checked breaks off at a try that has no number**, when it comes to
that. -/
theorem poll_uncounted (ht : attempt.Tries host o s) (hi : 0 < wait.interval)
    (hw : w.uptime + wait.timeout < horizon) (hchecked : wait.checked = true)
    (hvain : ∀ k < UInt32.size - 1, o k = .ok none)
    (hn : (UInt32.size - 1) * wait.interval ≤ wait.timeout) :
    ∃ w', World.Quiet { w with uptime := w.uptime + (UInt32.size - 1) * wait.interval } w' ∧
      (wait.poll attempt).run host (s 0) w = (.stalled, s (UInt32.size - 1), w') := by
  obtain ⟨left, w', hq, hr⟩ := wait.poll_vain ht hi hw hvain hn fun _ => by decide
  exact ⟨w', hq, hr.trans (loop_uncounted wait (wait.count?_full hchecked) _ left _)⟩

end Wait

end ReleaseFlow
