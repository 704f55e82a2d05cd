import ReleaseFlow.Proofs.Workflow.Questions
import ReleaseFlow.Proofs.Workflow.Regression

/-!
# The time of a regression run

A regression run first waits, then looks for the run that it started, and then for its end. All this
has one limit of time, counted from the start. Nothing but waiting takes time here, and all instants
can be represented. When the arithmetic is checked, a wait breaks off at a try that has no number.

* `Context.delay`, `Context.discovery`, `Context.polling`, `Context.limit`: settings, in seconds;
* `awaitStart_found`, `awaitStart_late`, `awaitCompletion_found`, `awaitCompletion_late`: each wait
  with the time that is left for it;
* `awaitStart_uncounted`, `awaitCompletion_uncounted`: waits that run out of numbers;
* `regression_budget`: **when and how a regression run ends**.
-/

namespace ReleaseFlow

namespace Context

variable (ctx : Context)

/-- The seconds before the first look for the run. -/
def delay : ℕ :=
  ctx.config.regression.initialDelay.toNat

/-- The seconds between two looks for the run. -/
def discovery : ℕ :=
  ctx.config.regression.discoveryInterval.toNat

/-- The seconds between two looks for the end of the run. -/
def polling : ℕ :=
  ctx.config.regression.pollInterval.toNat

/-- The seconds that a regression run may take. -/
def limit : ℕ :=
  ctx.config.regression.timeout.toNat

end Context

namespace Workflow

variable (ctx : Context) {m : Memory} {w : World}

/-! ## Waits in whole seconds -/

section Seconds

variable {S : Service} {σ α : Type} {host : Host S σ} {attempt : Flow S (Option α)}
  {o : ℕ → Except Failure (Option α)} {s : ℕ → σ} {wait : Wait} {i t : ℕ}

/-- The last try comes after `n` intervals of `i` seconds, with a limit of `t` seconds. -/
theorem poll_ends_seconds (ht : attempt.Tries host o s) (hwi : wait.interval = i * 1000)
    (hwt : wait.timeout = t * 1000) (hi : 0 < i) (hw : w.uptime + t * 1000 < horizon) {n : ℕ}
    (hvain : ∀ k < n, o k = .ok none) {last : Except Failure α} (ho : o n = last.map some)
    (hn : n * i ≤ t) (hc : Wait.CanCount wait.checked (n + 1)) :
    ∃ w', World.Quiet { w with uptime := w.uptime + n * i * 1000 } w' ∧
      (wait.poll attempt).run host (s 0) w = (.ofExcept last, s (n + 1), w') := by
  have hmul : n * wait.interval = n * i * 1000 := by rw [hwi, Nat.mul_assoc]
  obtain ⟨w', hq, -, hr⟩ :=
    wait.poll_ends ht (by omega) (w := w) (by omega) hvain ho (by omega) hc
  rw [hmul] at hq
  exact ⟨w', hq, hr⟩

theorem poll_late_seconds (ht : attempt.Tries host o s) (hwi : wait.interval = i * 1000)
    (hwt : wait.timeout = t * 1000) (hi : 0 < i) (hw : w.uptime + t * 1000 < horizon)
    (hvain : ∀ k, k * i ≤ t → o k = .ok none) (hc : Wait.CanCount wait.checked (t / i + 1)) :
    ∃ k w', (wait.poll attempt).run host (s 0) w = (.failed (.timeout wait.what t), s k, w') := by
  have hdiv : wait.timeout / wait.interval = t / i := by
    rw [hwi, hwt, Nat.mul_div_mul_right _ _ (by decide)]
  obtain ⟨w', -, hr⟩ := wait.poll_late ht (by omega) (w := w) (by omega)
    (fun k hk => by
      refine hvain k ?_
      rw [hwi, hwt, ← Nat.mul_assoc] at hk
      exact Nat.le_of_mul_le_mul_right hk (by decide))
    (by rwa [hdiv])
  rw [hwt, Nat.mul_div_cancel t (by decide)] at hr
  exact ⟨_, w', hr⟩

theorem poll_uncounted_seconds (ht : attempt.Tries host o s) (hwi : wait.interval = i * 1000)
    (hwt : wait.timeout = t * 1000) (hi : 0 < i) (hw : w.uptime + t * 1000 < horizon)
    (hchecked : wait.checked = true) (hvain : ∀ k < UInt32.size - 1, o k = .ok none)
    (hn : (UInt32.size - 1) * i ≤ t) :
    ∃ k w', (wait.poll attempt).run host (s 0) w = (.stalled, s k, w') := by
  obtain ⟨w', -, hr⟩ := wait.poll_uncounted ht (by omega) (w := w) (by omega) hchecked hvain
    (by rw [hwi, hwt, ← Nat.mul_assoc]; exact Nat.mul_le_mul_right _ hn)
  exact ⟨_, w', hr⟩

end Seconds

/-! ## Tries in vain -/

/-- As far as no listing is the first with a run, all tries to find one are in vain. -/
theorem tryStart_vain {P : ℕ → Prop} (hP : ∀ j k, j ≤ k → P k → P j)
    (h : ∀ n listing, Memory.IsFirst m.listings (· ≠ []) n listing → ¬ P n) : ∀ k, P k →
      Except.ok ((Memory.nth m.listings k).getD []).head? =
        (Except.ok none : Except Failure (Option WorkflowRun)) := by
  intro k hk
  cases hnth : Memory.nth m.listings k with
  | none => rfl
  | some listing =>
    by_cases hempty : listing = []
    · rw [hempty]
      rfl
    · obtain ⟨n, hnk, b, hb⟩ := Memory.exists_isFirst (· ≠ []) hnth hempty
      exact absurd (hP n k hnk hk) (h n b hb)

theorem tryCompletion_vain {P : ℕ → Prop} (hP : ∀ j k, j ≤ k → P k → P j) (id : UInt64)
    (hstates : m.states ≠ [])
    (h : ∀ n state, Memory.IsFirst m.states (·.isCompleted = true) n state → ¬ P n) :
    ∀ k, P k → completion id (Memory.nth m.states k) = .ok none := by
  intro k hk
  cases hnth : Memory.nth m.states k with
  | none => exact absurd ((Memory.nth_eq_none_iff m.states k).1 hnth) hstates
  | some state =>
    rw [completion, if_neg]
    intro hdone
    obtain ⟨n, hnk, b, hb⟩ := Memory.exists_isFirst (·.isCompleted = true) hnth hdone
    exact absurd (hP n k hnk hk) (h n b hb)

theorem mul_le_of_le {i t j k : ℕ} (hjk : j ≤ k) (hk : k * i ≤ t) : j * i ≤ t :=
  Nat.le_trans (Nat.mul_le_mul_right i hjk) hk

/-! ## The two waits -/

section Waits

variable {started e : ℕ}

theorem startWait_timeout (he : w.uptime = started + e * 1000) :
    (startWait ctx (w.uptime - started)).timeout = (ctx.limit - e) * 1000 := by
  rw [he, Nat.add_sub_cancel_left, Nat.sub_mul]
  rfl

theorem completionWait_timeout (he : w.uptime = started + e * 1000) :
    (completionWait ctx (w.uptime - started)).timeout = (ctx.limit - e) * 1000 := by
  rw [he, Nat.add_sub_cancel_left, Nat.sub_mul]
  rfl

section Start

variable (since : Instant) (h : Forge.Operation.runs ∉ m.failing) (hi : 0 < ctx.discovery)
  (he : w.uptime = started + e * 1000) (hw : w.uptime + (ctx.limit - e) * 1000 < horizon)

include h hi he hw

theorem awaitStart_found {n : ℕ} {run : WorkflowRun} {others : List WorkflowRun}
    (hfirst : Memory.IsFirst m.listings (· ≠ []) n (run :: others))
    (hn : n * ctx.discovery ≤ ctx.limit - e) (hc : Wait.CanCount ctx.checked (n + 1)) :
    ∃ w', World.Quiet { w with uptime := w.uptime + n * ctx.discovery * 1000 } w' ∧
      (awaitStart ctx started since).run Memory.host m w =
        (.done run, { m with listings := Memory.after m.listings (n + 1) }, w') := by
  have hlast : Except.ok ((Memory.nth m.listings n).getD []).head? =
      Except.map some (Except.ok run : Except Failure WorkflowRun) := by
    rw [hfirst.answer]
    rfl
  have hvain : ∀ k < n, Except.ok ((Memory.nth m.listings k).getD []).head? =
      (Except.ok none : Except Failure (Option WorkflowRun)) := by
    intro k hk
    cases hnth : Memory.nth m.listings k with
    | none => rfl
    | some listing =>
      rw [not_not.1 (hfirst.before k hk listing hnth)]
      rfl
  obtain ⟨w', hq, hr⟩ := poll_ends_seconds (tryStart_tries ctx m since h) rfl
    (startWait_timeout ctx he) hi hw hvain hlast hn hc
  rw [Memory.after_zero] at hr
  exact ⟨w', hq, hr⟩

theorem awaitStart_late (hlate : ∀ n listing,
      Memory.IsFirst m.listings (· ≠ []) n listing → ctx.limit - e < n * ctx.discovery)
    (hc : Wait.CanCount ctx.checked ((ctx.limit - e) / ctx.discovery + 1)) :
    ∃ k w', (awaitStart ctx started since).run Memory.host m w =
      (.failed (.timeout "workflow run to start" (ctx.limit - e)),
        { m with listings := Memory.after m.listings k }, w') := by
  obtain ⟨k, w', hr⟩ := poll_late_seconds (tryStart_tries ctx m since h) rfl
    (startWait_timeout ctx he) hi hw
    (tryStart_vain (fun _ _ => mul_le_of_le) fun n b hb => Nat.not_le.2 (hlate n b hb)) hc
  rw [Memory.after_zero] at hr
  exact ⟨k, w', hr⟩

theorem awaitStart_uncounted (hchecked : ctx.checked = true)
    (hlate : ∀ n listing, Memory.IsFirst m.listings (· ≠ []) n listing → UInt32.size - 1 ≤ n)
    (hn : (UInt32.size - 1) * ctx.discovery ≤ ctx.limit - e) :
    ∃ k w', (awaitStart ctx started since).run Memory.host m w =
      (.stalled, { m with listings := Memory.after m.listings k }, w') := by
  obtain ⟨k, w', hr⟩ := poll_uncounted_seconds (tryStart_tries ctx m since h) rfl
    (startWait_timeout ctx he) hi hw hchecked
    (tryStart_vain (fun _ _ => Nat.lt_of_le_of_lt) fun n b hb => Nat.not_lt.2 (hlate n b hb)) hn
  rw [Memory.after_zero] at hr
  exact ⟨k, w', hr⟩

end Start

section Completion

variable (id : UInt64) (h : Forge.Operation.run ∉ m.failing) (hi : 0 < ctx.polling)
  (he : w.uptime = started + e * 1000) (hw : w.uptime + (ctx.limit - e) * 1000 < horizon)

include h hi he hw

theorem awaitCompletion_found {n : ℕ} {run : WorkflowRun}
    (hfirst : Memory.IsFirst m.states (·.isCompleted = true) n run)
    (hn : n * ctx.polling ≤ ctx.limit - e) (hc : Wait.CanCount ctx.checked (n + 1)) :
    ∃ w', World.Quiet { w with uptime := w.uptime + n * ctx.polling * 1000 } w' ∧
      (awaitCompletion ctx started id).run Memory.host m w =
        (.done run, { m with states := Memory.after m.states (n + 1) }, w') := by
  have hlast : completion id (Memory.nth m.states n) =
      Except.map some (Except.ok run : Except Failure WorkflowRun) := by
    rw [hfirst.answer, completion, if_pos hfirst.holds]
    rfl
  have hvain : ∀ k < n, completion id (Memory.nth m.states k) = .ok none := by
    intro k hk
    cases hnth : Memory.nth m.states k with
    | none =>
      have hnone := hfirst.answer
      rw [(Memory.nth_eq_none_iff m.states k).1 hnth] at hnone
      cases hnone
    | some state => rw [completion, if_neg (hfirst.before k hk state hnth)]
  obtain ⟨w', hq, hr⟩ := poll_ends_seconds (tryCompletion_tries ctx m id h) rfl
    (completionWait_timeout ctx he) hi hw hvain hlast hn hc
  rw [Memory.after_zero] at hr
  exact ⟨w', hq, hr⟩

theorem awaitCompletion_late (hstates : m.states ≠ []) (hlate : ∀ n state,
      Memory.IsFirst m.states (·.isCompleted = true) n state → ctx.limit - e < n * ctx.polling)
    (hc : Wait.CanCount ctx.checked ((ctx.limit - e) / ctx.polling + 1)) :
    ∃ k w', (awaitCompletion ctx started id).run Memory.host m w =
      (.failed (.timeout "workflow run to complete" (ctx.limit - e)),
        { m with states := Memory.after m.states k }, w') := by
  obtain ⟨k, w', hr⟩ := poll_late_seconds (tryCompletion_tries ctx m id h) rfl
    (completionWait_timeout ctx he) hi hw
    (tryCompletion_vain (fun _ _ => mul_le_of_le) id hstates fun n b hb =>
      Nat.not_le.2 (hlate n b hb)) hc
  rw [Memory.after_zero] at hr
  exact ⟨k, w', hr⟩

theorem awaitCompletion_uncounted (hstates : m.states ≠ []) (hchecked : ctx.checked = true)
    (hlate : ∀ n state, Memory.IsFirst m.states (·.isCompleted = true) n state →
      UInt32.size - 1 ≤ n)
    (hn : (UInt32.size - 1) * ctx.polling ≤ ctx.limit - e) :
    ∃ k w', (awaitCompletion ctx started id).run Memory.host m w =
      (.stalled, { m with states := Memory.after m.states k }, w') := by
  obtain ⟨k, w', hr⟩ := poll_uncounted_seconds (tryCompletion_tries ctx m id h) rfl
    (completionWait_timeout ctx he) hi hw hchecked
    (tryCompletion_vain (fun _ _ => Nat.lt_of_le_of_lt) id hstates fun n b hb =>
      Nat.not_lt.2 (hlate n b hb)) hn
  rw [Memory.after_zero] at hr
  exact ⟨k, w', hr⟩

theorem awaitCompletion_unknown (hstates : m.states = []) :
    ∃ w', w.Quiet w' ∧ (awaitCompletion ctx started id).run Memory.host m w =
      (.failed (.api 404 ("Run " ++ Text.decimal id.toNat ++ " not found")), m, w') := by
  have hlast : completion id (Memory.nth m.states 0) = Except.map some
      (.error (.api 404 ("Run " ++ Text.decimal id.toNat ++ " not found"))) := by
    rw [(Memory.nth_eq_none_iff m.states 0).2 hstates]
    rfl
  obtain ⟨w', hq, hr⟩ := poll_ends_seconds (tryCompletion_tries ctx m id h) rfl
    (completionWait_timeout ctx he) hi hw (by simp) hlast (by simp) (Wait.canCount_one _)
  have hafter : Memory.after m.states 1 = m.states := by
    rw [hstates]
    rfl
  rw [Nat.zero_mul, Nat.zero_mul] at hq
  rw [Memory.after_zero, Nat.zero_add, hafter] at hr
  exact ⟨w', hq, hr⟩

end Completion

end Waits

/-! ## Whole runs -/

/-- The memory after a regression run was asked for. -/
def dispatched (environment : String) (m : Memory) : Memory :=
  m.mark (.dispatch ctx.regressionRepository ctx.config.regression.workflow
    ctx.config.regression.ref [("environment", environment)])

variable {ctx} (environment : String)

theorem regression_run (hdry : ctx.dryRun = false) (h : Forge.Operation.dispatch ∉ m.failing)
    (hw : w.uptime + ctx.delay * 1000 < horizon) :
    ∃ w', World.Quiet { w with uptime := w.uptime + ctx.delay * 1000 } w' ∧
      (regression ctx environment).run Memory.host m w =
        (followRun ctx environment w.uptime w.now).run Memory.host (dispatched ctx environment m)
          w' := by
  refine ⟨{ w.note (.print (Console.statusLine ctx.palette ("Triggering workflow: " ++
    ctx.config.regression.workflow ++ " on " ++ ctx.regressionRepository.text))) with
      uptime := w.uptime + ctx.delay * 1000 }, ⟨[_], rfl⟩, ?_⟩
  simp only [regression, hdry, Bool.false_eq_true, if_false]
  rw [Flow.run_uptime_bind, Flow.run_now_bind, Context.run_status_bind,
    Memory.run_query_of_ok _ h rfl, Flow.run_sleep_bind]
  have hwake : wakeUp w.uptime (millis ctx.config.regression.initialDelay) =
      w.uptime + ctx.delay * 1000 := wakeUp_of_lt hw
  rw [← hwake]
  rfl

theorem followRun_marks (started : ℕ) (since : Instant) :
    ((followRun ctx environment started since).run Memory.host m w).2.1.marks = m.marks := by
  refine Flow.run_keeps (I := fun m' : Memory => m'.marks = m.marks)
    (followRun_asks ctx environment started since) (fun c m' hc hm' => ?_) rfl
  have hmarking : c.query.operation ∉ Forge.Operation.marking := by
    simp only [Forge.Among, List.mem_cons, List.not_mem_nil, or_false] at hc
    rcases hc with hc | hc | hc | hc <;> rw [hc] <;> decide
  exact ((Memory.answer_change c m').silent hmarking).1.trans hm'

section Followed

variable {started e : ℕ} (hfailing : m.failing = []) (he : w.uptime = started + e * 1000)
  (hw : w.uptime + (ctx.limit - e) * 1000 < horizon)

include hfailing he hw

section Discovery

variable (since : Instant) (hi : 0 < ctx.discovery)

include hi

theorem followRun_late (hlate : ∀ n listing,
      Memory.IsFirst m.listings (· ≠ []) n listing → ctx.limit - e < n * ctx.discovery)
    (hc : Wait.CanCount ctx.checked ((ctx.limit - e) / ctx.discovery + 1)) :
    ((followRun ctx environment started since).run Memory.host m w).1 =
      .failed (.timeout "workflow run to start" (ctx.limit - e)) := by
  obtain ⟨k, w', hr⟩ := awaitStart_late ctx since (by simp [hfailing]) hi he hw hlate hc
  rw [followRun, Flow.run_bind_of_failed _ hr]

theorem followRun_uncounted (hchecked : ctx.checked = true)
    (hlate : ∀ n listing, Memory.IsFirst m.listings (· ≠ []) n listing → UInt32.size - 1 ≤ n)
    (hn : (UInt32.size - 1) * ctx.discovery ≤ ctx.limit - e) :
    ((followRun ctx environment started since).run Memory.host m w).1 = .stalled := by
  obtain ⟨k, w', hr⟩ :=
    awaitStart_uncounted ctx since (by simp [hfailing]) hi he hw hchecked hlate hn
  rw [followRun, Flow.run_bind_of_stalled _ hr]

theorem followRun_found {n : ℕ} {run : WorkflowRun} {others : List WorkflowRun}
    (hfirst : Memory.IsFirst m.listings (· ≠ []) n (run :: others))
    (hn : n * ctx.discovery ≤ ctx.limit - e) (hc : Wait.CanCount ctx.checked (n + 1)) :
    ∃ w', World.Quiet { w with uptime := w.uptime + n * ctx.discovery * 1000 } w' ∧
      (followRun ctx environment started since).run Memory.host m w =
        (finishRun ctx environment started run.id).run Memory.host
          { m with listings := Memory.after m.listings (n + 1) } w' := by
  obtain ⟨w', hq, hr⟩ := awaitStart_found ctx since (by simp [hfailing]) hi he hw hfirst hn hc
  refine ⟨_, hq.note (.log .info ("Triggered workflow run ID: " ++ Text.decimal run.id.toNat)), ?_⟩
  rw [followRun, Flow.run_bind_of_done _ hr, Flow.run_log_bind]

end Discovery

section Polling

variable {id : UInt64} (hi : 0 < ctx.polling)

include hi

theorem finishRun_unknown (hstates : m.states = []) :
    ((finishRun ctx environment started id).run Memory.host m w).1 =
        .failed (.api 404 ("Run " ++ Text.decimal id.toNat ++ " not found")) ∧
      ((finishRun ctx environment started id).run Memory.host m w).2.2.uptime =
        started + e * 1000 := by
  obtain ⟨w', hq, hr⟩ := awaitCompletion_unknown ctx id (by simp [hfailing]) hi he hw hstates
  rw [finishRun, Flow.run_bind_of_failed _ hr]
  exact ⟨rfl, hq.uptime.trans he⟩

theorem finishRun_late (hstates : m.states ≠ []) (hlate : ∀ n state,
      Memory.IsFirst m.states (·.isCompleted = true) n state → ctx.limit - e < n * ctx.polling)
    (hc : Wait.CanCount ctx.checked ((ctx.limit - e) / ctx.polling + 1)) :
    ((finishRun ctx environment started id).run Memory.host m w).1 =
      .failed (.timeout "workflow run to complete" (ctx.limit - e)) := by
  obtain ⟨k, w', hr⟩ := awaitCompletion_late ctx id (by simp [hfailing]) hi he hw hstates
    hlate hc
  rw [finishRun, Flow.run_bind_of_failed _ hr]

theorem finishRun_uncounted (hstates : m.states ≠ []) (hchecked : ctx.checked = true)
    (hlate : ∀ n state, Memory.IsFirst m.states (·.isCompleted = true) n state →
      UInt32.size - 1 ≤ n)
    (hn : (UInt32.size - 1) * ctx.polling ≤ ctx.limit - e) :
    ((finishRun ctx environment started id).run Memory.host m w).1 = .stalled := by
  obtain ⟨k, w', hr⟩ := awaitCompletion_uncounted ctx id (by simp [hfailing]) hi he hw hstates
    hchecked hlate hn
  rw [finishRun, Flow.run_bind_of_stalled _ hr]

/-- With a run that is completed in time, the workflow ends with its verdict, unless the runner
cannot be told. -/
theorem finishRun_found {n : ℕ} {completed : WorkflowRun}
    (hfirst : Memory.IsFirst m.states (·.isCompleted = true) n completed)
    (hn : n * ctx.polling ≤ ctx.limit - e) (hc : Wait.CanCount ctx.checked (n + 1))
    {result : RegressionResult}
    (hresult : runResult ctx (ctx.config.regression.jobNameFor environment) id completed m =
      result) :
    ((finishRun ctx environment started id).run Memory.host m w).2.2.uptime =
        started + (e + n * ctx.polling) * 1000 ∧
      ((finishRun ctx environment started id).run Memory.host m w).1 =
        match ctx.runner.writeAll w.files result.reports with
        | .ok _ => result.verdict
        | .error failure => .failed failure := by
  obtain ⟨w', hq, hr⟩ := awaitCompletion_found ctx id (by simp [hfailing]) hi he hw hfirst hn hc
  have hend := concludeRun_delivers ctx { m with states := Memory.after m.states (n + 1) } w'
    (ctx.config.regression.jobNameFor environment) id completed (by simp [hfailing])
  have hfiles : w'.files = w.files := hq.files
  have huptime : w'.uptime = w.uptime + n * ctx.polling * 1000 := hq.uptime
  rw [finishRun, Flow.run_bind_of_done _ hr, ← hresult]
  refine ⟨hend.rest_eq.2.trans ?_, ?_⟩
  · rw [huptime, he, Nat.add_assoc, ← Nat.add_mul]
  · rw [hend.outcome_eq, hfiles]
    rfl

end Polling

end Followed

/-- **A regression run keeps to its limit of time.** It asks for one run and leaves no other trace.
The run must be listed by the limit, counted from the start, and it must be completed by the limit,
too; each wait tries at its own interval and has the seconds that are left. A run that is completed
in time is reported and has its verdict, unless the runner cannot be told. When the arithmetic is
checked, all this holds as far as the tries of each wait can be counted, and a wait breaks off where
they cannot. -/
theorem regression_budget (hdry : ctx.dryRun = false) (m : Memory) (hfailing : m.failing = [])
    (hdiscovery : 0 < ctx.discovery) (hpolling : 0 < ctx.polling) (w : World)
    (hw : w.uptime + max ctx.delay ctx.limit * 1000 < horizon) :
    let run := (regression ctx environment).run Memory.host m w
    run.2.1.marks = m.marks ++ [.dispatch ctx.regressionRepository ctx.config.regression.workflow
      ctx.config.regression.ref [("environment", environment)]] ∧
    ((∀ n listing, Memory.IsFirst m.listings (· ≠ []) n listing →
        ctx.limit - ctx.delay < n * ctx.discovery) →
      Wait.CanCount ctx.checked ((ctx.limit - ctx.delay) / ctx.discovery + 1) →
      run.1 = .failed (.timeout "workflow run to start" (ctx.limit - ctx.delay))) ∧
    (ctx.checked = true → (UInt32.size - 1) * ctx.discovery ≤ ctx.limit - ctx.delay →
      (∀ n listing, Memory.IsFirst m.listings (· ≠ []) n listing → UInt32.size - 1 ≤ n) →
      run.1 = .stalled) ∧
    ∀ n₁ started others, Memory.IsFirst m.listings (· ≠ []) n₁ (started :: others) →
      n₁ * ctx.discovery ≤ ctx.limit - ctx.delay → Wait.CanCount ctx.checked (n₁ + 1) →
      let e := ctx.delay + n₁ * ctx.discovery
      (m.states = [] →
        run.1 = .failed (.api 404 ("Run " ++ Text.decimal started.id.toNat ++ " not found")) ∧
        run.2.2.uptime = w.uptime + e * 1000) ∧
      (m.states ≠ [] → (∀ n state, Memory.IsFirst m.states (·.isCompleted = true) n state →
          ctx.limit - e < n * ctx.polling) →
        Wait.CanCount ctx.checked ((ctx.limit - e) / ctx.polling + 1) →
        run.1 = .failed (.timeout "workflow run to complete" (ctx.limit - e))) ∧
      (m.states ≠ [] → ctx.checked = true → (UInt32.size - 1) * ctx.polling ≤ ctx.limit - e →
        (∀ n state, Memory.IsFirst m.states (·.isCompleted = true) n state →
          UInt32.size - 1 ≤ n) → run.1 = .stalled) ∧
      ∀ n₂ completed, Memory.IsFirst m.states (·.isCompleted = true) n₂ completed →
        n₂ * ctx.polling ≤ ctx.limit - e → Wait.CanCount ctx.checked (n₂ + 1) →
        let result := runResult ctx (ctx.config.regression.jobNameFor environment) started.id
          completed m
        run.2.2.uptime = w.uptime + (e + n₂ * ctx.polling) * 1000 ∧
        run.1 = match ctx.runner.writeAll w.files result.reports with
          | .ok _ => result.verdict
          | .error failure => .failed failure := by
  have hdelay : w.uptime + ctx.delay * 1000 < horizon :=
    Nat.lt_of_le_of_lt (Nat.add_le_add_left (Nat.mul_le_mul_right _ (Nat.le_max_left _ _)) _) hw
  obtain ⟨w₁, hq₁, hr₁⟩ := regression_run environment hdry (m := m) (by simp [hfailing]) hdelay
  rw [hr₁]
  intro run
  have hfailing₁ : (dispatched ctx environment m).failing = [] := hfailing
  have he₁ : w₁.uptime = w.uptime + ctx.delay * 1000 := hq₁.uptime
  have hw₁ : w₁.uptime + (ctx.limit - ctx.delay) * 1000 < horizon := by
    have hmax : ctx.delay + (ctx.limit - ctx.delay) = max ctx.delay ctx.limit := by omega
    rw [he₁, Nat.add_assoc, ← Nat.add_mul, hmax]
    exact hw
  refine ⟨?_, ?_, ?_, ?_⟩
  · exact (followRun_marks environment _ _).trans rfl
  · intro hlate hc
    exact followRun_late environment hfailing₁ he₁ hw₁ _ hdiscovery hlate hc
  · intro hchecked hn hlate
    exact followRun_uncounted environment hfailing₁ he₁ hw₁ _ hdiscovery hchecked hlate hn
  intro n₁ started others hfirst hn₁ hc₁ e
  obtain ⟨w₂, hq₂, hr₂⟩ := followRun_found environment hfailing₁ he₁ hw₁ w.now hdiscovery
    hfirst hn₁ hc₁
  have he₂ : w₂.uptime = w.uptime + e * 1000 := by
    rw [hq₂.uptime, he₁, Nat.add_assoc, ← Nat.add_mul]
  have hw₂ : w₂.uptime + (ctx.limit - e) * 1000 < horizon := by
    have hmax : e + (ctx.limit - e) = max ctx.delay ctx.limit := by omega
    rw [he₂, Nat.add_assoc, ← Nat.add_mul, hmax]
    exact hw
  have hfiles : w₂.files = w.files := hq₂.files.trans hq₁.files
  have hfailing₂ : ({ dispatched ctx environment m with
      listings := Memory.after m.listings (n₁ + 1) } : Memory).failing = [] := hfailing
  have hrun : run = _ := hr₂
  rw [hrun]
  refine ⟨finishRun_unknown environment hfailing₂ he₂ hw₂ hpolling,
    finishRun_late environment hfailing₂ he₂ hw₂ hpolling,
    fun hstates hchecked hn hlate => finishRun_uncounted environment hfailing₂ he₂ hw₂ hpolling
      hstates hchecked hlate hn, fun n₂ completed hcompleted hn₂ hc₂ => ?_⟩
  rw [← hfiles]
  exact finishRun_found environment hfailing₂ he₂ hw₂ hpolling hcompleted hn₂ hc₂ rfl

/-- A run that is listed at the second look and completed at the second look. -/
theorem regression_budget_kept :
    let ctx : Context := ⟨⟨"acme", "notify-api"⟩, {}, {}, false, .plain, 0, true⟩
    let listed : WorkflowRun := ⟨7, some "queued", none, ""⟩
    let completed : WorkflowRun := ⟨7, some "completed", some "success", "https://example.com/7"⟩
    let m : Memory := {
      listings := [[], [listed]]
      states := [listed, completed]
      jobs := [⟨1, "Test in qa", some "success"⟩] }
    ((regression ctx "qa").run Memory.host m {}).2.2.uptime = 36000 ∧
      ((regression ctx "qa").run Memory.host m {}).1 =
        .done (some ⟨7, "https://example.com/7", some "success", true⟩) := by
  intro ctx listed completed m
  have hlisted : Memory.IsFirst m.listings (· ≠ []) 1 [listed] := by
    refine ⟨rfl, by simp, fun k hk b hb => ?_⟩
    obtain rfl : k = 0 := by omega
    cases hb
    exact fun h => h rfl
  have hcompleted : Memory.IsFirst m.states (·.isCompleted = true) 1 completed := by
    refine ⟨rfl, by decide, fun k hk b hb => ?_⟩
    obtain rfl : k = 0 := by omega
    cases hb
    decide
  have hdry : ctx.dryRun = false := rfl
  obtain ⟨-, -, -, h⟩ := regression_budget "qa" hdry m rfl (by decide) (by decide) {} (by decide)
  obtain ⟨-, -, -, h⟩ := h 1 listed [] hlisted (by decide) fun _ => by decide
  obtain ⟨htime, hend⟩ := h 1 completed hcompleted (by decide) fun _ => by decide
  exact ⟨htime.trans (by decide), hend.trans (by decide)⟩

end Workflow

end ReleaseFlow
