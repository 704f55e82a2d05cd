import ReleaseFlow.Proofs.Flow.Race

/-!
# The questions of a run

* `Flow.asked`: what a run of a flow asks, in order;
* `Flow.run_service`: **a run does to the service what its questions do**;
* `Flow.asked_bind_of_done`, `Flow.asked_bind_of_failed`, …: the questions of composed flows;
* `Flow.Asks.of_mem_asked`: what a run asks is among what the flow can ask.
-/

namespace ReleaseFlow.Flow

variable {S : Service} {σ α β : Type}

/-- The questions that a run of the flow asks, the first one first. -/
def asked (host : Host S σ) : Flow S α → σ → World → List S.Query
  | done _, _, _ => []
  | failed _, _, _ => []
  | stalled, _, _ => []
  | step act next, s, w =>
    let (reply, s', w') := act.perform host s w
    act.question?.toList ++ (next reply).asked host s' w'

theorem perform_service (host : Host S σ) (act : Act S) (s : σ) (w : World) :
    (act.perform host s w).2.1 = act.question?.toList.foldl (fun s q => (host q s).2) s := by
  cases act with
  | appendFile path text =>
    simp only [Act.perform]
    split <;> rfl
  | _ => rfl

/-- **A run does to the service what its questions do**, one after another. -/
theorem run_service (host : Host S σ) (m : Flow S α) (s : σ) (w : World) :
    (m.run host s w).2.1 = (m.asked host s w).foldl (fun s q => (host q s).2) s := by
  induction m generalizing s w with
  | done a => rfl
  | failed e => rfl
  | stalled => rfl
  | step act next ih =>
    unfold run asked
    rw [List.foldl_append, ← perform_service host act s w]
    exact ih _ _ _

/-! ## Composed flows -/

variable {host : Host S σ} {s s' : σ} {w w' : World}

theorem asked_bind_of_done {m : Flow S α} {a : α} (f : α → Flow S β)
    (h : m.run host s w = (.done a, s', w')) :
    (m >>= f).asked host s w = m.asked host s w ++ (f a).asked host s' w' := by
  change (m.bind f).asked host s w = _
  induction m generalizing s w with
  | done b => cases h; rfl
  | failed e => cases h
  | stalled => cases h
  | step act next ih =>
    change act.question?.toList ++ ((next _).bind f).asked host _ _ = _
    rw [ih _ h, ← List.append_assoc]
    rfl

theorem asked_bind_of_failed {m : Flow S α} {e : Failure} (f : α → Flow S β)
    (h : m.run host s w = (.failed e, s', w')) :
    (m >>= f).asked host s w = m.asked host s w := by
  change (m.bind f).asked host s w = _
  induction m generalizing s w with
  | done b => cases h
  | failed e' => rfl
  | stalled => cases h
  | step act next ih => exact congrArg (act.question?.toList ++ ·) (ih _ h)

theorem asked_bind_of_stalled {m : Flow S α} (f : α → Flow S β)
    (h : m.run host s w = (.stalled, s', w')) :
    (m >>= f).asked host s w = m.asked host s w := by
  change (m.bind f).asked host s w = _
  induction m generalizing s w with
  | done b => cases h
  | failed e => cases h
  | stalled => rfl
  | step act next ih => exact congrArg (act.question?.toList ++ ·) (ih _ h)

theorem asked_bind_pure (m : Flow S α) (f : α → β) (s : σ) (w : World) :
    (m >>= fun a => pure (f a)).asked host s w = m.asked host s w := by
  change (m.bind fun a => done (f a)).asked host s w = _
  induction m generalizing s w with
  | done a => rfl
  | failed e => rfl
  | stalled => rfl
  | step act next ih => exact congrArg (act.question?.toList ++ ·) (ih _ _ _)

theorem asked_log_bind (level : Level) (text : String) (f : Unit → Flow S β) (s : σ) (w : World) :
    (Flow.log level text >>= f).asked host s w =
      (f ()).asked host s (w.note (.log level text)) := rfl

theorem asked_ask (q : S.Query) (s : σ) (w : World) : (ask q).asked host s w = [q] := by
  change q :: (ofExcept (host q s).1).asked host _ _ = [q]
  cases (host q s).1 <;> rfl

theorem asked_ask_bind_of_ok {q : S.Query} {a : S.Answer q} (f : S.Answer q → Flow S β)
    (h : host q s = (.ok a, s')) :
    (ask q >>= f).asked host s w = q :: (f a).asked host s' w := by
  have hrun : (ask q).run host s w = (.done a, s', w) := by
    simp only [ask, run, Act.perform, h, ofExcept]
  rw [asked_bind_of_done f hrun, asked_ask]
  rfl

theorem asked_ask_bind_of_error {q : S.Query} {e : Failure} (f : S.Answer q → Flow S β)
    (h : host q s = (.error e, s')) : (ask q >>= f).asked host s w = [q] := by
  have hrun : (ask q).run host s w = (.failed e, s', w) := by
    simp only [ask, run, Act.perform, h, ofExcept]
  rw [asked_bind_of_failed f hrun, asked_ask]

theorem asked_tryAsk_bind {q : S.Query} {reply : Except Failure (S.Answer q)}
    (f : Except Failure (S.Answer q) → Flow S β) (h : host q s = (reply, s')) :
    (tryAsk q >>= f).asked host s w = q :: (f reply).asked host s' w := by
  have hrun : (tryAsk q).run host s w = (.done reply, s', w) := by
    simp only [tryAsk, run, Act.perform, h]
  rw [asked_bind_of_done f hrun]
  rfl

theorem Asks.of_mem_asked {P : S.Query → Prop} {m : Flow S α} (hm : m.Asks P) {q : S.Query}
    (hq : q ∈ m.asked host s w) : P q := by
  induction m generalizing s w with
  | done a => cases hq
  | failed e => cases hq
  | stalled => cases hq
  | step act next ih =>
    rcases List.mem_append.1 hq with h | h
    · refine hm.1 q ?_
      cases act with
      | ask q' => rw [List.mem_singleton.1 h]
      | _ => cases h
    · exact ih _ (hm.2 _) h

theorem Asks.asked_eq_nil {m : Flow S α} (hm : m.Asks fun _ => False) (s : σ) (w : World) :
    m.asked host s w = [] :=
  List.eq_nil_iff_forall_not_mem.2 fun _ => hm.of_mem_asked

end ReleaseFlow.Flow
