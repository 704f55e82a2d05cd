import ReleaseFlow.World

/-!
# Runs of composed flows

* `run_bind_of_done`, `run_bind_of_failed`: a run of two flows from a run of the first;
* `of_run_bind_done`: the run of the first flow from a run of two;
* `run_attempt_of_done`, `run_attempt_of_failed`: runs in which a failure is a value;
* `run_ask_bind_of_ok`, `run_log_bind`, …: runs that begin with a single step;
* `record_prefix_run`: what is on record stays on record;
* `World.Quiet`: a world that differs from another one by what was written;
* `Flow.Acts`, `Flow.Asks`: every step, or every question, that a flow can take has a property;
* `run_keeps`: **what every question of a flow keeps true of the service, a run keeps true**.
-/

namespace ReleaseFlow

/-- How a flow without steps ends. -/
def Outcome.ofExcept {α : Type} : Except Failure α → Outcome α
  | .ok a => .done a
  | .error e => .failed e

/-! ## Worlds that differ by their record -/

namespace World

/-- Only the record has grown: no file has changed and no time has passed. -/
def Quiet (w w' : World) : Prop :=
  ∃ events, w' = { w with record := w.record ++ events }

/-- The world with one more event on record, if there is one. -/
def noteIf (w : World) (c : Bool) (e : Event) : World :=
  if c then w.note e else w

namespace Quiet

variable {w w' w'' : World}

theorem refl (w : World) : w.Quiet w :=
  ⟨[], by simp⟩

theorem trans (h : w.Quiet w') (h' : w'.Quiet w'') : w.Quiet w'' := by
  obtain ⟨es, rfl⟩ := h
  obtain ⟨es', rfl⟩ := h'
  exact ⟨es ++ es', by simp⟩

theorem note (h : w.Quiet w') (e : Event) : w.Quiet (w'.note e) :=
  h.trans ⟨[e], rfl⟩

theorem noteIf (h : w.Quiet w') (c : Bool) (e : Event) : w.Quiet (w'.noteIf c e) := by
  cases c with
  | true => exact h.note e
  | false => exact h

theorem withFiles (h : w.Quiet w') (files : FileTree) :
    World.Quiet { w with files } { w' with files } := by
  obtain ⟨es, rfl⟩ := h
  exact ⟨es, rfl⟩

theorem files (h : w.Quiet w') : w'.files = w.files := by
  obtain ⟨es, rfl⟩ := h
  rfl

theorem uptime (h : w.Quiet w') : w'.uptime = w.uptime := by
  obtain ⟨es, rfl⟩ := h
  rfl

end Quiet

end World

/-- The question that a step asks. -/
def Act.question? {S : Service} : Act S → Option S.Query
  | ask q => some q
  | _ => none

theorem Act.silent {S : Service} {P : S.Query → Prop} {act : Act S} (h : act.question? = none) :
    ∀ q, act = .ask q → P q := by
  rintro q rfl
  cases h

/-! ## Runs -/

namespace Flow

variable {S : Service} {σ α β : Type} {host : Host S σ} {s s' : σ} {w w' : World}

theorem run_bind_of_done {m : Flow S α} {a : α} (f : α → Flow S β)
    (h : m.run host s w = (.done a, s', w')) :
    (m >>= f).run host s w = (f a).run host s' w' := by
  change (m.bind f).run host s w = _
  induction m generalizing s w with
  | done b => cases h; rfl
  | failed e => cases h
  | stalled => cases h
  | step act next ih => exact ih _ h

theorem run_bind_of_failed {m : Flow S α} {e : Failure} (f : α → Flow S β)
    (h : m.run host s w = (.failed e, s', w')) :
    (m >>= f).run host s w = (.failed e, s', w') := by
  change (m.bind f).run host s w = _
  induction m generalizing s w with
  | done b => cases h
  | failed e' => cases h; rfl
  | stalled => cases h
  | step act next ih => exact ih _ h

theorem run_bind_of_stalled {m : Flow S α} (f : α → Flow S β)
    (h : m.run host s w = (.stalled, s', w')) :
    (m >>= f).run host s w = (.stalled, s', w') := by
  change (m.bind f).run host s w = _
  induction m generalizing s w with
  | done b => cases h
  | failed e => cases h
  | stalled => cases h; rfl
  | step act next ih => exact ih _ h

theorem of_run_bind_done {m : Flow S α} {f : α → Flow S β} {b : β}
    (h : (m >>= f).run host s w = (.done b, s', w')) :
    ∃ a s₁ w₁, m.run host s w = (.done a, s₁, w₁) ∧
      (f a).run host s₁ w₁ = (.done b, s', w') := by
  change (m.bind f).run host s w = _ at h
  induction m generalizing s w with
  | done a => exact ⟨a, s, w, rfl, h⟩
  | failed e => cases h
  | stalled => cases h
  | step act next ih => exact ih _ h

theorem run_bind_pure (m : Flow S α) (f : α → β) (s : σ) (w : World) :
    ((m >>= fun a => pure (f a)).run host s w).2 = (m.run host s w).2 := by
  change ((m.bind fun a => done (f a)).run host s w).2 = _
  induction m generalizing s w with
  | done a => rfl
  | failed e => rfl
  | stalled => rfl
  | step act next ih => exact ih _ _ _

theorem run_attempt_of_done {m : Flow S α} {a : α} (h : m.run host s w = (.done a, s', w')) :
    m.attempt.run host s w = (.done (.ok a), s', w') := by
  induction m generalizing s w with
  | done b => cases h; rfl
  | failed e => cases h
  | stalled => cases h
  | step act next ih => exact ih _ h

theorem run_attempt_of_failed {m : Flow S α} {e : Failure}
    (h : m.run host s w = (.failed e, s', w')) :
    m.attempt.run host s w = (.done (.error e), s', w') := by
  induction m generalizing s w with
  | done b => cases h
  | failed e' => cases h; rfl
  | stalled => cases h
  | step act next ih => exact ih _ h

theorem run_attempt_of_ofExcept {m : Flow S α} {x : Except Failure α}
    (h : m.run host s w = (.ofExcept x, s', w')) : m.attempt.run host s w = (.done x, s', w') := by
  cases x with
  | ok a => exact run_attempt_of_done h
  | error e => exact run_attempt_of_failed h

theorem record_prefix_run (host : Host S σ) (m : Flow S α) (s : σ) (w : World) :
    w.record <+: (m.run host s w).2.2.record := by
  induction m generalizing s w with
  | done a => exact List.prefix_refl _
  | failed e => exact List.prefix_refl _
  | stalled => exact List.prefix_refl _
  | step act next ih =>
    have h : w.record <+: (act.perform host s w).2.2.record := by
      cases act with
      | print text => exact List.prefix_append _ _
      | warn text => exact List.prefix_append _ _
      | log level text => exact List.prefix_append _ _
      | appendFile path text =>
        simp only [Act.perform]
        split <;> exact List.prefix_refl _
      | _ => exact List.prefix_refl _
    exact h.trans (ih _ _ _)

/-! ### Runs that begin with a single step -/

variable (f : Unit → Flow S β)

@[simp] theorem run_log_bind (level : Level) (text : String) :
    (Flow.log level text >>= f).run host s w =
      (f ()).run host s (w.note (.log level text)) := rfl

@[simp] theorem run_uptime_bind (f : Nat → Flow S β) :
    (Flow.uptime >>= f).run host s w = (f w.uptime).run host s w := rfl

@[simp] theorem run_now_bind (f : Instant → Flow S β) :
    (Flow.now >>= f).run host s w = (f w.now).run host s w := rfl

@[simp] theorem run_sleep_bind (span : Nat) :
    (Flow.sleep span >>= f).run host s w =
      (f ()).run host s { w with uptime := wakeUp w.uptime span } := rfl

@[simp] theorem run_ofExcept_ok_bind (a : α) (f : α → Flow S β) :
    (Flow.ofExcept (.ok a) >>= f).run host s w = (f a).run host s w := rfl

@[simp] theorem run_ofExcept_error_bind (e : Failure) (f : α → Flow S β) :
    (Flow.ofExcept (.error e) >>= f).run host s w = (.failed e, s, w) := rfl

theorem run_ask_bind_of_ok {q : S.Query} {a : S.Answer q} (f : S.Answer q → Flow S β)
    (h : host q s = (.ok a, s')) : (Flow.ask q >>= f).run host s w = (f a).run host s' w :=
  run_bind_of_done f (by simp only [Flow.ask, Flow.run, Act.perform, h, Flow.ofExcept])

theorem run_ask_bind_of_error {q : S.Query} {e : Failure} (f : S.Answer q → Flow S β)
    (h : host q s = (.error e, s')) : (Flow.ask q >>= f).run host s w = (.failed e, s', w) :=
  run_bind_of_failed f (by simp only [Flow.ask, Flow.run, Act.perform, h, Flow.ofExcept])

theorem run_tryAsk_bind {q : S.Query} {reply : Except Failure (S.Answer q)}
    (f : Except Failure (S.Answer q) → Flow S β) (h : host q s = (reply, s')) :
    (Flow.tryAsk q >>= f).run host s w = (f reply).run host s' w :=
  run_bind_of_done f (by simp only [Flow.tryAsk, Flow.run, Act.perform, h])

/-! ## The steps and the questions of a flow -/

/-- Every step that the flow can take, whatever the replies, has the property. -/
def Acts (P : Act S → Prop) : Flow S α → Prop
  | done _ => True
  | failed _ => True
  | stalled => True
  | step act next => P act ∧ ∀ r, (next r).Acts P

section Acts

variable {P Q : Act S → Prop}

theorem Acts.bind {m : Flow S α} {f : α → Flow S β} (hm : m.Acts P) (hf : ∀ a, (f a).Acts P) :
    (m >>= f).Acts P := by
  change (m.bind f).Acts P
  induction m with
  | done a => exact hf a
  | failed e => exact trivial
  | stalled => exact trivial
  | step act next ih => exact ⟨hm.1, fun r => ih r (hm.2 r)⟩

theorem Acts.mono (hPQ : ∀ act, P act → Q act) {m : Flow S α} (hm : m.Acts P) : m.Acts Q := by
  induction m with
  | done a => exact trivial
  | failed e => exact trivial
  | stalled => exact trivial
  | step act next ih => exact ⟨hPQ act hm.1, fun r => ih r (hm.2 r)⟩

theorem acts_any (h : ∀ act, P act) (m : Flow S α) : m.Acts P := by
  induction m with
  | done a => exact trivial
  | failed e => exact trivial
  | stalled => exact trivial
  | step act next ih => exact ⟨h act, ih⟩

theorem acts_ofExcept (r : Except Failure α) : (ofExcept r : Flow S α).Acts P := by
  cases r <;> exact trivial

theorem acts_ask {q : S.Query} (h : P (.ask q)) : (ask q).Acts P :=
  ⟨h, acts_ofExcept⟩

theorem acts_tryAsk {q : S.Query} (h : P (.ask q)) : (tryAsk q).Acts P :=
  ⟨h, fun _ => trivial⟩

theorem acts_print {text : String} (h : P (.print text)) : (print text : Flow S Unit).Acts P :=
  ⟨h, fun _ => trivial⟩

theorem acts_warn {text : String} (h : P (.warn text)) : (warn text : Flow S Unit).Acts P :=
  ⟨h, fun _ => trivial⟩

theorem acts_log {level : Level} {text : String} (h : P (.log level text)) :
    (log level text : Flow S Unit).Acts P :=
  ⟨h, fun _ => trivial⟩

theorem acts_uptime (h : P .uptime) : (uptime : Flow S Nat).Acts P :=
  ⟨h, fun _ => trivial⟩

theorem acts_now (h : P .now) : (now : Flow S Instant).Acts P :=
  ⟨h, fun _ => trivial⟩

theorem acts_sleep {span : Nat} (h : P (.sleep span)) : (sleep span : Flow S Unit).Acts P :=
  ⟨h, fun _ => trivial⟩

theorem acts_appendFile {path text : String} (h : P (.appendFile path text)) :
    (appendFile path text : Flow S Unit).Acts P :=
  ⟨h, fun (r : Except FileFault Unit) => by cases r <;> exact trivial⟩

end Acts

/-- Every question that the flow can ask, whatever the replies, has the property. -/
abbrev Asks (P : S.Query → Prop) (m : Flow S α) : Prop :=
  m.Acts fun act => ∀ q, act = .ask q → P q

variable {P : S.Query → Prop}

theorem asks_ask {q : S.Query} (h : P q) : (ask q).Asks P :=
  acts_ask fun _ hq => by cases hq; exact h

theorem asks_tryAsk {q : S.Query} (h : P q) : (tryAsk q).Asks P :=
  acts_tryAsk fun _ hq => by cases hq; exact h

theorem Asks.mono {Q : S.Query → Prop} (hPQ : ∀ q, P q → Q q) {m : Flow S α} (hm : m.Asks P) :
    m.Asks Q :=
  Acts.mono (fun _ h q hq => hPQ q (h q hq)) hm

/-- **What every question of a flow keeps true of the service, a run of the flow keeps true.** -/
theorem run_keeps {I : σ → Prop} {m : Flow S α} (hm : m.Asks P)
    (hI : ∀ q s, P q → I s → I (host q s).2) (hs : I s) : I (m.run host s w).2.1 := by
  induction m generalizing s w with
  | done a => exact hs
  | failed e => exact hs
  | stalled => exact hs
  | step act next ih =>
    have h : I (act.perform host s w).2.1 := by
      cases act with
      | ask q => exact hI q s (hm.1 q rfl) hs
      | appendFile path text =>
        simp only [Act.perform]
        split <;> exact hs
      | _ => exact hs
    exact ih _ (hm.2 _) h

end Flow

end ReleaseFlow
