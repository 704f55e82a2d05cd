import ReleaseFlow.Proofs.Forge.Asking

/-!
# Two memories but for one operation

* `Memory.reply_with`: what a question does with other logs and other failures;
* `Memory.run_fixed`: what no flow changes;
* `Memory.SameBut`: memories that differ by whether one operation fails, and by its logs if that
  operation fetches them;
* `Memory.SameBut.answer`: **every other question is answered in the same way and keeps the two
  memories so**.
-/

namespace ReleaseFlow.Memory

variable {repository : Repository} {q : Forge.Query} {m m' : Memory}

/-- A question uses no logs but to fetch them, and never looks at what fails. -/
theorem reply_with (logs : List (UInt64 × String)) (failing : List Forge.Operation)
    (h : q.operation = .logs → logs = m.logs) :
    reply repository q { m with logs, failing } =
      ((reply repository q m).1, { (reply repository q m).2 with logs, failing }) := by
  cases q with
  | getVariable name => simp only [reply]; split <;> rfl
  | commitSha ref => simp only [reply]; split <;> rfl
  | run id => simp only [reply]; split <;> rfl
  | logs id =>
    obtain rfl := h rfl
    simp only [reply]
    split <;> rfl
  | _ => rfl

theorem answer_logs_congr (hlogs : m'.logs = m.logs) (hfailing : m'.failing = m.failing)
    (id : UInt64) : (answer ⟨repository, .logs id⟩ m').1 = (answer ⟨repository, .logs id⟩ m).1 := by
  simp only [answer, reply, hlogs, hfailing]
  split
  · rfl
  · split <;> rfl

theorem run_fixed {α : Type} (f : Flow Forge.service α) (m : Memory) (w : World) :
    (f.run host m w).2.1.jobs = m.jobs ∧ (f.run host m w).2.1.logs = m.logs ∧
      (f.run host m w).2.1.failing = m.failing := by
  refine Flow.run_keeps (I := fun m' : Memory => m'.jobs = m.jobs ∧ m'.logs = m.logs ∧
    m'.failing = m.failing) (f.acts_any fun _ _ _ => trivial) (fun c m' _ h => ?_) ⟨rfl, rfl, rfl⟩
  obtain ⟨hjobs, hlogs, hfailing⟩ := (answer_change c m').fixed
  exact ⟨hjobs.trans h.1, hlogs.trans h.2.1, hfailing.trans h.2.2⟩

/-- The memories differ at most in whether an operation fails and, if it fetches logs, in these. -/
structure SameBut (op : Forge.Operation) (m m' : Memory) : Prop where
  rest : m' = { m with logs := m'.logs, failing := m'.failing }
  logs : op ≠ .logs → m'.logs = m.logs
  failing : ∀ other ≠ op, other ∈ m'.failing ↔ other ∈ m.failing

namespace SameBut

variable {op : Forge.Operation}

theorem failOn (op : Forge.Operation) (m : Memory) : SameBut op m (m.failOn op) :=
  ⟨rfl, fun _ => rfl, fun _ hne => List.mem_cons.trans (or_iff_right hne)⟩

/-- **Every other question is answered in the same way**, and the memories stay the same but for
the operation. -/
theorem answer (h : SameBut op m m') {c : Forge.Call} (hc : c.query.operation ≠ op) :
    (Memory.answer c m').1 = (Memory.answer c m).1 ∧
      SameBut op (Memory.answer c m).2 (Memory.answer c m').2 := by
  obtain ⟨repository, q⟩ := c
  have hfailing : q.operation ∈ m'.failing ↔ q.operation ∈ m.failing := h.failing _ hc
  by_cases hq : q.operation ∈ m.failing
  · rw [answer_of_failing hq, answer_of_failing (hfailing.2 hq)]
    exact ⟨rfl, h⟩
  · have hlogs : q.operation = .logs → m'.logs = m.logs := fun ho => h.logs (ho ▸ hc.symm)
    have hreply := @reply_with repository q m m'.logs m'.failing hlogs
    rw [← h.rest] at hreply
    rw [answer_of_not_failing hq, answer_of_not_failing fun hq' => hq (hfailing.1 hq'), hreply]
    refine ⟨rfl, rfl, fun hop => ?_, fun other hother => ?_⟩
    · rw [(reply_change repository q m).fixed.2.1]
      exact h.logs hop
    · rw [(reply_change repository q m).fixed.2.2]
      exact h.failing other hother

end SameBut

end ReleaseFlow.Memory
