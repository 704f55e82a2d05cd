import ReleaseFlow.Proofs.Forge.Asking
import ReleaseFlow.Proofs.Runner.Reports

/-!
# Requests in order, then reports

A workflow that changes something makes its requests one after another, and after all of them it
tells its reports; whatever fails first ends it.

* `Memory.accepted`: the requests up to the first that fails;
* `Delivers`: a run that makes given requests and tells given reports in this way;
* `Delivers.ask`, `Delivers.tell`: such runs are built one request at a time, from the end;
* `Delivers.memory`, `Delivers.done_iff`, …: **what such a run leaves, and when it succeeds**.
-/

namespace ReleaseFlow

namespace Memory

/-- Of requests made one after another, those before the first that fails. -/
def accepted (m : Memory) (requests : List Forge.Mark) : List Forge.Mark :=
  requests.takeWhile fun x => !m.failing.contains x.operation

def markAll (m : Memory) (xs : List Forge.Mark) : Memory :=
  { m with marks := m.marks ++ xs }

variable {m : Memory} {x : Forge.Mark} {xs : List Forge.Mark}

theorem markAll_nil (m : Memory) : m.markAll [] = m := by
  simp [markAll]

theorem markAll_append (m : Memory) (xs ys : List Forge.Mark) :
    (m.markAll xs).markAll ys = m.markAll (xs ++ ys) := by
  simp [markAll]

theorem markAll_mark (m : Memory) (x : Forge.Mark) (xs : List Forge.Mark) :
    (m.mark x).markAll xs = m.markAll (x :: xs) := by
  simp [markAll, mark]

theorem accepted_prefix (m : Memory) (xs : List Forge.Mark) : m.accepted xs <+: xs :=
  List.takeWhile_prefix _

theorem accepted_cons_of_failing (h : x.operation ∈ m.failing) : m.accepted (x :: xs) = [] := by
  simp [accepted, h]

theorem accepted_cons (h : x.operation ∉ m.failing) :
    m.accepted (x :: xs) = x :: m.accepted xs := by
  simp [accepted, h]

theorem accepted_of_all (h : ∀ x ∈ xs, x.operation ∉ m.failing) : m.accepted xs = xs := by
  induction xs with
  | nil => rfl
  | cons x xs ih =>
    rw [accepted_cons (h x (by simp)), ih fun y hy => h y (List.mem_cons_of_mem x hy)]

theorem accepted_of_failing_nil (h : m.failing = []) : m.accepted xs = xs :=
  accepted_of_all fun x _ => by simp [h]

end Memory

namespace Workflow

variable {α β : Type}

/-- The run makes the requests in order; after all of them the memory is `after`, and it tells the
reports in order and has the outcome. It ends early with the first request or report that fails. -/
def Delivers (r : Runner) (m : Memory) (w : World) (requests : List Forge.Mark) (after : Memory)
    (reports : List Report) (outcome : Outcome α) (run : Outcome α × Memory × World) : Prop :=
  (m.accepted requests ≠ requests ∧ ∃ e w', w.Quiet w' ∧
    run = (.failed e, m.markAll (m.accepted requests), w')) ∨
  (m.accepted requests = requests ∧ ∃ told files w', told <+: reports ∧
    r.writeAll w.files told = .ok files ∧ World.Quiet { w with files } w' ∧
    (told = reports ∧ run = (outcome, after, w') ∨
      ∃ x e, told ++ [x] <+: reports ∧ r.write files x = .error e ∧ run = (.failed e, after, w')))

namespace Delivers

variable {r : Runner} {m m' after : Memory} {w w' : World} {requests : List Forge.Mark}
  {reports : List Report} {outcome : Outcome α} {result : α} {run : Outcome α × Memory × World}

/-! ## Runs that deliver -/

theorem of_quiet (hq : w.Quiet w') (h : Delivers r m w' requests after reports outcome run) :
    Delivers r m w requests after reports outcome run := by
  rcases h with ⟨hacc, e, w₁, hq₁, hr⟩ | ⟨hacc, told, files, w₁, hpre, hall, hq₁, hend⟩
  · exact Or.inl ⟨hacc, e, w₁, hq.trans hq₁, hr⟩
  · rw [hq.files] at hall
    exact Or.inr ⟨hacc, told, files, w₁, hpre, hall, (hq.withFiles files).trans hq₁, hend⟩

theorem print {text : String} {f : Unit → Flow Forge.service α}
    (h : ∀ w, Delivers r m w requests after reports outcome ((f ()).run Memory.host m w)) :
    Delivers r m w requests after reports outcome
      ((Flow.print text >>= f).run Memory.host m w) :=
  of_quiet ((World.Quiet.refl w).note _) (h _)

theorem log {level : Level} {text : String} {f : Unit → Flow Forge.service α}
    (h : ∀ w, Delivers r m w requests after reports outcome ((f ()).run Memory.host m w)) :
    Delivers r m w requests after reports outcome
      ((Flow.log level text >>= f).run Memory.host m w) :=
  of_quiet ((World.Quiet.refl w).note _) (h _)

/-- A request before a run that delivers. After it the memory is `m'`, in which the requests to come
leave the traces that they leave after this one. -/
theorem ask {repository : Repository} {q : Forge.Query} {a : q.Answer} {x : Forge.Mark}
    {f : q.Answer → Flow Forge.service α}
    (h : Delivers r m' w requests after reports outcome ((f a).run Memory.host m' w))
    (hx : x.operation = q.operation) (ha : Memory.reply repository q m = (.ok a, m'))
    (hm : ∀ ys, ys <+: requests → ys ≠ requests → m'.markAll ys = m.markAll (x :: ys)) :
    Delivers r m w (x :: requests) after reports outcome
      ((Forge.query repository q >>= f).run Memory.host m w) := by
  have hf := (Memory.reply_change repository q m).fixed.2.2
  rw [ha] at hf
  have hacc : m'.accepted requests = m.accepted requests := by
    rw [Memory.accepted, Memory.accepted, hf]
  -- whether an operation fails is the same before and after the request
  by_cases hq : q.operation ∈ m.failing
  · have hnil : m.accepted (x :: requests) = [] := Memory.accepted_cons_of_failing (hx ▸ hq)
    rw [Memory.run_query_of_failing _ hq]
    rw [Delivers, hnil, Memory.markAll_nil]
    exact Or.inl ⟨(List.cons_ne_nil _ _).symm, _, w, .refl w, rfl⟩
  have hcons : m.accepted (x :: requests) = x :: m.accepted requests :=
    Memory.accepted_cons (hx ▸ hq)
  rw [Memory.run_query_of_ok _ hq ha]
  rw [Delivers, hacc] at h
  rw [Delivers, hcons]
  rcases h with ⟨hne, e, w₁, hq₁, hr⟩ | ⟨heq, hend⟩
  · refine Or.inl ⟨fun hc => hne (List.cons.inj hc).2, e, w₁, hq₁, ?_⟩
    rw [hr, hm _ (Memory.accepted_prefix m requests) hne]
  · exact Or.inr ⟨by rw [heq], hend⟩

theorem ask_mark {repository : Repository} {q : Forge.Query} {a : q.Answer} {x : Forge.Mark}
    (hx : x.operation = q.operation) (ha : Memory.reply repository q m = (.ok a, m.mark x))
    {f : q.Answer → Flow Forge.service α}
    (h : Delivers r (m.mark x) w requests after reports outcome
      ((f a).run Memory.host (m.mark x) w)) :
    Delivers r m w (x :: requests) after reports outcome
      ((Forge.query repository q >>= f).run Memory.host m w) :=
  h.ask hx ha fun ys _ _ => m.markAll_mark x ys

theorem ask_last {repository : Repository} {q : Forge.Query} {a : q.Answer} {x : Forge.Mark}
    (hx : x.operation = q.operation) (ha : Memory.reply repository q m = (.ok a, m'))
    {f : q.Answer → Flow Forge.service α}
    (h : Delivers r m' w [] after reports outcome ((f a).run Memory.host m' w)) :
    Delivers r m w [x] after reports outcome
      ((Forge.query repository q >>= f).run Memory.host m w) :=
  h.ask hx ha fun _ hys hne => absurd (List.prefix_nil.1 hys) hne

theorem done : Delivers r m w [] m [] outcome (outcome, m, w) :=
  Or.inr ⟨rfl, [], w.files, w, List.prefix_rfl, rfl, .refl w, Or.inl ⟨rfl, rfl⟩⟩

theorem tell {f : Unit → Flow Forge.service α}
    (hf : ∀ w, ∃ w', w.Quiet w' ∧ (f ()).run Memory.host m w = (outcome, m, w')) :
    Delivers r m w [] m reports outcome ((r.tellAll reports >>= f).run Memory.host m w) := by
  obtain ⟨told, files, w₁, hpre, hall, hq, hend⟩ := r.run_tellAll Memory.host m w reports
  rcases hend with ⟨htold, hr⟩ | ⟨x, e, hx, hxe, hr⟩
  · obtain ⟨w₂, hq₂, hr₂⟩ := hf w₁
    refine Or.inr ⟨rfl, told, files, w₂, hpre, hall, hq.trans hq₂, Or.inl ⟨htold, ?_⟩⟩
    rw [Flow.run_bind_of_done _ hr, hr₂]
  · exact Or.inr ⟨rfl, told, files, w₁, hpre, hall, hq, Or.inr ⟨x, e, hx, hxe,
      Flow.run_bind_of_failed _ hr⟩⟩

/-! ## What such a run leaves behind -/

theorem memory (h : Delivers r m w requests after reports outcome run) :
    run.2.1 = if m.accepted requests = requests then after
      else m.markAll (m.accepted requests) := by
  rcases h with ⟨hne, e, w', -, rfl⟩ | ⟨heq, _, _, w', -, -, -, hend⟩
  · rw [if_neg hne]
  · rw [if_pos heq]
    rcases hend with ⟨-, rfl⟩ | ⟨x, e, -, -, rfl⟩ <;> rfl

theorem told (h : Delivers r m w requests after reports outcome run) :
    ∃ told, told <+: reports ∧ r.writeAll w.files told = .ok run.2.2.files ∧
      (told ≠ [] → m.accepted requests = requests) := by
  rcases h with ⟨hne, e, w', hq, rfl⟩ | ⟨heq, told, files, w', hpre, hall, hq, hend⟩
  · refine ⟨[], List.nil_prefix, ?_, by simp⟩
    change _ = Except.ok w'.files
    rw [hq.files]
    rfl
  · refine ⟨told, hpre, ?_, fun _ => heq⟩
    have hfiles : run.2.2 = w' := by
      rcases hend with ⟨-, rfl⟩ | ⟨x, e, -, -, rfl⟩ <;> rfl
    rw [hfiles, hq.files, hall]

theorem of_accepted (h : Delivers r m w requests after reports outcome run)
    (hacc : m.accepted requests = requests) : Delivers r after w [] after reports outcome run := by
  rcases h with ⟨hne, -⟩ | ⟨-, hend⟩
  · exact absurd hacc hne
  · exact Or.inr ⟨rfl, hend⟩

/-- When no requests are left, the reports decide how the run ends: if one of them cannot be told,
with its failure. -/
theorem outcome_eq (h : Delivers r m w [] after reports outcome run) :
    run.1 = match r.writeAll w.files reports with
      | .ok _ => outcome
      | .error e => .failed e := by
  rcases h with ⟨hne, -⟩ | ⟨-, told, files, w', -, hall, -, ⟨rfl, rfl⟩ | ⟨x, e, hx, hxe, rfl⟩⟩
  · exact absurd rfl hne
  · rw [hall]
  · rw [r.writeAll_of_prefix hx hall hxe]

theorem files_eq (h : Delivers r m w [] after reports outcome run) {files : FileTree}
    (hall : r.writeAll w.files reports = .ok files) : run.2.2.files = files := by
  rcases h with ⟨hne, -⟩ | ⟨-, told, _, w', -, htold, hq, ⟨rfl, rfl⟩ | ⟨x, e, hx, hxe, rfl⟩⟩
  · exact absurd rfl hne
  · rw [htold] at hall
    cases hall
    exact hq.files
  · rw [r.writeAll_of_prefix hx htold hxe] at hall
    cases hall

theorem rest_eq (h : Delivers r m w [] after reports outcome run) :
    run.2.1 = after ∧ run.2.2.uptime = w.uptime := by
  rcases h with ⟨hne, -⟩ | ⟨-, _, _, w', -, -, hq, ⟨-, rfl⟩ | ⟨x, e, -, -, rfl⟩⟩
  · exact absurd rfl hne
  · exact ⟨rfl, hq.uptime⟩
  · exact ⟨rfl, hq.uptime⟩

/-- The run gives its result exactly when no request fails and all reports can be told. -/
theorem done_iff (h : Delivers r m w requests after reports (.done result) run) :
    run.1 = .done result ↔ m.accepted requests = requests ∧
      ∃ files, r.writeAll w.files reports = .ok files := by
  rcases h with ⟨hne, e, w', -, rfl⟩ | ⟨heq, told, files, w', -, hall, -, hend⟩
  · exact ⟨fun h => (by cases h), fun h => absurd h.1 hne⟩
  · rcases hend with ⟨rfl, rfl⟩ | ⟨x, e, hx, hxe, rfl⟩
    · exact ⟨fun _ => ⟨heq, files, hall⟩, fun _ => rfl⟩
    · refine ⟨fun h => (by cases h), fun ⟨_, files', hok⟩ => ?_⟩
      rw [r.writeAll_of_prefix hx hall hxe] at hok
      cases hok

theorem of_done {a : α} (h : Delivers r m w requests after reports outcome (.done a, m', w')) :
    outcome = .done a ∧ m' = after ∧ r.writeAll w.files reports = .ok w'.files := by
  rcases h with ⟨-, e, w₁, -, hr⟩ | ⟨-, told, files, w₁, -, hall, hq, ⟨rfl, hr⟩ | ⟨x, e, -, -, hr⟩⟩
  · cases hr
  · cases hr
    exact ⟨rfl, rfl, by rw [hall, hq.files]⟩
  · cases hr

theorem done_eq {a : α} (h : Delivers r m w requests after reports outcome run)
    (ha : run.1 = .done a) : outcome = .done a := by
  obtain ⟨o, m', w'⟩ := run
  obtain rfl : o = .done a := ha
  exact h.of_done.1

theorem failed_of_ne (h : Delivers r m w requests after reports (.done result) run)
    (hne : run.1 ≠ .done result) : ∃ e, run.1 = .failed e := by
  rcases h with ⟨-, e, w', -, rfl⟩ | ⟨-, _, _, w', -, -, -, ⟨-, rfl⟩ | ⟨x, e, -, -, rfl⟩⟩
  · exact ⟨e, rfl⟩
  · exact absurd rfl hne
  · exact ⟨e, rfl⟩

end Delivers

end Workflow

end ReleaseFlow
