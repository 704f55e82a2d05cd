import ReleaseFlow.Proofs.Flow.Run
import ReleaseFlow.Runner

/-!
# What the runner is told

Outputs and summary blocks as values, and what becomes of the files when the runner is told some of
them in order.

* `Report`: an output or a block of the summary;
* `Runner.write`, `Runner.writeAll`: the files after one report, and after several;
* `Runner.setOutput_acts`, `Runner.appendSummary_acts`: the steps of telling;
* `run_tell`: a run that tells one report;
* `run_tellAll`: **a run that tells several reports ends with the first that cannot be written**;
  `run_tellAll_pure`: such a run with a result.
-/

namespace ReleaseFlow

/-- What a job tells its runner. -/
inductive Report where
  | output (name value : String)
  | summary (markdown : String)
  deriving DecidableEq, Repr

namespace Runner

/-- The files with a text appended to one of them. -/
def appendTo (files : FileTree) (path text : String) : Except Failure FileTree :=
  match files.append path text with
  | .ok files' => .ok files'
  | .error fault => .error (.io fault.message)

/-- The files after a report. Where the runner has no file for it nothing changes. -/
def write (r : Runner) (files : FileTree) : Report → Except Failure FileTree
  | .output name value =>
    match r.outputFile with
    | none => .ok files
    | some path =>
      match outputEntry name value with
      | .ok entry => appendTo files path entry
      | .error e => .error e
  | .summary markdown =>
    match r.summaryFile with
    | none => .ok files
    | some path => appendTo files path markdown

/-- The files after several reports, all of which could be written. -/
def writeAll (r : Runner) (files : FileTree) (reports : List Report) : Except Failure FileTree :=
  reports.foldlM r.write files

theorem writeAll_cons_of_ok (r : Runner) {files files' : FileTree} {x : Report}
    (xs : List Report) (h : r.write files x = .ok files') :
    r.writeAll files (x :: xs) = r.writeAll files' xs := by
  rw [writeAll, List.foldlM_cons, h]
  rfl

theorem of_writeAll_cons (r : Runner) {files files' : FileTree} {x : Report} {xs : List Report}
    (h : r.writeAll files (x :: xs) = .ok files') :
    ∃ between, r.write files x = .ok between ∧ r.writeAll between xs = .ok files' := by
  cases hx : r.write files x with
  | error e =>
    rw [writeAll, List.foldlM_cons, hx] at h
    cases h
  | ok between =>
    rw [writeAll_cons_of_ok r xs hx] at h
    exact ⟨between, rfl, h⟩

theorem writeAll_concat (r : Runner) (files : FileTree) (xs : List Report) (x : Report) :
    r.writeAll files (xs ++ [x]) = (r.writeAll files xs).bind fun between => r.write between x := by
  rw [writeAll, List.foldlM_append]
  cases hxs : List.foldlM r.write files xs with
  | error e =>
    rw [writeAll, hxs]
    rfl
  | ok between =>
    rw [writeAll, hxs]
    change List.foldlM r.write between [x] = r.write between x
    rw [List.foldlM_cons]
    cases r.write between x <;> rfl

theorem appendTo_eq_ok_iff {files files' : FileTree} {path text : String} :
    appendTo files path text = .ok files' ↔ files.append path text = .ok files' := by
  rw [appendTo]
  cases files.append path text with
  | ok files₁ => simp
  | error fault => simp

theorem writeAll_of_prefix (r : Runner) {files files' : FileTree} {told reports : List Report}
    {x : Report} {e : Failure} (hp : told ++ [x] <+: reports)
    (hall : r.writeAll files told = .ok files') (hx : r.write files' x = .error e) :
    r.writeAll files reports = .error e := by
  obtain ⟨rest, rfl⟩ := hp
  rw [writeAll] at hall
  rw [writeAll, List.append_assoc, List.foldlM_append, hall, List.singleton_append]
  change List.foldlM r.write files' (x :: rest) = _
  rw [List.foldlM_cons, hx]
  rfl

variable {S : Service} {σ : Type} (host : Host S σ) (r : Runner) (s : σ) (w : World)

/-- The flow that tells a report. -/
def tell : Report → Flow S Unit
  | .output name value => r.setOutput name value
  | .summary markdown => r.appendSummary markdown

/-- The flow that tells reports in order. -/
def tellAll : List Report → Flow S Unit
  | [] => pure ()
  | x :: xs => do
    r.tell x
    tellAll xs

/-! ## The steps of telling -/

section Steps

variable {P : Act S → Prop} (hlog : ∀ level text, P (.log level text))

include hlog

theorem setOutput_acts {name value : String} (happend : ∀ path entry, r.outputFile = some path →
      outputEntry name value = .ok entry → P (.appendFile path entry)) :
    (r.setOutput name value).Acts P := by
  unfold setOutput
  cases hpath : r.outputFile with
  | none => exact Flow.acts_log (hlog _ _)
  | some path =>
    cases hentry : outputEntry name value with
    | error e => exact trivial
    | ok entry => exact Flow.acts_appendFile (happend path entry hpath hentry)

theorem appendSummary_acts {markdown : String}
    (happend : ∀ path, r.summaryFile = some path → P (.appendFile path markdown)) :
    (r.appendSummary markdown).Acts P := by
  unfold appendSummary
  cases hpath : r.summaryFile with
  | none => exact Flow.acts_log (hlog _ _)
  | some path => exact Flow.acts_appendFile (happend path hpath)

end Steps

/-! ## Files of a single step -/

theorem run_appendFile_of_ok {path text : String} {files : FileTree}
    (h : appendTo w.files path text = .ok files) :
    (Flow.appendFile path text).run host s w = (.done (), s, { w with files }) := by
  unfold appendTo at h
  split at h
  · next hf =>
    cases h
    simp only [Flow.appendFile, Flow.run, Act.perform, hf, Flow.ofFile]
  · cases h

theorem run_appendFile_of_error {path text : String} {e : Failure}
    (h : appendTo w.files path text = .error e) :
    (Flow.appendFile path text).run host s w = (.failed e, s, w) := by
  unfold appendTo at h
  split at h
  · cases h
  · next hf =>
    cases h
    simp only [Flow.appendFile, Flow.run, Act.perform, hf, Flow.ofFile]

/-! ## Telling -/

theorem run_tell (x : Report) :
    (∃ files w', r.write w.files x = .ok files ∧ World.Quiet { w with files } w' ∧
      (r.tell x).run host s w = (.done (), s, w')) ∨
    ∃ e, r.write w.files x = .error e ∧ (r.tell x).run host s w = (.failed e, s, w) := by
  have append : ∀ path text,
      (∃ files w', appendTo w.files path text = .ok files ∧ World.Quiet { w with files } w' ∧
        (Flow.appendFile path text).run host s w = (.done (), s, w')) ∨
      ∃ e, appendTo w.files path text = .error e ∧
        (Flow.appendFile path text).run host s w = (.failed e, s, w) := by
    intro path text
    cases h : appendTo w.files path text with
    | ok files => exact Or.inl ⟨files, _, rfl, .refl _, run_appendFile_of_ok host s w h⟩
    | error e => exact Or.inr ⟨e, rfl, run_appendFile_of_error host s w h⟩
  cases x with
  | summary markdown =>
    simp only [tell, appendSummary, write]
    cases r.summaryFile with
    | none => exact Or.inl ⟨w.files, _, rfl, (World.Quiet.refl _).note _, rfl⟩
    | some path => exact append path markdown
  | output name value =>
    simp only [tell, setOutput, write]
    cases r.outputFile with
    | none => exact Or.inl ⟨w.files, _, rfl, (World.Quiet.refl _).note _, rfl⟩
    | some path =>
      cases outputEntry name value with
      | error e => exact Or.inr ⟨e, rfl, rfl⟩
      | ok entry => exact append path entry

/-- **A run that tells several reports ends with the first that cannot be written.** -/
theorem run_tellAll (reports : List Report) :
    ∃ told files w', told <+: reports ∧ r.writeAll w.files told = .ok files ∧
      World.Quiet { w with files } w' ∧
      (told = reports ∧ (r.tellAll reports).run host s w = (.done (), s, w') ∨
        ∃ x e, told ++ [x] <+: reports ∧ r.write files x = .error e ∧
          (r.tellAll reports).run host s w = (.failed e, s, w')) := by
  induction reports generalizing w with
  | nil => exact ⟨[], w.files, w, List.prefix_rfl, rfl, .refl w, Or.inl ⟨rfl, rfl⟩⟩
  | cons x xs ih =>
    rw [tellAll]
    rcases r.run_tell host s w x with ⟨files, w', hx, hq, hrun⟩ | ⟨e, hx, hrun⟩
    · obtain ⟨told, files', w'', hp, hall, hq', hend⟩ := ih w'
      rw [hq.files] at hall
      refine ⟨x :: told, files', w'', List.cons_prefix_cons.2 ⟨rfl, hp⟩, ?_,
        (hq.withFiles files').trans hq', ?_⟩
      · rw [writeAll_cons_of_ok r told hx]; exact hall
      · rw [Flow.run_bind_of_done _ hrun]
        rcases hend with ⟨rfl, hend⟩ | ⟨y, e, hy, hye, hend⟩
        · exact Or.inl ⟨rfl, hend⟩
        · exact Or.inr ⟨y, e, List.cons_prefix_cons.2 ⟨rfl, hy⟩, hye, hend⟩
    · exact ⟨[], w.files, w, List.nil_prefix, rfl, .refl w, Or.inr ⟨x, e,
        List.cons_prefix_cons.2 ⟨rfl, List.nil_prefix⟩, hx, Flow.run_bind_of_failed _ hrun⟩⟩

/-- A run that ends with reports gives its result exactly when all of them can be written. -/
theorem run_tellAll_pure {α : Type} (reports : List Report) (a : α) :
    let run := (r.tellAll reports >>= fun _ => pure a).run host s w
    run.2.1 = s ∧
      (run.1 = .done a ↔ ∃ files, r.writeAll w.files reports = .ok files) ∧
      (run.1 ≠ .done a → ∃ e, run.1 = .failed e) := by
  intro run
  obtain ⟨told, files, w', -, hall, -, ⟨rfl, hr⟩ | ⟨x, e, hx, hxe, hr⟩⟩ :=
    r.run_tellAll host s w reports
  · have hrun : run = (.done a, s, w') := Flow.run_bind_of_done _ hr
    rw [hrun]
    exact ⟨rfl, iff_of_true rfl ⟨files, hall⟩, fun h => absurd rfl h⟩
  · have hrun : run = (.failed e, s, w') := Flow.run_bind_of_failed _ hr
    rw [hrun, r.writeAll_of_prefix hx hall hxe]
    exact ⟨rfl, iff_of_false (fun h => by cases h) (fun ⟨_, h⟩ => by cases h), fun _ => ⟨e, rfl⟩⟩

end Runner

end ReleaseFlow
