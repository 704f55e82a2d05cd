import ReleaseFlow.CommandLine.Program
import ReleaseFlow.Proofs.Text.Pieces
import ReleaseFlow.Proofs.Workflow.Tagging

/-!
# A bump beside the tagging of a merge

The command line bumps a version that it is given, by labels that it is given, and asks no service.

* `Text.lines`, `getLast?_lines`: the last line of a text;
* `LabelClasses.propose`: the decision for a version given as a text;
* `Act.Looks`, `Config.load_looks`: reading the settings changes nothing;
* `run_told_bind_of_done`, `run_told_bind_of_failed`: a failure told to the user;
* `run_bump`: what bumping does;
* `Memory.Offers`, `mergeData_of_offers`: the data of a merge whose parts are all known;
* `bump_agrees`: **bumping a version gives what tagging a merge gives**.
-/

namespace ReleaseFlow

namespace Text

/-- The lines of a text. The last one need not end. -/
def lines (cs : List Char) : List (List Char) :=
  let pieces := List.splitOn '\n' cs
  if pieces.getLast? = some [] then pieces.dropLast else pieces

/-- The last line is what stands between the last two ends of lines. -/
theorem getLast?_lines (cs : List Char) {line : List Char} (h : '\n' ∉ line) :
    (lines (cs ++ '\n' :: (line ++ ['\n']))).getLast? = some line := by
  have hpieces : List.splitOn '\n' (cs ++ '\n' :: (line ++ ['\n'])) =
      (List.splitOn '\n' cs ++ [line]) ++ [[]] := by
    rw [List.splitOn_append_cons_self, List.splitOn_append_cons_self_of_not_mem h,
      List.append_assoc]
    rfl
  rw [lines, hpieces, if_pos List.getLast?_concat, List.dropLast_concat, List.getLast?_concat]

end Text

theorem World.output_note_print (w : World) (text : String) :
    (w.note (.print text)).output = w.output ++ text := by
  simp [World.output, World.note]

/-! ## The decision -/

namespace LabelClasses

variable {classes : LabelClasses} {version : String} {labels : List String}

/-- The decision for a version given as a text. -/
def propose (classes : LabelClasses) (version : String) (labels : List String) :
    Except Failure Decision := do
  let current ← Version.parse version
  classes.decide current labels

theorem of_propose_error {e : Failure} (h : classes.propose version labels = .error e) :
    ∃ detail, e = .version detail := by
  unfold propose at h
  cases hparse : Version.parse version with
  | error e' =>
    rw [hparse] at h
    obtain rfl : e' = e := Except.error.inj h
    exact Version.of_parse_error hparse
  | ok current =>
    rw [hparse] at h
    change (current.bump (classes.classify labels).1).map _ = .error e at h
    cases hbump : current.bump (classes.classify labels).1 with
    | error e' =>
      rw [hbump] at h
      obtain rfl : e' = e := Except.error.inj h
      exact Version.of_bump_error hbump
    | ok next =>
      rw [hbump] at h
      cases h

end LabelClasses

/-! ## Reading the settings -/

/-- The step only looks at files. -/
def Act.Looks {S : Service} : Act S → Prop
  | .readFile _ => True
  | .findFile _ => True
  | _ => False

section Looks

variable {S : Service} {σ α : Type} {host : Host S σ} {s : σ} {w : World}

theorem Flow.Acts.run_of_looks {m : Flow S α} (hm : m.Acts Act.Looks) :
    (m.run host s w).2 = (s, w) := by
  induction m with
  | done a => rfl
  | failed e => rfl
  | stalled => rfl
  | step act next ih =>
    obtain ⟨hact, hnext⟩ := hm
    cases act with
    | readFile path => exact ih _ (hnext _)
    | findFile path => exact ih _ (hnext _)
    | _ => exact hact.elim

theorem Flow.acts_readFile (path : String) : (Flow.readFile path : Flow S String).Acts Act.Looks :=
  ⟨trivial, fun (r : Except FileFault String) => by cases r <;> exact trivial⟩

theorem Flow.acts_findFile (path : String) : (Flow.findFile path : Flow S Bool).Acts Act.Looks :=
  ⟨trivial, fun _ => trivial⟩

theorem Config.loadFile_looks (path : String) :
    (Config.loadFile path : Flow S Config).Acts Act.Looks :=
  (Flow.acts_readFile path).bind fun _ => Flow.acts_ofExcept _

theorem Config.load_looks (directory path : Option String) :
    (Config.load directory path : Flow S Config).Acts Act.Looks := by
  unfold Config.load
  cases path with
  | some path => exact Config.loadFile_looks path
  | none =>
    refine (Flow.acts_findFile _).bind fun found => ?_
    split
    · exact Config.loadFile_looks _
    cases directory with
    | none => exact trivial
    | some directory =>
      refine (Flow.acts_findFile _).bind fun found => ?_
      split
      · exact Config.loadFile_looks _
      · exact trivial

end Looks

/-! ## The offline command -/

namespace CommandLine

section Told

variable {σ α β : Type} {host : Host Http.service σ} {s s' : σ} {w w' : World}
  {context : Option String} {flow : Flow Http.service α} {f : α → Told β}

theorem run_told_bind_of_done {a : α} (h : flow.run host s w = (.done a, s', w')) :
    ((told context flow >>= f).run).run host s w = ((f a).run).run host s' w' := by
  rw [ExceptT.run_bind, told, ExceptT.run_mk, bind_assoc,
    Flow.run_bind_of_done _ (Flow.run_attempt_of_done h)]
  rfl

theorem run_told_bind_of_failed {e : Failure} (h : flow.run host s w = (.failed e, s', w')) :
    ((told context flow >>= f).run).run host s w =
      (.done (.error ((context.map (· ++ ": ")).getD "" ++ e.chain)), s', w') := by
  rw [ExceptT.run_bind, told, ExceptT.run_mk, bind_assoc,
    Flow.run_bind_of_done _ (Flow.run_attempt_of_failed h)]
  rfl

theorem run_told_ofExcept_ok_bind (a : α) :
    ((told none (Flow.ofExcept (.ok a)) >>= f).run).run host s w = ((f a).run).run host s w :=
  run_told_bind_of_done rfl

theorem run_told_ofExcept_error_bind (e : Failure) :
    ((told none (Flow.ofExcept (.error e)) >>= f).run).run host s w =
      (.done (.error e.chain), s, w) := by
  refine (run_told_bind_of_failed rfl).trans ?_
  exact congrArg (fun text => (Outcome.done (Except.error text), s, w)) String.empty_append

theorem run_say_bind (text : String) (f : Unit → Told β) :
    ((say text >>= f).run).run host s w = ((f ()).run).run host s (w.note (.print text)) := rfl

end Told

variable {σ : Type} {host : Host Http.service σ} {s : σ} {w : World} {around : Surroundings}
  {i : Invocation} {version : String} {labels : List String} {config : Config}

/-- Whatever the label says, the lines that report a decision end. -/
theorem decisionLines_ends (palette : Console.Palette) (d : Decision) :
    ∃ front, (Console.decisionLines palette d).toList = front ++ ['\n'] := by
  unfold Console.decisionLines
  have hend : ")\n".toList = [')'] ++ ['\n'] := by decide
  rw [String.toList_append, hend, ← List.append_assoc]
  exact ⟨_, rfl⟩

theorem last_line_of_bump (palette : Console.Palette) (d : Decision) (w : World) :
    (Text.lines ((w.note (.print (Console.decisionLines palette d))).note
      (.print (d.next.text ++ "\n"))).output.toList).getLast? = some d.next.text.toList := by
  obtain ⟨front, hfront⟩ := decisionLines_ends palette d
  have hnewline : "\n".toList = ['\n'] := by decide
  have hline : '\n' ∉ d.next.text.toList := Version.not_mem_text (by decide) (by decide)
  have hout : ((w.note (.print (Console.decisionLines palette d))).note
      (.print (d.next.text ++ "\n"))).output.toList =
        (w.output.toList ++ front) ++ '\n' :: (d.next.text.toList ++ ['\n']) := by
    rw [World.output_note_print, World.output_note_print, String.toList_append,
      String.toList_append, String.toList_append, hfront, hnewline]
    simp only [List.append_assoc, List.singleton_append]
  rw [hout, Text.getLast?_lines _ hline]

/-- A bump decides by the settings, and prints the decision and then the next version. -/
theorem run_bump (hi : i.command = .bump version labels)
    (hload : ((Config.load around.settingsDirectory i.config : Flow Http.service Config).run
      host s w).1 = .done config) :
    ((execute around i).run).run host s w =
      match config.labels.propose version labels with
      | .ok d => (.done (.ok ()), s,
          (w.note (.print (Console.decisionLines around.palette d))).note
            (.print (d.next.text ++ "\n")))
      | .error e => (.done (.error e.chain), s, w) := by
  have hsettings : (Config.load around.settingsDirectory i.config : Flow Http.service Config).run
      host s w = (.done config, s, w) :=
    Prod.ext hload (Config.load_looks _ _).run_of_looks
  unfold execute
  rw [run_told_bind_of_done hsettings, hi]
  dsimp only
  unfold LabelClasses.propose
  cases Version.parse version with
  | error e => exact run_told_ofExcept_error_bind e
  | ok current =>
    rw [run_told_ofExcept_ok_bind]
    change _ = match config.labels.decide current labels with | .ok d => _ | .error e => _
    cases config.labels.decide current labels with
    | error e => exact run_told_ofExcept_error_bind e
    | ok d =>
      rw [run_told_ofExcept_ok_bind, run_say_bind]
      rfl

end CommandLine

/-! ## The data of a merge -/

/-- Nothing fails, and the memory tells a version, the head of the release branch, and a pull
request with the labels: all that tagging a merge needs. -/
structure Memory.Offers (ctx : Context) (sha version : String) (labels : List String)
    (m : Memory) : Prop where
  working : m.failing = []
  stored : m.values.lookup ctx.config.release.versionVariable = some version
  head : ∃ head, m.commits.lookup (branchRef ctx.config.release.branch) = some head
  pull : ∃ pull others, m.pulls.lookup sha = some (pull :: others) ∧ pull.labels = labels

namespace Workflow

variable {ctx : Context} {sha version : String} {labels : List String} {m : Memory} {w : World}

/-- The data of a merge is made by the decision for its version and its labels. -/
theorem mergeData_of_offers (h : m.Offers ctx sha version labels) :
    (∃ decision d, ctx.config.labels.propose version labels = .ok decision ∧
      d.next = decision.next ∧ ((mergeData ctx sha).run Memory.host m w).1 = .done d) ∨
    ∃ e, ctx.config.labels.propose version labels = .error e ∧
      ((mergeData ctx sha).run Memory.host m w).1 = .failed e := by
  obtain ⟨head, hhead⟩ := h.head
  obtain ⟨pull, others, hpulls, rfl⟩ := h.pull
  have hworks : ∀ op, op ∉ m.failing := fun op => by rw [h.working]; exact List.not_mem_nil
  have hreply : Memory.reply ctx.repository (.pullRequests sha) m = (.ok (pull :: others), m) := by
    simp only [Memory.reply, hpulls, Option.getD_some]
  rw [mergeData_eq, Memory.run_query_of_ok _ (hworks _) hreply,
    Memory.run_query_of_ok _ (hworks _) (Memory.reply_getVariable_some h.stored),
    Memory.run_query_of_ok _ (hworks _) (Memory.reply_commitSha_some hhead)]
  simp only [mergeDecision, Flow.run_log_bind, Context.run_warning_if]
  unfold LabelClasses.propose
  cases Version.parse version with
  | error e => exact Or.inr ⟨e, rfl, rfl⟩
  | ok current =>
    rw [Flow.run_ofExcept_ok_bind]
    change (∃ decision d, ctx.config.labels.decide current pull.labels = .ok decision ∧ _) ∨
      ∃ e, ctx.config.labels.decide current pull.labels = .error e ∧ _
    cases ctx.config.labels.decide current pull.labels with
    | error e => exact Or.inr ⟨e, rfl, rfl⟩
    | ok decision => exact Or.inl ⟨decision, _, rfl, rfl, rfl⟩

theorem stored_of_offers (h : m.Offers ctx sha version labels) {d : MergeData}
    (hd : ((mergeData ctx sha).run Memory.host m w).1 = .done d) {p : TagPattern}
    (hp : ctx.tagPattern = .ok p) (w' : World) :
    ((createTag { ctx with dryRun := false } sha).run Memory.host m
      w').2.1.values.lookup ctx.config.release.versionVariable = some d.next.text := by
  have hread : d.Read ctx sha m := by
    rcases mergeData_run ctx sha m w with ⟨d', w₁, hread, -, hr⟩ | ⟨-, e, w₁, -, hr⟩
    · rw [hr] at hd
      obtain rfl : d' = d := Outcome.done.inj hd
      exact hread
    · rw [hr] at hd
      cases hd
  rcases createTag_runs ctx sha m w' with ⟨hno, -⟩ | ⟨p', d', -, hread', -, hrun⟩
  · exact absurd hread (hno p d hp)
  · obtain rfl := read_unique hread' hread
    rw [hrun.memory, if_pos (Memory.accepted_of_failing_nil h.working)]
    exact lookup_tagged ctx _ d' m

end Workflow

namespace CommandLine

/-- **Bumping a version gives what tagging a merge gives.** With the same settings, a bump of the
stored version by the labels of the merge succeeds exactly when the data of the merge is found. Then
the last line that it prints is the next version, which can be read back, and which tagging the
merge stores, however it goes on. Otherwise both fail for the same reason, and that is the
version. -/
theorem bump_agrees {around : Surroundings} {i : Invocation} {version : String}
    {labels : List String} (hi : i.command = .bump version labels) {σ : Type}
    (host : Host Http.service σ) (s : σ) (w : World) {ctx : Context}
    (hload : ((Config.load around.settingsDirectory i.config : Flow Http.service Config).run
      host s w).1 = .done ctx.config)
    {sha : String} {m : Memory} (hm : m.Offers ctx sha version labels) (w' : World) :
    let bump := ((execute around i).run).run host s w
    let merge := (Workflow.mergeData ctx sha).run Memory.host m w'
    (bump.1 = .done (.ok ()) ↔ ∃ d, merge.1 = .done d) ∧
    (∀ d, merge.1 = .done d →
      (Text.lines bump.2.2.output.toList).getLast? = some d.next.text.toList ∧
      Version.parse d.next.text = .ok d.next ∧
      ∀ p, ctx.tagPattern = .ok p → ∀ w'',
        ((Workflow.createTag { ctx with dryRun := false } sha).run Memory.host m
          w'').2.1.values.lookup ctx.config.release.versionVariable = some d.next.text) ∧
    ((∀ d, merge.1 ≠ .done d) → ∃ detail, merge.1 = .failed (.version detail) ∧
      bump.1 = .done (.error (Failure.version detail).message)) := by
  intro bump merge
  have hbump : bump = _ := run_bump hi hload
  rcases Workflow.mergeData_of_offers (w := w') hm with ⟨decision, d, hdecision, hnext, hd⟩ |
    ⟨e, he, hfailed⟩
  · replace hd : merge.1 = .done d := hd
    rw [hdecision] at hbump
    refine ⟨iff_of_true (by rw [hbump]) ⟨d, hd⟩, fun d' hd' => ?_, fun h => absurd hd (h d)⟩
    obtain rfl : d = d' := Outcome.done.inj (hd.symm.trans hd')
    refine ⟨?_, Version.parse_text _, fun p hp => Workflow.stored_of_offers hm hd hp⟩
    rw [hbump, hnext]
    exact last_line_of_bump around.palette decision w
  · replace hfailed : merge.1 = .failed e := hfailed
    have hno : ∀ d, merge.1 ≠ .done d := fun d hd => by
      rw [hfailed] at hd
      cases hd
    rw [he] at hbump
    refine ⟨iff_of_false (by rw [hbump]; simp) fun ⟨d, hd⟩ => hno d hd,
      fun d hd => absurd hd (hno d), fun _ => ?_⟩
    obtain ⟨detail, rfl⟩ := LabelClasses.of_propose_error he
    exact ⟨detail, hfailed, by rw [hbump]; rfl⟩

/-- A label of several lines, one of which looks like a version, does not hide the next version. -/
theorem bump_agrees_labels :
    let i : Invocation := ⟨none, false, false, .bump "1.4.2" ["docs\n9.9.9", "other"]⟩
    let ctx : Context := { repository := ⟨"acme", "notify-api"⟩ }
    let m : Memory := {
      pulls := [("c0ffee", [⟨42, "https://example.com/pull/42", ["docs\n9.9.9", "other"]⟩])]
      values := [("RELEASE_VERSION", "1.4.2")]
      commits := [("heads/release", "f00d")] }
    let host : Host Http.service Unit := fun _ s => (.error (.http "no connection"), s)
    let bump := ((execute ⟨⟨[]⟩, false⟩ i).run).run host () {}
    m.Offers ctx "c0ffee" "1.4.2" ["docs\n9.9.9", "other"] ∧ bump.1 = .done (.ok ()) ∧
      (Text.lines bump.2.2.output.toList).getLast? = some "1.5.0".toList := by
  intro i ctx m host bump
  have hm : m.Offers ctx "c0ffee" "1.4.2" ["docs\n9.9.9", "other"] :=
    ⟨rfl, by decide, ⟨_, rfl⟩, ⟨_, _, rfl, rfl⟩⟩
  obtain ⟨hiff, hline, -⟩ := @bump_agrees ⟨⟨[]⟩, false⟩ i "1.4.2" ["docs\n9.9.9", "other"] rfl Unit
    host () {} ctx rfl "c0ffee" m hm {}
  have hmerge : ((Workflow.mergeData ctx "c0ffee").run Memory.host m {}).1 =
    .done ⟨"f00d", ⟨1, 4, 2⟩, ⟨1, 5, 0⟩, .minor, some "docs\n9.9.9", 42,
      "https://example.com/pull/42"⟩ := by decide
  exact ⟨hm, hiff.2 ⟨_, hmerge⟩, (hline _ hmerge).1⟩

end CommandLine

end ReleaseFlow
