import ReleaseFlow.Proofs.Files.Collected
import ReleaseFlow.Proofs.Workflow.Notes

/-!
# Runs that may change nothing foretell runs that may

* `Foretells`: two runs that end with the same failure, or with results one of which is made of the
  other;
* `createTag_foretells`, `createNotes_foretells`: the two workflows, run both ways;
* `rehearsal_foretells`: **where the service accepts every change and the runner takes what only a
  change has to tell, the run that may change nothing foretells the other one**.
-/

namespace ReleaseFlow

namespace Runner

variable {r : Runner} {files files' : FileTree} {x : Report}

theorem write_summary_elsewhere {block : String} (h : r.write files (.summary block) = .ok files')
    {place : Place}
    (hplace : ∀ path, r.summaryFile = some path → files.resolve path ≠ .ok place) :
    files'.node? place = files.node? place := by
  cases hr : r.summaryFile with
  | none =>
    simp only [write, hr] at h
    cases h
    rfl
  | some path =>
    simp only [write, hr] at h
    exact (FileTree.append_elsewhere (appendTo_eq_ok_iff.1 h)).2 place (hplace path hr)

end Runner

namespace Workflow

/-- The first run foretells the second: the one fails in the way in which the other one fails, and
its result is what is planned by the result of the other one. -/
structure Foretells {α : Type} (planned : α → α) (first second : Outcome α × Memory × World) :
    Prop where
  failed_iff : ∀ e, first.1 = .failed e ↔ second.1 = .failed e
  of_second : ∀ r, second.1 = .done r → first.1 = .done (planned r)
  of_first : ∀ r, first.1 = .done r → ∃ r', second.1 = .done r' ∧ r = planned r'

namespace Foretells

variable {α : Type} {planned : α → α} {first second : Outcome α × Memory × World}

theorem of_failed {e : Failure} (h₁ : first.1 = .failed e) (h₂ : second.1 = .failed e) :
    Foretells planned first second := by
  refine ⟨fun e' => by rw [h₁, h₂], fun r hr => ?_, fun r hr => ?_⟩
  · rw [h₂] at hr
    cases hr
  · rw [h₁] at hr
    cases hr

theorem of_done {r : α} (h₁ : first.1 = .done (planned r)) (h₂ : second.1 = .done r) :
    Foretells planned first second := by
  refine ⟨fun e => ?_, fun r' hr => ?_, fun r' hr => ⟨r, h₂, ?_⟩⟩
  · rw [h₁, h₂]
    exact iff_of_false (fun h => by cases h) (fun h => by cases h)
  · rw [h₂] at hr
    cases hr
    exact h₁
  · rw [h₁] at hr
    cases hr
    rfl

end Foretells

variable (ctx : Context) (sha : String) (previous : Option String) (date : Date) (m : Memory)
  (w : World)

/-! ## Tagging -/

/-- Where the outputs of the tag can be told, the summary can be told after them. -/
def SummaryTold : Prop :=
  ∀ p d, ctx.tagPattern = .ok p → MergeData.Read ctx sha m d →
    (∃ files, ctx.runner.writeAll w.files (tagResult (p.format d.next) d).outputs = .ok files) →
      ∃ files, ctx.runner.writeAll w.files (tagReports (p.format d.next) d) = .ok files

theorem createTag_foretells
    (haccepts : ∀ op ∈ [Forge.Operation.createTagObject, .createRef, .updateVariable],
      op ∉ m.failing) (htold : SummaryTold ctx sha m w) :
    let rehearsal := (createTag { ctx with dryRun := true } sha).run Memory.host m w
    let run := (createTag { ctx with dryRun := false } sha).run Memory.host m w
    Foretells (fun r => { r with created := false }) rehearsal run ∧ rehearsal.2.1 = m ∧
      ∀ r, run.1 = .done r → r.created = true ∧
        ctx.runner.writeAll w.files r.outputs = .ok rehearsal.2.2.files ∧
        ∃ block, ctx.runner.write rehearsal.2.2.files (.summary block) = .ok run.2.2.files := by
  intro rehearsal run
  rcases createTag_runs ctx sha m w with ⟨-, e, w', -, hr⟩ | ⟨p, d, hp, hd, hdry, hlive⟩
  · have hrehearsal : rehearsal = (.failed e, m, w') := hr true
    have hrun : run = (.failed e, m, w') := hr false
    rw [hrehearsal, hrun]
    exact ⟨.of_failed rfl rfl, rfl, fun r h => by cases h⟩
  have hacc : m.accepted (tagMarks ctx (p.format d.next) d) = tagMarks ctx (p.format d.next) d :=
    Memory.accepted_of_all fun _ hx => haccepts _ (operation_of_mem_tagMarks hx)
  replace hlive := hlive.of_accepted hacc
  have hconcat := ctx.runner.writeAll_concat w.files (tagResult (p.format d.next) d).outputs
    (.summary (tagBlock (p.format d.next) d))
  rw [← tagReports_eq] at hconcat
  have h₁ : rehearsal.1 = _ := hdry.outcome_eq
  have h₂ : run.1 = _ := hlive.outcome_eq
  cases hout : ctx.runner.writeAll w.files (tagResult (p.format d.next) d).outputs with
  | error e =>
    rw [hout] at h₁ hconcat
    rw [hconcat] at h₂
    exact ⟨.of_failed h₁ h₂, hdry.rest_eq.1, fun r hr => by cases h₂.symm.trans hr⟩
  | ok between =>
    obtain ⟨files, hfiles⟩ := htold p d hp hd ⟨between, hout⟩
    rw [hout] at h₁ hconcat
    rw [hfiles] at h₂
    refine ⟨.of_done h₁ h₂, hdry.rest_eq.1, fun r hr => ?_⟩
    cases h₂.symm.trans hr
    refine ⟨rfl, ?_, tagBlock (p.format d.next) d, ?_⟩
    · rw [hdry.files_eq hout]
      exact hout
    · rw [hdry.files_eq hout, hlive.files_eq hfiles]
      exact hconcat.symm.trans hfiles

/-! ## Notes -/

/-- Where there are notes, the page of the release and the summary can be told. -/
def PageTold : Prop :=
  ∀ tag previousTag, NotesRead ctx previous m tag previousTag →
    Forge.Operation.generateNotes ∉ m.failing →
      ∃ files, ctx.runner.writeAll w.files
        (notesReports { ctx with dryRun := false } tag previousTag) = .ok files

theorem createNotes_foretells (haccepts : Forge.Operation.createRelease ∉ m.failing)
    (htold : PageTold ctx previous m w) :
    let rehearsal := (createNotes { ctx with dryRun := true } previous date).run Memory.host m w
    let run := (createNotes { ctx with dryRun := false } previous date).run Memory.host m w
    Foretells (fun r => { r with url := none }) rehearsal run ∧
      ∃ (asked : List NotesRequest) (created : List NewRelease),
        rehearsal.2.1 = m.markAll (asked.map .generateNotes) ∧
        run.2.1 = m.markAll (asked.map .generateNotes ++ created.map .createRelease) ∧
        rehearsal.2.2.files = w.files ∧
        ∀ r, run.1 = .done r → r.url.isSome = true ∧
          asked = [⟨r.tag, r.previousTag, ctx.config.release.notesConfig⟩] := by
  intro rehearsal run
  rcases createNotes_runs ctx previous date m w with
    ⟨-, e, w', hq, hr⟩ | ⟨tag, previousTag, hread, hnf, hruns⟩
  · have hrehearsal : rehearsal = (.failed e, m, w') := hr true
    have hrun : run = (.failed e, m, w') := hr false
    rw [hrehearsal, hrun]
    exact ⟨.of_failed rfl rfl, [], [], m.markAll_nil.symm, m.markAll_nil.symm, hq.files,
      fun r h => by cases h⟩
  have hdry : Delivers _ m w _ _ [] _ rehearsal := hruns true
  have hlive : Delivers _ m w _ _ _ _ run := hruns false
  have hacc : ∀ dryRun,
      m.accepted (notesMarks { ctx with dryRun } tag previousTag date m) =
        notesMarks { ctx with dryRun } tag previousTag date m := by
    refine fun dryRun => Memory.accepted_of_all fun x hx => ?_
    rcases List.mem_cons.1 hx with rfl | hx
    · exact hnf
    · cases dryRun with
      | true => cases hx
      | false =>
        obtain rfl := List.mem_singleton.1 hx
        exact haccepts
  replace hdry := hdry.of_accepted (hacc true)
  replace hlive := hlive.of_accepted (hacc false)
  obtain ⟨files, hfiles⟩ := htold tag previousTag hread hnf
  have h₁ : rehearsal.1 = .done _ := hdry.outcome_eq
  have h₂ : run.1 = _ := hlive.outcome_eq
  rw [hfiles] at h₂
  refine ⟨.of_done h₁ h₂, [⟨tag, previousTag, ctx.config.release.notesConfig⟩],
    [⟨tag, releaseTitle tag date, m.notes, ctx.config.release.draft, false⟩],
    hdry.rest_eq.1, hlive.rest_eq.1, hdry.files_eq rfl, fun r hr => ?_⟩
  cases h₂.symm.trans hr
  exact ⟨rfl, rfl⟩

/-! ## Both -/

/-- **A run that may change nothing foretells the run that may**, where the service accepts every
change and what only a change has to tell can be told. Both fail in the same way, or their results
differ in no more than what was made. Tagging tells the same outputs; only the summary is added when
there is a tag. For notes the same is asked. Nothing else is changed in the service. -/
theorem rehearsal_foretells (haccepts : ∀ op ∈ [Forge.Operation.createTagObject, .createRef,
      .updateVariable, .createRelease], op ∉ m.failing) :
    (SummaryTold ctx sha m w →
      let rehearsal := (createTag { ctx with dryRun := true } sha).run Memory.host m w
      let run := (createTag { ctx with dryRun := false } sha).run Memory.host m w
      Foretells (fun r => { r with created := false }) rehearsal run ∧ rehearsal.2.1 = m ∧
        ∀ r, run.1 = .done r → r.created = true ∧
          ctx.runner.writeAll w.files r.outputs = .ok rehearsal.2.2.files ∧
          (∃ block, ctx.runner.write rehearsal.2.2.files (.summary block) = .ok run.2.2.files) ∧
          ∀ place, (∀ path, ctx.runner.summaryFile = some path →
              rehearsal.2.2.files.resolve path ≠ .ok place) →
            run.2.2.files.node? place = rehearsal.2.2.files.node? place) ∧
    (PageTold ctx previous m w →
      let rehearsal := (createNotes { ctx with dryRun := true } previous date).run Memory.host m w
      let run := (createNotes { ctx with dryRun := false } previous date).run Memory.host m w
      Foretells (fun r => { r with url := none }) rehearsal run ∧
        ∃ (asked : List NotesRequest) (created : List NewRelease),
          rehearsal.2.1 = m.markAll (asked.map .generateNotes) ∧
          run.2.1 = m.markAll (asked.map .generateNotes ++ created.map .createRelease) ∧
          rehearsal.2.2.files = w.files ∧
          ∀ r, run.1 = .done r → r.url.isSome = true ∧
            asked = [⟨r.tag, r.previousTag, ctx.config.release.notesConfig⟩]) := by
  refine ⟨fun htold => ?_, fun htold =>
    createNotes_foretells ctx previous date m w (haccepts _ (by simp)) htold⟩
  obtain ⟨hforetells, hmemory, hdone⟩ := createTag_foretells ctx sha m w
    (fun op hop => haccepts op (List.mem_append_left [_] hop)) htold
  refine ⟨hforetells, hmemory, fun r hr => ?_⟩
  obtain ⟨hcreated, houtputs, block, hblock⟩ := hdone r hr
  exact ⟨hcreated, houtputs, ⟨block, hblock⟩,
    fun place hplace => Runner.write_summary_elsewhere hblock hplace⟩

/-- Both workflows, for a runner with a file for outputs and one for the summary. -/
theorem rehearsal_foretells_minor :
    let ctx : Context :=
      ⟨⟨"acme", "notify-api"⟩, {}, ⟨some "out", some "sum"⟩, false, .plain, 0, false⟩
    let m : Memory := {
      pulls := [("c0ffee", [⟨42, "https://example.com/pull/42", ["feature"]⟩])]
      values := [("RELEASE_VERSION", "1.2.3")]
      commits := [("heads/release", "f00d")] }
    let date : Date := ⟨2026, 1, 31, by decide, by decide, by decide⟩
    (∀ op ∈ [Forge.Operation.createTagObject, .createRef, .updateVariable, .createRelease],
      op ∉ m.failing) ∧ SummaryTold ctx "c0ffee" m {} ∧ PageTold ctx (some "1.2.2") m {} ∧
    ((createTag { ctx with dryRun := true } "c0ffee").run Memory.host m {}).1 =
      .done ⟨⟨1, 2, 3⟩, ⟨1, 3, 0⟩, "1.3.0", "f00d", false⟩ ∧
    Foretells (fun r => { r with url := none })
      ((createNotes { ctx with dryRun := true } (some "1.2.2") date).run Memory.host m {})
      ((createNotes { ctx with dryRun := false } (some "1.2.2") date).run Memory.host m {}) := by
  intro ctx m date
  have hp : ctx.tagPattern = .ok ⟨"\x7bversion\x7d", by decide⟩ := dif_pos _
  have hd : MergeData.Read ctx "c0ffee" m ⟨"f00d", ⟨1, 2, 3⟩, ⟨1, 3, 0⟩, .minor, some "feature",
      42, "https://example.com/pull/42"⟩ :=
    ⟨by decide, ⟨_, _, rfl, by decide, rfl, rfl⟩, ⟨_, rfl, by decide⟩, by decide, by decide⟩
  have haccepts : ∀ op ∈ [Forge.Operation.createTagObject, .createRef, .updateVariable,
      .createRelease], op ∉ m.failing := by decide
  have htag : SummaryTold ctx "c0ffee" m {} := by
    intro p d hp' hd' _
    obtain rfl := Except.ok.inj (hp'.symm.trans hp)
    obtain rfl := read_unique hd' hd
    exact ⟨_, rfl⟩
  have hprev : TagPattern.previousTag ⟨"\x7bversion\x7d", by decide⟩ "1.2.2" = .ok "1.2.2" :=
    TagPattern.previousTag_format _ ⟨1, 2, 2⟩
  have hread : NotesRead ctx (some "1.2.2") m "1.2.3" (some "1.2.2") := by
    refine ⟨by decide, _, "1.2.3", ⟨1, 2, 3⟩, hp, rfl, by decide, by decide, ?_⟩
    rw [Option.mapM_some, hprev]
    rfl
  have hnotes : PageTold ctx (some "1.2.2") m {} := by
    intro tag previousTag h _
    obtain ⟨rfl, rfl⟩ := notesRead_unique h hread
    dsimp only [ctx]
    exact ⟨_, rfl⟩
  obtain ⟨hforetells, hforetells'⟩ :=
    rehearsal_foretells ctx "c0ffee" (some "1.2.2") date m {} haccepts
  refine ⟨haccepts, htag, hnotes, ?_, (hforetells' hnotes).1⟩
  exact (hforetells htag).1.of_second ⟨⟨1, 2, 3⟩, ⟨1, 3, 0⟩, "1.3.0", "f00d", true⟩ (by decide)

end Workflow

end ReleaseFlow
