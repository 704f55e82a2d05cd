import ReleaseFlow.Proofs.TagPattern.Previous
import ReleaseFlow.Proofs.Workflow.Tagging

/-!
# What notes do to a service in memory

* `NotesRead`: the tags that the notes are about, as a service in memory tells them;
* `notesTags`, `notesAbout`: notes in two parts, the first of which finds the tags;
* `createNotes_runs`, `createNotes_run`: whole runs, from the stored version to the summary;
* `notes_compare_tags`: **after two tags, the notes compare the second with the first**, whether
  they are given the version that the second run calls previous or the tag of the first run.
-/

namespace ReleaseFlow

namespace Workflow

/-- The memory tells the tags that notes are about: the tag of the stored version, and the tag that
the previous version names. -/
structure NotesRead (ctx : Context) (previous : Option String) (m : Memory) (tag : String)
    (previousTag : Option String) : Prop where
  answered : Forge.Operation.getVariable ∉ m.failing
  named : ∃ p text v, ctx.tagPattern = .ok p ∧
    m.values.lookup ctx.config.release.versionVariable = some text ∧ Version.parse text = .ok v ∧
    p.format v = tag ∧ previous.mapM p.previousTag = .ok previousTag

theorem notesRead_unique {ctx : Context} {previous : Option String} {m : Memory}
    {tag tag' : String} {previousTag previousTag' : Option String}
    (h : NotesRead ctx previous m tag previousTag)
    (h' : NotesRead ctx previous m tag' previousTag') :
    tag = tag' ∧ previousTag = previousTag' := by
  obtain ⟨-, p, text, v, hp, hs, hv, rfl, hprev⟩ := h
  obtain ⟨-, p', text', v', hp', hs', hv', rfl, hprev'⟩ := h'
  obtain rfl : p = p' := Except.ok.inj (hp.symm.trans hp')
  obtain rfl : text = text' := Option.some.inj (hs.symm.trans hs')
  obtain rfl : v = v' := Except.ok.inj (hv.symm.trans hv')
  exact ⟨rfl, Except.ok.inj (hprev.symm.trans hprev')⟩

/-- What notes ask for: the notes, and the release unless nothing may be changed. -/
def notesMarks (ctx : Context) (tag : String) (previousTag : Option String) (date : Date)
    (m : Memory) : List Forge.Mark :=
  .generateNotes ⟨tag, previousTag, ctx.config.release.notesConfig⟩ :: if ctx.dryRun then [] else
    [.createRelease ⟨tag, releaseTitle tag date, m.notes, ctx.config.release.draft, false⟩]

/-- The page that a service in memory makes for a release. -/
def releaseUrl (ctx : Context) (tag : String) : String :=
  "https://github.com/" ++ ctx.repository.owner ++ "/" ++ ctx.repository.name ++
    "/releases/tag/untagged-" ++ tag

/-- What notes tell the runner. -/
def notesReports (ctx : Context) (tag : String) (previousTag : Option String) : List Report :=
  if ctx.dryRun then [] else
    [.output "releaseUrl" (releaseUrl ctx tag),
      .summary (notesSummary (releaseUrl ctx tag) tag previousTag)]

def notesResult (ctx : Context) (tag : String) (previousTag : Option String) (date : Date)
    (m : Memory) : NotesResult :=
  ⟨tag, previousTag, releaseTitle tag date, m.notes,
    if ctx.dryRun then none else some (releaseUrl ctx tag)⟩

variable (ctx : Context) (previous : Option String) (date : Date) (m : Memory) (w : World)

theorem publishNotes_delivers {α : Type} {outcome : Outcome α} {f : String → Flow Forge.service α}
    (tag title notes : String) (previousTag : Option String)
    (hf : ∀ m w, ∃ w', w.Quiet w' ∧
      (f (releaseUrl ctx tag)).run Memory.host m w = (outcome, m, w')) :
    Delivers ctx.runner m w
      [.createRelease ⟨tag, title, notes, ctx.config.release.draft, false⟩]
      (m.mark (.createRelease ⟨tag, title, notes, ctx.config.release.draft, false⟩))
      [.output "releaseUrl" (releaseUrl ctx tag),
        .summary (notesSummary (releaseUrl ctx tag) tag previousTag)] outcome
      ((publishNotes ctx tag title notes previousTag >>= f).run Memory.host m w) := by
  simp only [publishNotes, bind_assoc, pure_bind]
  refine .ask_mark rfl rfl (.print fun w => ?_)
  have htell : (do
      ctx.runner.setOutput "releaseUrl" (releaseUrl ctx tag)
      ctx.runner.appendSummary (notesSummary (releaseUrl ctx tag) tag previousTag)
      f (releaseUrl ctx tag)) = (do
      ctx.runner.tellAll [.output "releaseUrl" (releaseUrl ctx tag),
        .summary (notesSummary (releaseUrl ctx tag) tag previousTag)]
      f (releaseUrl ctx tag)) := by
    simp only [Runner.tellAll, Runner.tell, bind_assoc, pure_bind]
  change Delivers _ _ w _ _ _ _ ((do
      ctx.runner.setOutput "releaseUrl" (releaseUrl ctx tag)
      ctx.runner.appendSummary (notesSummary (releaseUrl ctx tag) tag previousTag)
      f (releaseUrl ctx tag)).run _ _ w)
  rw [htell]
  exact .tell fun w => hf _ w

/-! ## The tags that notes are about -/

/-- The tags that notes are about, without the notes. -/
def notesTags : Flow Forge.service (String × Option String) := do
  let pattern ← Flow.ofExcept ctx.tagPattern
  let stored : String ← Forge.query ctx.repository (.getVariable ctx.config.release.versionVariable)
  let current ← Flow.ofExcept (Version.parse stored)
  let previousTag ← Flow.ofExcept (previous.mapM pattern.previousTag)
  return (pattern.format current, previousTag)

/-- The notes about tags, and what follows from them. -/
def notesAbout (tags : String × Option String) : Flow Forge.service NotesResult := do
  let notes : String ← Forge.query ctx.repository
    (.generateNotes ⟨tags.1, tags.2, ctx.config.release.notesConfig⟩)
  Flow.log .info ("Release notes generated successfully for " ++ tags.1)
  let url ←
    if ctx.dryRun then do
      ctx.status ("Dry run: would create release '" ++ releaseTitle tags.1 date ++ "'")
      pure none
    else do
      let url ← publishNotes ctx tags.1 (releaseTitle tags.1 date) notes tags.2
      pure (some url)
  Flow.log .info ("The previous release version was: " ++ tags.2.getD "none")
  return ⟨tags.1, tags.2, releaseTitle tags.1 date, notes, url⟩

theorem createNotes_eq : createNotes ctx previous date = (do
    let tags ← notesTags ctx previous
    if tags.2.isNone then
      ctx.warning (.missingPreviousVersion tags.1)
    notesAbout ctx date tags) := by
  simp only [createNotes, notesTags, notesAbout, bind_assoc, pure_bind]

theorem notesTags_run :
    (∃ tag previousTag, NotesRead ctx previous m tag previousTag ∧
      (notesTags ctx previous).run Memory.host m w = (.done (tag, previousTag), m, w)) ∨
    (∀ tag previousTag, ¬ NotesRead ctx previous m tag previousTag) ∧
      ∃ e, (notesTags ctx previous).run Memory.host m w = (.failed e, m, w) := by
  simp only [notesTags]
  cases hp : ctx.tagPattern with
  | error e =>
    refine Or.inr ⟨fun tag previousTag h => ?_, e, rfl⟩
    obtain ⟨p, text, v, hp', -⟩ := h.named
    rw [hp] at hp'
    cases hp'
  | ok p =>
  simp only [Flow.run_ofExcept_ok_bind]
  by_cases hgf : Forge.Operation.getVariable ∈ m.failing
  · exact Or.inr ⟨fun _ _ h => absurd hgf h.answered, _, Memory.run_query_of_failing _ hgf⟩
  cases hs : m.values.lookup ctx.config.release.versionVariable with
  | none =>
    refine Or.inr ⟨fun tag previousTag h => ?_, _,
      Memory.run_query_of_error _ hgf (Memory.reply_getVariable_none hs)⟩
    obtain ⟨p, text, v, -, hs', -⟩ := h.named
    rw [hs] at hs'
    cases hs'
  | some text =>
  rw [Memory.run_query_of_ok _ hgf (Memory.reply_getVariable_some hs)]
  cases hv : Version.parse text with
  | error e =>
    refine Or.inr ⟨fun tag previousTag h => ?_, e, rfl⟩
    obtain ⟨p, text', v, -, hs', hv', -⟩ := h.named
    obtain rfl : text = text' := by simpa [hs] using hs'
    rw [hv] at hv'
    cases hv'
  | ok v =>
  simp only [Flow.run_ofExcept_ok_bind]
  cases hprev : previous.mapM p.previousTag with
  | error e =>
    refine Or.inr ⟨fun tag previousTag h => ?_, e, rfl⟩
    obtain ⟨p', text', v', hp', -, -, -, hprev'⟩ := h.named
    obtain rfl : p = p' := by simpa [hp] using hp'
    rw [hprev] at hprev'
    cases hprev'
  | ok previousTag =>
    exact Or.inl ⟨p.format v, previousTag, ⟨hgf, p, text, v, hp, hs, hv, rfl, hprev⟩, rfl⟩

/-! ## Runs -/

/-- Whether or not the run may change something, without the notes it does nothing and fails in the
same way. Else it makes its requests, of which the first is answered, and then tells its reports. -/
theorem createNotes_runs :
    ((∀ tag previousTag, NotesRead ctx previous m tag previousTag →
        Forge.Operation.generateNotes ∈ m.failing) ∧ ∃ e w', w.Quiet w' ∧
      ∀ dryRun, (createNotes { ctx with dryRun } previous date).run Memory.host m w =
        (.failed e, m, w')) ∨
    ∃ tag previousTag, NotesRead ctx previous m tag previousTag ∧
      Forge.Operation.generateNotes ∉ m.failing ∧ ∀ dryRun,
        let ctx := { ctx with dryRun }
        Delivers ctx.runner m w (notesMarks ctx tag previousTag date m)
          (m.markAll (notesMarks ctx tag previousTag date m)) (notesReports ctx tag previousTag)
          (.done (notesResult ctx tag previousTag date m))
          ((createNotes ctx previous date).run Memory.host m w) := by
  -- the tags do not depend on what may be changed
  have htags : ∀ dryRun, notesTags { ctx with dryRun } previous = notesTags ctx previous :=
    fun _ => rfl
  simp only [createNotes_eq, htags]
  rcases notesTags_run ctx previous m w with ⟨tag, previousTag, hread, hr⟩ | ⟨hno, e, hr⟩
  swap
  · exact Or.inl ⟨fun tag previousTag h => absurd h (hno tag previousTag), e, w, .refl w,
      fun _ => Flow.run_bind_of_failed _ hr⟩
  simp only [Flow.run_bind_of_done _ hr, Context.run_warning_if, notesAbout]
  have hq := (World.Quiet.refl w).noteIf previousTag.isNone
    (.warn (Console.warningLine ctx.palette (.missingPreviousVersion tag)))
  by_cases hnf : Forge.Operation.generateNotes ∈ m.failing
  · exact Or.inl ⟨fun _ _ _ => hnf, _, _, hq, fun _ => Memory.run_query_of_failing _ hnf⟩
  refine Or.inr ⟨tag, previousTag, hread, hnf, fun dryRun => .of_quiet hq ?_⟩
  refine .ask_mark rfl rfl (.log fun w => ?_)
  rw [notesMarks, notesReports, notesResult, ← Memory.markAll_mark]
  cases dryRun with
  | true =>
    simp only [if_true, Memory.markAll_nil]
    exact .print fun w => .log fun w => .done
  | false =>
    simp only [Bool.false_eq_true, if_false, pure_bind]
    refine publishNotes_delivers { ctx with dryRun := false } _ w _ _ _ _ fun m w => ?_
    exact ⟨_, (World.Quiet.refl w).note _, rfl⟩

/-- Without the tags that they are about, notes do nothing. Else they make their requests and then
tell their reports. -/
theorem createNotes_run :
    ((∀ tag previousTag, ¬ NotesRead ctx previous m tag previousTag) ∧ ∃ e w', w.Quiet w' ∧
      (createNotes ctx previous date).run Memory.host m w = (.failed e, m, w')) ∨
    ∃ tag previousTag, NotesRead ctx previous m tag previousTag ∧
      Delivers ctx.runner m w (notesMarks ctx tag previousTag date m)
        (m.markAll (notesMarks ctx tag previousTag date m)) (notesReports ctx tag previousTag)
        (.done (notesResult ctx tag previousTag date m))
        ((createNotes ctx previous date).run Memory.host m w) := by
  rcases createNotes_runs ctx previous date m w with
    ⟨hfails, e, w', hq, hr⟩ | ⟨tag, previousTag, hread, -, hrun⟩
  · replace hr : (createNotes ctx previous date).run Memory.host m w = _ := hr ctx.dryRun
    by_cases hread : ∃ tag previousTag, NotesRead ctx previous m tag previousTag
    · obtain ⟨tag, previousTag, hread⟩ := hread
      have hnil : m.accepted (notesMarks ctx tag previousTag date m) = [] :=
        Memory.accepted_cons_of_failing (hfails tag previousTag hread)
      refine Or.inr ⟨tag, previousTag, hread, Or.inl ⟨?_, e, w', hq, ?_⟩⟩
      · rw [hnil]
        exact (List.cons_ne_nil _ _).symm
      · rw [hr, hnil, Memory.markAll_nil]
    · exact Or.inl ⟨fun tag previousTag h => hread ⟨tag, previousTag, h⟩, e, w', hq, hr⟩
  · exact Or.inr ⟨tag, previousTag, hread, hrun ctx.dryRun⟩

/-! ## Notes after two tags -/

/-- **After two tags, the notes compare the second with the first.** Between the runs anything may
change but the release variable. The previous version is an output of either run: what the second
one calls the previous version, or the tag of the first one. -/
theorem notes_compare_tags {ctx₁ ctx₂ ctx : Context} (hc₂ : ctx₂.config = ctx₁.config)
    (hc : ctx.config = ctx₁.config) (hdry₁ : ctx₁.dryRun = false) (hdry₂ : ctx₂.dryRun = false)
    {p : TagPattern} (hp : ctx₁.tagPattern = .ok p) (hdist : p.Distinctive)
    {sha₁ sha₂ : String} {m₁ m₁' m₂ m₂' m : Memory} {w₁ w₁' w₂ w₂' : World} {r₁ r₂ : TagResult}
    (h₁ : (createTag ctx₁ sha₁).run Memory.host m₁ w₁ = (.done r₁, m₁', w₁'))
    (hv₁ : m₂.values.lookup ctx.config.release.versionVariable =
      m₁'.values.lookup ctx.config.release.versionVariable)
    (h₂ : (createTag ctx₂ sha₂).run Memory.host m₂ w₂ = (.done r₂, m₂', w₂'))
    (hv₂ : m.values.lookup ctx.config.release.versionVariable =
      m₂'.values.lookup ctx.config.release.versionVariable)
    (hfailing : m.failing = []) {previous : String}
    (hprevious : .output "previousVersion" previous ∈ r₂.outputs ∨
      .output "tag" previous ∈ r₁.outputs) (date : Date) (w : World) :
    (∃ block, ctx₁.runner.writeAll w₁.files (r₁.outputs ++ [.summary block]) = .ok w₁'.files) ∧
    (∃ block, ctx₂.runner.writeAll w₂.files (r₂.outputs ++ [.summary block]) = .ok w₂'.files) ∧
    ((createNotes ctx (some previous) date).run Memory.host m w).2.1.marks = m.marks ++
      .generateNotes ⟨r₂.tag, some r₁.tag, ctx.config.release.notesConfig⟩ ::
        if ctx.dryRun then [] else [.createRelease
          ⟨r₂.tag, releaseTitle r₂.tag date, m.notes, ctx.config.release.draft, false⟩] := by
  have hp' : ∀ c : Context, c.config = ctx₁.config → c.tagPattern = .ok p := fun c h => by
    rw [Context.tagPattern, h]
    exact hp
  obtain ⟨p₁, d₁, hp₁, hd₁, rfl, rfl, hfiles₁⟩ := createTag_done hdry₁ h₁
  obtain ⟨p₂, d₂, hp₂, hd₂, rfl, rfl, hfiles₂⟩ := createTag_done hdry₂ h₂
  obtain rfl : p₁ = p := Except.ok.inj (hp₁.symm.trans hp)
  obtain rfl : p₂ = p₁ := Except.ok.inj (hp₂.symm.trans (hp' ctx₂ hc₂))
  have hcurrent : d₂.current = d₁.next := by
    have hstored : m₂.values.lookup ctx₂.config.release.versionVariable = some d₁.next.text := by
      rw [hc₂, ← hc, hv₁, hc, lookup_tagged]
    exact Except.ok.inj ((hd₂.parse_eq hstored).symm.trans (Version.parse_text _))
  have hprev : p₂.previousTag previous = .ok (p₂.format d₁.next) := by
    rcases hprevious with h | h
    · obtain rfl : previous = d₂.current.text := by simpa [TagResult.outputs, tagResult] using h
      rw [hcurrent]
      exact p₂.previousTag_text hdist _
    · obtain rfl : previous = p₂.format d₁.next := by simpa [TagResult.outputs, tagResult] using h
      exact p₂.previousTag_format _
  have hread : NotesRead ctx (some previous) m (p₂.format d₂.next) (some (p₂.format d₁.next)) := by
    refine ⟨by simp [hfailing], p₂, d₂.next.text, d₂.next, hp' ctx hc, ?_, Version.parse_text _,
      rfl, ?_⟩
    · rw [hv₂, hc, ← hc₂, lookup_tagged]
    · rw [Option.mapM_some, hprev]
      rfl
  refine ⟨⟨_, hfiles₁⟩, ⟨_, hfiles₂⟩, ?_⟩
  rcases createNotes_run ctx (some previous) date m w with ⟨hno, -⟩ | ⟨tag, previousTag, h, hrun⟩
  · exact absurd hread (hno _ _)
  · obtain ⟨rfl, rfl⟩ := notesRead_unique h hread
    rw [hrun.memory, if_pos (Memory.accepted_of_failing_nil hfailing)]
    rfl

/-- The previous version is given as the text that the second run tells. -/
theorem notes_compare_minor_tags :
    let ctx : Context := ⟨⟨"acme", "notify-api"⟩,
      { release := { tagPattern := "v\x7bversion\x7d" } }, {}, false, .plain, 0, false⟩
    let m : Memory := {
      pulls := [("c0ffee", [⟨42, "https://example.com/pull/42", ["feature"]⟩])]
      values := [("RELEASE_VERSION", "1.2.3")]
      commits := [("heads/release", "f00d")] }
    let m₁ := ((createTag ctx "c0ffee").run Memory.host m {}).2.1
    let m₂ := ((createTag ctx "c0ffee").run Memory.host m₁ {}).2.1
    ((createNotes { ctx with dryRun := true } (some "1.3.0")
        ⟨2026, 1, 31, by decide, by decide, by decide⟩).run Memory.host m₂ {}).2.1.marks =
      m₂.marks ++ [.generateNotes ⟨"v1.4.0", some "v1.3.0", ".github/release.yaml"⟩] := by
  intro ctx m m₁ m₂
  have hp : ctx.tagPattern = .ok ⟨"v\x7bversion\x7d", by decide⟩ := dif_pos _
  have h₁ : (createTag ctx "c0ffee").run Memory.host m {} =
      (.done ⟨⟨1, 2, 3⟩, ⟨1, 3, 0⟩, "v1.3.0", "f00d", true⟩, m₁, _) := Prod.ext (by decide) rfl
  have h₂ : (createTag ctx "c0ffee").run Memory.host m₁ {} =
      (.done ⟨⟨1, 3, 0⟩, ⟨1, 4, 0⟩, "v1.4.0", "f00d", true⟩, m₂, _) := Prod.ext (by decide) rfl
  have hfailing : m₂.failing = [] := by decide
  have hprevious : Report.output "previousVersion" "1.3.0" ∈
      (⟨⟨1, 3, 0⟩, ⟨1, 4, 0⟩, "v1.4.0", "f00d", true⟩ : TagResult).outputs := by decide
  have hc : ({ ctx with dryRun := true } : Context).config = ctx.config := rfl
  have hdry : ctx.dryRun = false := rfl
  obtain ⟨-, -, h⟩ := notes_compare_tags (Eq.refl ctx.config) hc hdry hdry hp
    (Or.inr (Or.inr ⟨'v', by decide, by decide⟩)) h₁ rfl h₂ rfl hfailing (Or.inl hprevious)
    ⟨2026, 1, 31, by decide, by decide, by decide⟩ {}
  exact h

end Workflow

end ReleaseFlow
