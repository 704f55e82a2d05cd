import ReleaseFlow.Proofs.Workflow.Notes
import ReleaseFlow.Proofs.Workflow.Questions

/-!
# What notes are compared with

* `notesTags_ends`, `notesTags_asks`: the tags that notes are about, whatever the service answers;
* `notes_compare_named`: **notes are compared with a text that looks like a tag, or with the tag of
  the version that the text gives, and with nothing else**;
* `notes_compare_foreign`: a text can look like a tag that no version has, or like the tag of
  another version.
-/

namespace ReleaseFlow

open ReleaseFlow.Flow

namespace TagPattern

variable {p : TagPattern} {text t : String}

theorem tagLike_of_previousTag (h : p.previousTag text = .ok t) : p.TagLike t := by
  rcases previousTag_eq_ok_iff.1 h with ⟨hlike, rfl⟩ | ⟨-, v, -, rfl⟩
  · exact hlike
  · exact p.tagLike_format v

/-- The tag that a text names is the tag of a version, unless the text itself looks like a tag that
no version has. -/
theorem exists_format_iff (h : p.previousTag text = .ok t) :
    (∃ v, t = p.format v) ↔ (p.TagLike text → ∃ v, text = p.format v) := by
  rcases previousTag_eq_ok_iff.1 h with ⟨hlike, rfl⟩ | ⟨hnot, v, -, rfl⟩
  · exact ⟨fun h _ => h, fun h => h hlike⟩
  · exact iff_of_true ⟨v, rfl⟩ fun hlike => absurd hlike hnot

/-- The text of a version names the tag of that version, unless it looks like a tag itself. -/
theorem eq_format_of_previousTag {u : Version} (h : p.previousTag u.text = .ok t) :
    t = p.format u ∨ p.TagLike u.text ∧ t = u.text := by
  rcases previousTag_eq_ok_iff.1 h with hlike | ⟨-, v, hv, rfl⟩
  · exact Or.inr hlike
  · rw [Version.parse_text] at hv
    obtain rfl : u = v := Except.ok.inj hv
    exact Or.inl rfl

end TagPattern

namespace Workflow

variable (ctx : Context) (text : String) (date : Date)

/-- The tags that notes are about, if they are found, are those of a version and of the previous
version, whatever the service answers. -/
theorem notesTags_ends (previous : Option String) :
    (notesTags ctx previous).Ends fun tags => ∃ p v, ctx.tagPattern = .ok p ∧
      tags.1 = p.format v ∧ previous.mapM p.previousTag = .ok tags.2 := by
  refine (ends_ofExcept (Q := fun p => ctx.tagPattern = .ok p) fun _ => id).bind fun p hp => ?_
  refine Ends.bind ends_ask fun stored _ => ?_
  refine Ends.bind (Q := fun _ => True) (ends_ofExcept fun _ _ => trivial) fun current _ => ?_
  refine (ends_ofExcept (Q := fun tag => previous.mapM p.previousTag = .ok tag) fun _ => id).bind
    fun previousTag hprevious => ?_
  exact ⟨p, current, hp, rfl, hprevious⟩

theorem notesTags_asks (previous : Option String) :
    (notesTags ctx previous).Asks (Forge.Among [.getVariable]) := by
  refine (acts_ofExcept _).bind fun pattern => ?_
  refine (Forge.query_asks _ (by simp [Forge.Query.operation])).bind fun stored => ?_
  exact (acts_ofExcept _).bind fun current => (acts_ofExcept _).bind fun previousTag => trivial

theorem notesAbout_asks (tags : String × Option String) :
    (notesAbout ctx date tags).Asks fun c : Forge.Call => ∀ request,
      c.query = .generateNotes request →
        request = ⟨tags.1, tags.2, ctx.config.release.notesConfig⟩ := by
  simp only [notesAbout, pure_bind]
  refine Acts.bind (asks_ask fun request h => ?_) fun notes => ?_
  · exact (Forge.Query.generateNotes.inj h).symm
  refine (acts_log (Act.silent rfl)).bind fun _ => ?_
  split
  · refine (acts_print (Act.silent rfl)).bind fun _ => ?_
    exact (acts_log (Act.silent rfl)).bind fun _ => trivial
  · refine ((publishNotes_asks ctx _ _ _ _).mono fun c hc request h => ?_).bind fun url =>
      (acts_log (Act.silent rfl)).bind fun _ => trivial
    rw [Forge.Among, h] at hc
    simp [Forge.Query.operation] at hc

/-- **Notes are compared with what looks like a tag.** A text that looks like a tag of the pattern
is compared with as it is, whether or not a version has that tag; another text must give a version,
and its tag is compared with. So the text of a version names the tag of that version, unless it
looks like a tag itself, which for a distinctive pattern only that tag does. With any other text
notes fail before they are asked for. -/
theorem notes_compare_named :
    (createNotes ctx (some text) date).Asks (fun c : Forge.Call => ∀ request,
      c.query = .generateNotes request → ∃ p t, ctx.tagPattern = .ok p ∧
        request.previousTag = some t ∧
        (p.TagLike text ∧ t = text ∨
          ¬ p.TagLike text ∧ ∃ v, Version.parse text = .ok v ∧ t = p.format v) ∧
        p.TagLike t ∧
        ((∃ v, t = p.format v) ↔ (p.TagLike text → ∃ v, text = p.format v)) ∧
        ∀ u : Version, text = u.text →
          (t = p.format u ∨ p.TagLike text ∧ t = text) ∧ (p.Distinctive → t = p.format u)) ∧
    ((∀ p, ctx.tagPattern = .ok p → ¬ p.TagLike text ∧ ∀ v, Version.parse text ≠ .ok v) →
      (createNotes ctx (some text) date).Asks (Forge.Among [.getVariable]) ∧
      ∀ (σ : Type) (host : Host Forge.service σ) (s : σ) (w : World),
        ∃ e, ((createNotes ctx (some text) date).run host s w).1 = .failed e) := by
  rw [createNotes_eq]
  have hends := notesTags_ends ctx (some text)
  constructor
  · refine Acts.bind_of_ends ((notesTags_asks ctx _).mono fun c hc request h => ?_) hends ?_
    · rw [Forge.Among, h] at hc
      simp [Forge.Query.operation] at hc
    rintro ⟨tag, previousTag⟩ ⟨p, v, hp, rfl, hprevious⟩
    obtain ⟨t, hresolved, rfl⟩ := TagPattern.mapM_previousTag_some_iff.1 hprevious
    refine ctx.warning_if_acts (Act.silent rfl) fun _ => ?_
    refine (notesAbout_asks ctx date _).mono fun c hc request h => ?_
    obtain rfl := hc request h
    refine ⟨p, t, hp, rfl, TagPattern.previousTag_eq_ok_iff.1 hresolved,
      TagPattern.tagLike_of_previousTag hresolved, TagPattern.exists_format_iff hresolved, ?_⟩
    rintro u rfl
    refine ⟨TagPattern.eq_format_of_previousTag hresolved, fun hdist => ?_⟩
    rw [TagPattern.previousTag_text hdist] at hresolved
    exact (Except.ok.inj hresolved).symm
  · intro hforeign
    have hnone : (notesTags ctx (some text)).Ends fun _ => False := by
      refine hends.mono ?_
      rintro ⟨tag, previousTag⟩ ⟨p, v, hp, -, hprevious⟩
      obtain ⟨hlike, hparse⟩ := hforeign p hp
      obtain ⟨t, hresolved, -⟩ := TagPattern.mapM_previousTag_some_iff.1 hprevious
      rcases TagPattern.previousTag_eq_ok_iff.1 hresolved with ⟨h, -⟩ | ⟨-, v, hv, -⟩
      · exact hlike h
      · exact hparse v hv
    exact ⟨(notesTags_asks ctx _).bind_of_ends hnone fun _ h => h.elim,
      fun σ host s w => (hnone.bind (R := fun _ => False) fun _ h => h.elim).failed host s w⟩

/-- A text that is neither a tag nor a version is told before notes are asked for. -/
theorem notes_compare_named_latest :
    (∀ p, TagPattern.ofText "release-\x7bversion\x7d" = .ok p →
      ¬ p.TagLike "latest" ∧ ∀ v, Version.parse "latest" ≠ .ok v) ∧
    ∃ e, ((createNotes ⟨⟨"acme", "notify-api"⟩,
      { release := { tagPattern := "release-\x7bversion\x7d" } }, {}, false, .plain, 0, false⟩
      (some "latest") ⟨2026, 1, 31, by decide, by decide, by decide⟩).run Memory.host
      { values := [("RELEASE_VERSION", "1.3.0")] } {}).1 = .failed e := by
  have hforeign : ∀ p, TagPattern.ofText "release-\x7bversion\x7d" = .ok p →
      ¬ p.TagLike "latest" ∧ ∀ v, Version.parse "latest" ≠ .ok v := by
    refine fun p _ => ⟨fun hlike => ?_, fun v hv => ?_⟩
    -- a tag has the dots of a version
    · have hdots := TagPattern.le_count_dot (TagPattern.tagLike_iff.1 hlike)
      have hnone : "latest".toList.count '.' = 0 := by decide
      have := p.places_pos
      omega
    · have hword : (Version.parse "latest").isOk = false := by decide
      rw [hv] at hword
      cases hword
  exact ⟨hforeign, ((notes_compare_named ⟨⟨"acme", "notify-api"⟩,
    { release := { tagPattern := "release-\x7bversion\x7d" } }, {}, false, .plain, 0, false⟩
    "latest" ⟨2026, 1, 31, by decide, by decide, by decide⟩).2 hforeign).2 _ _ _ _⟩

/-- A text can look like a tag that no version has, and the text of a version can look like the tag
of another one. Notes are compared with it all the same. -/
theorem notes_compare_foreign :
    (((createNotes ⟨⟨"acme", "notify-api"⟩, {}, {}, false, .plain, 0, false⟩ (some "01.2.3")
          ⟨2026, 1, 31, by decide, by decide, by decide⟩).run Memory.host
        { values := [("RELEASE_VERSION", "1.3.0")] } {}).2.1.marks.head? =
        some (.generateNotes ⟨"1.3.0", some "01.2.3", ".github/release.yaml"⟩) ∧
      ∀ p : TagPattern, p.text = "\x7bversion\x7d" → ∀ v, p.format v ≠ "01.2.3") ∧
    (((createNotes ⟨⟨"acme", "notify-api"⟩, { release := { tagPattern := "1\x7bversion\x7d" } }, {},
          false, .plain, 0, false⟩ (some "11.2.3")
          ⟨2026, 1, 31, by decide, by decide, by decide⟩).run Memory.host
        { values := [("RELEASE_VERSION", "1.3.0")] } {}).2.1.marks.head? =
        some (.generateNotes ⟨"11.3.0", some "11.2.3", ".github/release.yaml"⟩) ∧
      (⟨11, 2, 3⟩ : Version).text = "11.2.3" ∧
      (⟨"1\x7bversion\x7d", by decide⟩ : TagPattern).format ⟨11, 2, 3⟩ = "111.2.3") := by
  refine ⟨⟨by decide +kernel, fun p hp v hv => ?_⟩, by decide +kernel, by decide, by decide⟩
  rw [TagPattern.format_of_text_eq hp] at hv
  have hleading : (Version.parse "01.2.3").isOk = false := by decide
  rw [← hv, Version.parse_text] at hleading
  cases hleading

end Workflow

end ReleaseFlow
