import ReleaseFlow.Proofs.TagPattern.Form
import ReleaseFlow.Workflow.Notes

/-!
# The tag that a previous version names

A previous version is given as a tag or as the text of a version. A text that could be both is read
as a tag.

* `TagLike`: texts that look like a tag, whether or not a version has that tag;
* `Distinctive`: patterns for which both readings agree;
* `accepts_text`: **a version's text that is accepted is the tag of that version**;
* `previousTag_format`, `previousTag_text`: a tag and the text of a version both name the tag;
* `previousTag_eq_ok_iff`: **a text that looks like a tag names itself, and another the tag of the
  version that it gives**.
-/

namespace ReleaseFlow.TagPattern

/-- The placeholder alone, or with another one, or beside some character that is no ASCII digit. -/
def Distinctive (p : TagPattern) : Prop :=
  p.text = "\x7bversion\x7d" ∨ 2 ≤ p.template.places ∨
    ∃ c ∈ p.template.literals, Text.isAsciiDigit c = false

variable {p : TagPattern} {v : Version}

theorem two_le_count_dot {cs : List Char} (h : VersionLike cs) : 2 ≤ cs.count '.' := by
  obtain ⟨a, b, c, rfl, -⟩ := h
  simp only [List.count_append, List.count_cons_self]
  omega

/-- In an accepted tag every place brings two dots. -/
theorem le_count_dot {tag : String} (h : p.accepts tag = true) :
    p.template.literals.count '.' + 2 * p.template.places ≤ tag.toList.count '.' := by
  obtain ⟨values, hlen, hv, htag⟩ := (accepts_iff p tag).1 h
  have hsum : 2 * values.length ≤ values.flatten.count '.' := by
    clear hlen htag
    induction values with
    | nil => simp
    | cons d values ih =>
      have hd := two_le_count_dot (hv d (by simp))
      have hds := ih fun x hx => hv x (by simp [hx])
      simp only [List.length_cons, List.flatten_cons, List.count_append]
      omega
  rw [htag, Template.count_fillEach _ _ _ hlen, ← hlen]
  omega

theorem mem_of_mem_literals {tag : String} (h : p.accepts tag = true) {c : Char}
    (hc : c ∈ p.template.literals) : c ∈ tag.toList := by
  obtain ⟨values, hlen, -, htag⟩ := (accepts_iff p tag).1 h
  rw [htag]
  exact p.template.mem_fillEach_of_mem_literals hlen hc

theorem format_of_text_eq (h : p.text = "\x7bversion\x7d") (v : Version) : p.format v = v.text := by
  have ht : p.template = ⟨[], [[]]⟩ := by
    rw [template, h]
    decide
  rw [← String.toList_inj, toList_format, ht]
  simp [Template.fill]

/-- **A version's text that is accepted is the tag of that version.** -/
theorem accepts_text (hp : p.Distinctive) (h : p.accepts v.text = true) : v.text = p.format v := by
  have hdots := le_count_dot h
  rw [Version.count_text] at hdots
  have hpos := p.places_pos
  -- a version has just two dots: more places, or a dot of the pattern's own, are too many
  rcases hp with htext | htwo | ⟨c, hc, hdigit⟩
  · exact (format_of_text_eq htext v).symm
  · omega
  · by_cases hdot : c = '.'
    · subst hdot
      have := List.count_pos_iff.2 hc
      omega
    · exact absurd (mem_of_mem_literals h hc) (Version.not_mem_text hdigit hdot)

/-- The text looks like a tag of the pattern: something like a version stands in every place. -/
def TagLike (p : TagPattern) (text : String) : Prop :=
  ∃ values, values.length = p.template.places ∧ (∀ d ∈ values, VersionLike d) ∧
    text.toList = p.template.fillEach values

theorem tagLike_iff {text : String} : p.TagLike text ↔ p.accepts text = true :=
  (accepts_iff p text).symm

theorem tagLike_format (p : TagPattern) (v : Version) : p.TagLike (p.format v) :=
  tagLike_iff.2 (p.accepts_format v)

/-! ## Previous tags -/

theorem previousTag_eq_ok_iff {text t : String} : p.previousTag text = .ok t ↔
    p.TagLike text ∧ t = text ∨
      ¬ p.TagLike text ∧ ∃ v, Version.parse text = .ok v ∧ t = p.format v := by
  rw [previousTag, tagLike_iff]
  split
  · next h => simp [h, eq_comm]
  · next h =>
    cases hv : Version.parse text with
    | error e => simp [h, Except.map]
    | ok v => simp [h, Except.map, eq_comm]

theorem mapM_previousTag_some_iff {text : String} {tag : Option String} :
    (some text).mapM p.previousTag = .ok tag ↔ ∃ t, p.previousTag text = .ok t ∧ tag = some t := by
  rw [Option.mapM_some]
  cases p.previousTag text with
  | error e => simp [Functor.map, Except.map]
  | ok t => simp [Functor.map, Except.map, eq_comm]

theorem previousTag_format (p : TagPattern) (v : Version) :
    p.previousTag (p.format v) = .ok (p.format v) := by
  rw [previousTag, if_pos (p.accepts_format v)]

theorem previousTag_text (hp : p.Distinctive) (v : Version) :
    p.previousTag v.text = .ok (p.format v) := by
  rw [previousTag]
  split
  · next h => rw [accepts_text hp h]
  · rw [Version.parse_text]
    rfl

end ReleaseFlow.TagPattern
