import Mathlib.Data.List.TakeWhile
import ReleaseFlow.Proofs.Version.Text

/-!
# The texts that are versions

* `Semantic.of_number`, `Semantic.of_dot`, `Semantic.of_marked`: what each part of the grammar has
  taken from the text;
* `Semantic.of_parse`: **a text that is read as numbers alone is their text**;
* `Version.IsTriple`, `Version.exists_text_iff`: the texts of versions, told without versions;
* `Version.parse_eq_ok_iff`: the texts that are read as a version;
* `Version.reads_exactly_versions`: **every version is read, and nothing else**.
-/

namespace ReleaseFlow

namespace Semantic

/-! ## The parts of the grammar -/

variable {part : Part} {cs rest : List Char}

theorem of_number {n : UInt64} (h : number part cs = .ok (n, rest)) :
    cs = (Text.decimal n.toNat).toList ++ rest := by
  have hcut := List.takeWhile_append_dropWhile (p := Text.isAsciiDigit) (l := cs)
  have hdigits : ∀ c ∈ cs.takeWhile Text.isAsciiDigit, Text.isAsciiDigit c = true :=
    fun c hc => List.mem_takeWhile_imp hc
  unfold number at h
  dsimp only at h
  generalize cs.takeWhile Text.isAsciiDigit = ds at h hcut hdigits
  split at h
  · split at h <;> cases h
  · cases h
  · next hne hzero =>
    split at h
    · next hlt =>
      cases h
      have hdecimal : Text.IsDecimal ds := by
        refine ⟨hne, hdigits, fun hhead => ?_⟩
        obtain ⟨c, tail, rfl⟩ := List.exists_cons_of_ne_nil hne
        obtain rfl : c = '0' := Option.some.inj hhead
        cases tail with
        | nil => rfl
        | cons d tail => exact absurd rfl (hzero d tail)
      rw [UInt64.toNat_ofNat_of_lt' hlt, Text.decimal_digitsValue hdecimal, hcut]
    · cases h

theorem of_dot (h : dot part cs = .ok rest) : cs = '.' :: rest := by
  unfold dot at h
  split at h
  · cases h
  · cases h
    rfl
  · cases h

theorem of_marked {mark : Char} (h : marked mark part cs = .ok (none, rest)) : rest = cs := by
  unfold marked at h
  split at h
  · cases h
    rfl
  · split at h
    · next c cs _ =>
      cases hsegments : segments part cs with
      | error f => rw [hsegments] at h; cases h
      | ok p => rw [hsegments] at h; cases h
    · cases h
      rfl

theorem of_bind_ok {α β : Type} {x : Except Fault α} {f : α → Except Fault β} {b : β}
    (h : x >>= f = .ok b) : ∃ a, x = .ok a ∧ f a = .ok b := by
  cases x with
  | error e => cases h
  | ok a => exact ⟨a, rfl, h⟩

theorem of_parse {v : Version} (h : parse cs = .ok ⟨v, none, none⟩) : cs = v.text.toList := by
  unfold parse at h
  split at h
  · cases h
  obtain ⟨⟨major, cs₁⟩, hmajor, h⟩ := of_bind_ok h
  obtain ⟨cs₂, hdot, h⟩ := of_bind_ok h
  obtain ⟨⟨minor, cs₃⟩, hminor, h⟩ := of_bind_ok h
  obtain ⟨cs₄, hdot', h⟩ := of_bind_ok h
  obtain ⟨⟨patch, cs₅⟩, hpatch, h⟩ := of_bind_ok h
  obtain ⟨⟨preRelease, cs₆⟩, hpre, h⟩ := of_bind_ok h
  obtain ⟨⟨build, cs₇⟩, hbuild, h⟩ := of_bind_ok h
  dsimp only at hdot hminor hdot' hpatch hpre hbuild h
  cases cs₇ with
  | cons c tail => cases h
  | nil =>
    cases h
    have hend : cs₅ = [] := (of_marked hpre).symm.trans (of_marked hbuild).symm
    rw [of_number hmajor, of_dot hdot, of_number hminor, of_dot hdot', of_number hpatch, hend,
      List.append_nil, Version.toList_text]

theorem parse_eq_numbers_iff {v : Version} :
    parse cs = .ok ⟨v, none, none⟩ ↔ cs = v.text.toList := by
  refine ⟨of_parse, ?_⟩
  rintro rfl
  exact Version.semanticParse_text v

end Semantic

namespace Version

variable {s : String} {v : Version}

/-! ## Three numbers -/

/-- A decimal number that 64 bits hold. -/
def IsNumber (ds : List Char) : Prop :=
  Text.IsDecimal ds ∧ Text.digitsValue ds < UInt64.size

theorem isNumber_decimal (n : UInt64) : IsNumber (Text.decimal n.toNat).toList := by
  refine ⟨Text.isDecimal_decimal _, ?_⟩
  rw [Text.digitsValue_decimal]
  exact n.toNat_lt_size

theorem exists_decimal {ds : List Char} (h : IsNumber ds) :
    ∃ n : UInt64, (Text.decimal n.toNat).toList = ds := by
  refine ⟨UInt64.ofNat (Text.digitsValue ds), ?_⟩
  rw [UInt64.toNat_ofNat_of_lt' h.2, Text.decimal_digitsValue h.1]

/-- Three numbers between dots, each of which 64 bits hold. -/
def IsTriple (cs : List Char) : Prop :=
  ∃ major minor patch, IsNumber major ∧ IsNumber minor ∧ IsNumber patch ∧
    cs = major ++ '.' :: (minor ++ '.' :: patch)

theorem exists_text_iff {cs : List Char} : (∃ v : Version, v.text.toList = cs) ↔ IsTriple cs := by
  constructor
  · rintro ⟨v, rfl⟩
    exact ⟨_, _, _, isNumber_decimal _, isNumber_decimal _, isNumber_decimal _, toList_text v⟩
  · rintro ⟨_, _, _, hmajor, hminor, hpatch, rfl⟩
    obtain ⟨major, rfl⟩ := exists_decimal hmajor
    obtain ⟨minor, rfl⟩ := exists_decimal hminor
    obtain ⟨patch, rfl⟩ := exists_decimal hpatch
    exact ⟨⟨major, minor, patch⟩, toList_text _⟩

/-! ## Release versions -/

theorem dropLetter_eq_text_iff {cs : List Char} : dropLetter cs = v.text.toList ↔
    cs = v.text.toList ∨ cs = 'v' :: v.text.toList ∨ cs = 'V' :: v.text.toList := by
  constructor
  · intro h
    cases cs with
    | nil => exact Or.inl h
    | cons c cs =>
      rw [dropLetter] at h
      split at h
      · next hc =>
        rw [Bool.or_eq_true, decide_eq_true_eq, decide_eq_true_eq] at hc
        rcases hc with rfl | rfl
        · exact Or.inr (Or.inl (congrArg ('v' :: ·) h))
        · exact Or.inr (Or.inr (congrArg ('V' :: ·) h))
      · exact Or.inl h
  · rintro (rfl | rfl | rfl)
    · exact dropLetter_text v
    · rfl
    · rfl

/-- The text is a version with blanks around it, perhaps, and a letter in front. -/
theorem parse_eq_ok_iff : Version.parse s = .ok v ↔
    Text.trim s = v.text ∨ Text.trim s = "v" ++ v.text ∨ Text.trim s = "V" ++ v.text := by
  have hread : Version.parse s = .ok v ↔
      Semantic.parse (dropLetter (Text.trimChars s.toList)) = .ok ⟨v, none, none⟩ := by
    unfold Version.parse
    cases Semantic.parse (dropLetter (Text.trimChars s.toList)) with
    | error f => simp
    | ok p =>
      obtain ⟨core, preRelease, build⟩ := p
      cases preRelease <;> cases build <;> simp
  have htext : ∀ t : String, Text.trim s = t ↔ Text.trimChars s.toList = t.toList := by
    intro t
    rw [Text.trim, ← String.toList_inj, String.toList_ofList]
  rw [hread, Semantic.parse_eq_numbers_iff, dropLetter_eq_text_iff, htext, htext, htext]
  simp

/-- **Every version is read, and nothing else.** A text is read as a version if and only if it is
the text of the version, without the blanks around it and without one letter in front. These texts
are three numbers between dots, without leading zeros, each of which 64 bits hold. All others are
faulty versions, and every version is read back from its text. -/
theorem reads_exactly_versions :
    (∀ (s : String) (v : Version), Version.parse s = .ok v ↔
      Text.trim s = v.text ∨ Text.trim s = "v" ++ v.text ∨ Text.trim s = "V" ++ v.text) ∧
    (∀ cs : List Char, (∃ v : Version, v.text.toList = cs) ↔ IsTriple cs) ∧
    (∀ s : String, (¬ ∃ v, Version.parse s = .ok v) ↔
      ∃ detail, Version.parse s = .error (.version detail)) ∧
    ∀ v : Version, Version.parse v.text = .ok v := by
  refine ⟨fun s v => parse_eq_ok_iff, fun cs => exists_text_iff, fun s => ?_, parse_text⟩
  cases hparse : Version.parse s with
  | ok v => simp
  | error failure =>
    obtain ⟨detail, rfl⟩ := of_parse_error hparse
    simp

end Version

end ReleaseFlow
