import ReleaseFlow.Proofs.Text.Decimal
import ReleaseFlow.Proofs.Text.Trimmed
import ReleaseFlow.Version.Grammar

/-!
# The text of a version

* `mem_text`: the text is made of digits and dots; `count_text`: it has two dots;
* `parse_text`: **a version is read back from its text**;
* `of_parse_error`: the one kind of failure;
* `text_injective`: different versions have different texts.
-/

namespace ReleaseFlow

/-! ## Reading numbers -/

namespace Semantic

theorem number_decimal (part : Part) (n : UInt64) {rest : List Char}
    (hr : ∀ c cs, rest = c :: cs → Text.isAsciiDigit c = false) :
    number part ((Text.decimal n.toNat).toList ++ rest) = .ok (n, rest) := by
  have hd : ∀ c ∈ (Text.decimal n.toNat).toList, Text.isAsciiDigit c = true :=
    fun c hc => Text.isAsciiDigit_of_mem_decimal hc
  simp only [number, Text.takeWhile_digits_append hd hr, Text.dropWhile_digits_append hd hr]
  split
  · next h => exact absurd h (Text.decimal_ne_nil _)
  · next h => exact absurd h (Text.decimal_ne_zero_cons _ _ _)
  · rw [Text.digitsValue_decimal, if_pos n.toNat_lt, UInt64.ofNat_toNat]

end Semantic

namespace Version

/-! ## The characters of the text -/

theorem toList_text (v : Version) : v.text.toList =
    (Text.decimal v.major.toNat).toList ++ '.' :: ((Text.decimal v.minor.toNat).toList ++
      '.' :: (Text.decimal v.patch.toNat).toList) := by
  simp [text]

theorem mem_text {v : Version} {c : Char} (h : c ∈ v.text.toList) :
    Text.isAsciiDigit c = true ∨ c = '.' := by
  rw [toList_text] at h
  simp only [List.mem_append, List.mem_cons] at h
  rcases h with h | rfl | h | rfl | h
  · exact Or.inl (Text.isAsciiDigit_of_mem_decimal h)
  · exact Or.inr rfl
  · exact Or.inl (Text.isAsciiDigit_of_mem_decimal h)
  · exact Or.inr rfl
  · exact Or.inl (Text.isAsciiDigit_of_mem_decimal h)

theorem not_mem_text {v : Version} {c : Char} (hd : Text.isAsciiDigit c = false) (hc : c ≠ '.') :
    c ∉ v.text.toList := by
  intro h
  rcases mem_text h with h | h
  · rw [hd] at h; exact Bool.noConfusion h
  · exact hc h

theorem count_dot_decimal (n : Nat) : (Text.decimal n).toList.count '.' = 0 := by
  rw [List.count_eq_zero]
  intro h
  exact absurd (Text.isAsciiDigit_of_mem_decimal h) (by decide)

theorem count_text (v : Version) : v.text.toList.count '.' = 2 := by
  rw [toList_text]
  simp [count_dot_decimal]

/-! ## Reading the text -/

theorem trimChars_text (v : Version) : Text.trimChars v.text.toList = v.text.toList := by
  have hb : ∀ c ∈ v.text.toList, Text.isBlank c = false := by
    intro c hc
    rcases mem_text hc with h | rfl
    · simp only [Text.isAsciiDigit, Bool.and_eq_true, decide_eq_true_eq] at h
      have h0 : 48 ≤ c.toNat := UInt32.le_iff_toNat_le.1 h.1
      have h9 : c.toNat ≤ 57 := UInt32.le_iff_toNat_le.1 h.2
      simp only [Text.isBlank, Bool.or_eq_false_iff, Bool.and_eq_false_iff, decide_eq_false_iff_not,
        beq_eq_false_iff_ne]
      omega
    · decide
  exact Text.trimChars_of_isTrimmed (Text.isTrimmed_of_not_blank hb)

theorem dropLetter_text (v : Version) : dropLetter v.text.toList = v.text.toList := by
  have hv : 'v' ∉ v.text.toList := not_mem_text (by decide) (by decide)
  have hV : 'V' ∉ v.text.toList := not_mem_text (by decide) (by decide)
  cases h : v.text.toList with
  | nil => rfl
  | cons c cs =>
    rw [h] at hv hV
    have h1 : c ≠ 'v' := fun e => hv (e ▸ List.mem_cons_self)
    have h2 : c ≠ 'V' := fun e => hV (e ▸ List.mem_cons_self)
    simp [dropLetter, h1, h2]

theorem semanticParse_text (v : Version) :
    Semantic.parse v.text.toList = .ok ⟨v, none, none⟩ := by
  have hdot : ∀ (d : List Char) (c : Char) (cs : List Char), '.' :: d = c :: cs →
      Text.isAsciiDigit c = false := by
    intro d c cs h
    cases h
    decide
  have hne : v.text.toList ≠ [] := by rw [toList_text]; simp
  have hpatch : Semantic.number .patch (Text.decimal v.patch.toNat).toList = .ok (v.patch, []) := by
    rw [← List.append_nil (Text.decimal v.patch.toNat).toList]
    exact Semantic.number_decimal .patch v.patch (by simp)
  rw [Semantic.parse, if_neg hne, toList_text]
  simp only [Semantic.number_decimal _ _ (hdot _), Semantic.dot, hpatch, Semantic.marked, bind,
    Except.bind, pure, Except.pure]

/-- **A version is read back from its text.** -/
theorem parse_text (v : Version) : Version.parse v.text = .ok v := by
  rw [Version.parse, trimChars_text, dropLetter_text, semanticParse_text]
  rfl

/-- A text that is no version is a failure of one kind. -/
theorem of_parse_error {text : String} {e : Failure} (h : Version.parse text = .error e) :
    ∃ detail, e = .version detail := by
  unfold Version.parse at h
  split at h
  · exact ⟨_, (Except.error.inj h).symm⟩
  · split at h
    · exact ⟨_, (Except.error.inj h).symm⟩
    · cases h

theorem text_injective : Function.Injective Version.text := by
  intro v w h
  have h' := parse_text v
  rw [h, parse_text w] at h'
  exact (Except.ok.inj h').symm

end Version

end ReleaseFlow
