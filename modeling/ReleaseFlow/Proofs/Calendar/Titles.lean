import Mathlib.Data.List.Infix
import ReleaseFlow.Proofs.Calendar.Written

/-!
# Titles of releases

A title is a tag, a hyphen between two spaces, and a date. A tag may hold anything, so the date is
what stands behind the last such hyphen.

* `Text.IsBehindLast`, `Text.isBehindLast_iff`: the text behind the last occurrence of a separator;
* `Date.abbreviation`, `Date.text_eq_toUpper`: the text of a date as one in capitals;
* `Date.IsWritten`, `Date.isWritten_text`: the form of the text of a date;
* `Date.not_infix_text`: no separator begins behind the one before a date;
* `releaseTitle_identifies`: **a title tells the tag and the date**.
-/

namespace ReleaseFlow

/-! ## Behind a separator -/

namespace Text

/-- The text behind the last occurrence of a separator. -/
def IsBehindLast (sep text rest : List Char) : Prop :=
  (∃ front, text = front ++ (sep ++ rest)) ∧
    ∀ front' rest', text = front' ++ (sep ++ rest') → rest <:+ rest'

variable {sep front rest : List Char}

/-- A separator behind which no other one begins is the last. -/
theorem isBehindLast_iff (h : ¬ sep <:+: (sep ++ rest).tail) (rest' : List Char) :
    IsBehindLast sep (front ++ (sep ++ rest)) rest' ↔ rest' = rest := by
  have hlast : ∀ front' rest', front ++ (sep ++ rest) = front' ++ (sep ++ rest') →
      rest <:+ rest' := by
    intro front' rest' heq
    rcases List.append_eq_append_iff.1 heq with ⟨between, -, hsep⟩ | ⟨between, -, hsep⟩
    · cases between with
      | nil =>
        rw [List.nil_append, List.append_cancel_left_eq] at hsep
        rw [hsep]
      -- the other separator would begin behind the first character of this one
      | cons c between =>
        refine absurd ?_ h
        rw [hsep, List.cons_append, List.tail_cons]
        exact ((List.prefix_append sep rest').isInfix).trans (List.suffix_append between _).isInfix
    · have hsuffix : rest <:+ sep ++ rest' := by
        rw [hsep]
        exact (List.suffix_append sep rest).trans (List.suffix_append between _)
      refine List.suffix_of_suffix_length_le hsuffix (List.suffix_append sep rest') ?_
      have hlength := congrArg List.length hsep
      simp only [List.length_append] at hlength
      omega
  constructor
  · rintro ⟨⟨front', hfront⟩, hother⟩
    have hle : rest' <:+ rest := hother front rest rfl
    exact hle.eq_of_length_le (hlast front' rest' hfront).length_le
  · rintro rfl
    exact ⟨⟨front, rfl⟩, hlast⟩

theorem infix_of_not_mem {c : Char} {cs part text : List Char} (h : c ∉ cs)
    (hin : c :: part <:+: cs ++ text) : c :: part <:+: text := by
  induction cs with
  | nil => exact hin
  | cons d cs ih =>
    rcases List.infix_cons_iff.1 hin with hfront | hin
    · exact absurd ((List.cons_prefix_cons.1 hfront).1 ▸ List.mem_cons_self) h
    · exact ih (fun hc => h (List.mem_cons_of_mem d hc)) hin

end Text

/-! ## Dates in titles -/

/-- What stands between the tag and the date. -/
def titleSeparator : List Char := [' ', '-', ' ']

namespace Date

/-- The English name of a month, by three letters. -/
def abbreviation (month : Nat) : String :=
  match month with
  | 1 => "Jan"
  | 2 => "Feb"
  | 3 => "Mar"
  | 4 => "Apr"
  | 5 => "May"
  | 6 => "Jun"
  | 7 => "Jul"
  | 8 => "Aug"
  | 9 => "Sep"
  | 10 => "Oct"
  | 11 => "Nov"
  | _ => "Dec"

theorem map_toUpper_abbreviation : ∀ m ∈ [1, 2, 3, 4, 5, 6, 7, 8, 9, 10, 11, 12],
    (abbreviation m).toList.map Char.toUpper = (monthText m).toList := by
  decide

theorem toUpper_abbreviation (d : Date) : (abbreviation d.month).toUpper = monthText d.month := by
  refine String.toList_inj.1 ?_
  rw [String.toUpper, String.toList_map, map_toUpper_abbreviation d.month d.month_mem]

/-- The text has no small letter. -/
def HasNoSmall (text : String) : Prop :=
  ∀ c ∈ text.toList, c.toNat < 'a'.toNat

theorem toUpper_of_hasNoSmall {text : String} (h : HasNoSmall text) : text.toUpper = text := by
  refine String.toList_inj.1 ?_
  rw [String.toUpper, String.toList_map]
  refine (List.map_congr_left fun c hc => ?_).trans (List.map_id _)
  have hsmall : ¬ (c.val ≥ 'a'.val ∧ c.val ≤ 'z'.val) := fun hletter =>
    Nat.not_lt.2 (UInt32.le_iff_toNat_le.1 hletter.1) (h c hc)
  exact dif_neg hsmall

theorem toUpper_append (text text' : String) :
    (text ++ text').toUpper = text.toUpper ++ text'.toUpper := by
  refine String.toList_inj.1 ?_
  simp only [String.toUpper, String.toList_map, String.toList_append, List.map_append]

theorem digit_lt_small {c : Char} (h : Text.isAsciiDigit c = true) : c.toNat < 'a'.toNat := by
  rw [Text.isAsciiDigit, Bool.and_eq_true, decide_eq_true_eq, decide_eq_true_eq] at h
  exact Nat.lt_of_le_of_lt (UInt32.le_iff_toNat_le.1 h.2) (by decide)

theorem hasNoSmall_padded {width : Nat} (hwidth : 0 < width) (n : Nat) :
    HasNoSmall (Text.padded width n) := fun c hc =>
  digit_lt_small ((Text.isNumeral_padded hwidth n).digits c hc)

theorem hasNoSmall_yearText (year : Int) : HasNoSmall (yearText year) := by
  intro c hc
  rw [toList_yearText] at hc
  rcases List.mem_append.1 hc with hsign | hdigit
  · unfold yearSign at hsign
    split_ifs at hsign
    · cases hsign
    · rw [List.mem_singleton.1 hsign]
      decide
    · rw [List.mem_singleton.1 hsign]
      decide
  · exact hasNoSmall_padded (by decide) _ c hdigit

/-- The text is that of the date in capitals: only the name of the month has small letters. -/
theorem text_eq_toUpper (d : Date) : d.text =
    (Text.padded 2 d.day ++ " " ++ abbreviation d.month ++ " " ++ yearText d.year).toUpper := by
  have hspace : " ".toUpper = " " := by
    refine toUpper_of_hasNoSmall fun c hc => ?_
    rw [List.mem_singleton.1 hc]
    decide
  have hday : (Text.padded 2 d.day).toUpper = Text.padded 2 d.day :=
    toUpper_of_hasNoSmall (hasNoSmall_padded (by decide) d.day)
  have hyear := toUpper_of_hasNoSmall (hasNoSmall_yearText d.year)
  simp only [toUpper_append, hspace, toUpper_abbreviation, hday, hyear]
  rw [text]

/-- A day with two digits, the name of a month in capitals and a year with at least four digits,
with a sign when it lies outside of 0 to 9999. -/
def IsWritten (d : Date) (text : List Char) : Prop :=
  ∃ day year, day.length = 2 ∧ Text.IsNumeral 2 d.day day ∧
    Text.IsNumeral 4 d.year.natAbs year ∧
    text = day ++ ' ' :: ((abbreviation d.month).toUpper.toList ++ ' ' :: (yearSign d.year ++ year))

theorem isWritten_text (d : Date) : d.IsWritten d.text.toList :=
  ⟨_, _, d.length_day, Text.isNumeral_padded (by decide) _, Text.isNumeral_padded (by decide) _,
    by rw [d.toUpper_abbreviation, toList_text, toList_yearText]⟩

theorem hyphen_not_mem_monthText : ∀ m ∈ [1, 2, 3, 4, 5, 6, 7, 8, 9, 10, 11, 12],
    '-' ∉ (monthText m).toList := by
  decide

theorem not_infix_yearText (year : Int) : ¬ ['-', ' '] <:+: (yearText year).toList := by
  have hhyphen : '-' ∉ (Text.padded 4 year.natAbs).toList :=
    Text.not_mem_padded (by decide) (by decide) _
  have hspace : ' ' ∉ (Text.padded 4 year.natAbs).toList :=
    Text.not_mem_padded (by decide) (by decide) _
  intro hin
  rw [toList_yearText] at hin
  generalize (Text.padded 4 year.natAbs).toList = digits at hhyphen hspace hin
  have hdigits : ¬ ['-', ' '] <:+: digits := fun hin => hhyphen (hin.subset List.mem_cons_self)
  unfold yearSign at hin
  split_ifs at hin
  · exact hdigits hin
  · rcases List.infix_cons_iff.1 hin with hfront | hin
    · exact hspace ((List.cons_prefix_cons.1 hfront).2.subset List.mem_cons_self)
    · exact hdigits hin
  · exact hdigits (Text.infix_of_not_mem (by decide) hin)

/-- No separator begins behind the one before a date. -/
theorem not_infix_text (d : Date) :
    ¬ titleSeparator <:+: (titleSeparator ++ d.text.toList).tail := by
  have hfront : '-' ∉ (Text.padded 2 d.day).toList ++ ' ' :: ((monthText d.month).toList ++
      [' ']) := by
    have hday : '-' ∉ (Text.padded 2 d.day).toList :=
      Text.not_mem_padded (by decide) (by decide) _
    simp only [List.mem_append, List.mem_cons, List.not_mem_nil, or_false, not_or]
    exact ⟨hday, by decide, hyphen_not_mem_monthText d.month d.month_mem, by decide⟩
  have htext : d.text.toList = ((Text.padded 2 d.day).toList ++ ' ' ::
      ((monthText d.month).toList ++ [' '])) ++ (yearText d.year).toList := by
    rw [d.toList_text]
    simp
  have hhyphen : ¬ ['-', ' '] <:+: d.text.toList := fun hin => by
    rw [htext] at hin
    exact not_infix_yearText d.year (Text.infix_of_not_mem hfront hin)
  intro hin
  have htail : (titleSeparator ++ d.text.toList).tail = '-' :: ' ' :: d.text.toList := rfl
  rw [htail] at hin
  -- it begins neither with the hyphen nor with the space behind it
  rcases List.infix_cons_iff.1 hin with hbegin | hin
  · exact absurd (List.cons_prefix_cons.1 hbegin).1 (by decide)
  have hsecond : ['-', ' '] <:+: d.text.toList := by
    rcases List.infix_cons_iff.1 hin with hbegin | hin
    · exact (List.cons_prefix_cons.1 hbegin).2.isInfix
    · exact (List.suffix_cons ' ' ['-', ' ']).isInfix.trans hin
  exact hhyphen hsecond

end Date

/-- **A title tells the tag and the date.** The date stands behind the last separator, whatever the
tag holds. -/
theorem releaseTitle_identifies (t₁ t₂ : String) (d₁ d₂ : Date) :
    (releaseTitle t₁ d₁ = releaseTitle t₂ d₂ ↔ t₁ = t₂ ∧ d₁ = d₂) ∧
    (∀ rest, Text.IsBehindLast titleSeparator (releaseTitle t₁ d₁).toList rest ↔
      rest = d₁.text.toList) ∧
    d₁.IsWritten d₁.text.toList ∧
    releaseTitle t₁ d₁ = t₁ ++ " - " ++ (Text.padded 2 d₁.day ++ " " ++
      Date.abbreviation d₁.month ++ " " ++ yearText d₁.year).toUpper := by
  have hlast : ∀ (t : String) (d : Date) rest,
      Text.IsBehindLast titleSeparator (releaseTitle t d).toList rest ↔ rest = d.text.toList := by
    intro t d rest
    have hsep : " - ".toList = titleSeparator := by decide
    have htitle : (releaseTitle t d).toList = t.toList ++ (titleSeparator ++ d.text.toList) := by
      rw [releaseTitle, String.toList_append, String.toList_append, List.append_assoc, hsep]
    rw [htitle]
    exact Text.isBehindLast_iff d.not_infix_text rest
  refine ⟨⟨fun h => ?_, fun h => by rw [h.1, h.2]⟩, hlast t₁ d₁, d₁.isWritten_text, ?_⟩
  · have hdate := (hlast t₁ d₁ _).2 rfl
    rw [h, hlast t₂ d₂, String.toList_inj] at hdate
    obtain rfl := Date.text_injective hdate
    refine ⟨?_, rfl⟩
    unfold releaseTitle at h
    exact (String.append_left_inj " - ").1 ((String.append_left_inj d₁.text).1 h)
  · rw [← Date.text_eq_toUpper, releaseTitle]

end ReleaseFlow
