import Mathlib.Tactic.SplitIfs
import ReleaseFlow.Calendar
import ReleaseFlow.Proofs.Text.Decimal

/-!
# Written dates

* `yearSign`, `toList_yearText`: the sign of a year and the digits behind it;
* `yearText_injective`: **different years have different texts**;
* `Date.toList_text`: the text of a date, piece by piece;
* `Date.text_injective`: **different dates have different texts**.
-/

namespace ReleaseFlow

/-! ## Years -/

/-- The sign of a year: none for the years from 0 to 9999. -/
def yearSign (year : Int) : List Char :=
  if 0 ≤ year ∧ year ≤ 9999 then [] else if year < 0 then ['-'] else ['+']

theorem toList_yearText (year : Int) :
    (yearText year).toList = yearSign year ++ (Text.padded 4 year.natAbs).toList := by
  rw [yearText, yearSign]
  by_cases h : 0 ≤ year ∧ year ≤ 9999
  · have hfour : (decide (0 ≤ year) && decide (year ≤ 9999)) = true := by simpa using h
    rw [if_pos h, if_pos hfour, List.nil_append]
  · have hsigned : ¬ (decide (0 ≤ year) && decide (year ≤ 9999)) = true := by simpa using h
    rw [if_neg h, if_neg hsigned, String.toList_append]
    split_ifs <;> rfl

theorem not_digit_of_mem_yearSign {year : Int} {c : Char} (h : c ∈ yearSign year) :
    Text.isAsciiDigit c = false := by
  unfold yearSign at h
  split_ifs at h
  · cases h
  · rw [List.mem_singleton.1 h]
    rfl
  · rw [List.mem_singleton.1 h]
    rfl

theorem takeWhile_yearText (year : Int) :
    (yearText year).toList.takeWhile (fun c => !Text.isAsciiDigit c) = yearSign year := by
  have hdigits : Text.IsNumeral 4 year.natAbs _ := Text.isNumeral_padded (by decide) _
  obtain ⟨c, cs, hcons⟩ := List.exists_cons_of_length_pos (Nat.lt_of_lt_of_le (by decide)
    hdigits.wide)
  have hsign : ∀ c ∈ yearSign year, (!Text.isAsciiDigit c) = true := fun c hc => by
    rw [not_digit_of_mem_yearSign hc]
    rfl
  rw [toList_yearText, List.takeWhile_append_of_pos hsign, hcons, List.takeWhile_cons,
    hdigits.digits c (hcons ▸ List.mem_cons_self)]
  simp

/-- **Different years have different texts.** -/
theorem yearText_injective : Function.Injective yearText := by
  intro y z h
  have hsign : yearSign y = yearSign z := by
    rw [← takeWhile_yearText, h, takeWhile_yearText]
  have hchars := congrArg String.toList h
  rw [toList_yearText, toList_yearText, hsign, List.append_cancel_left_eq, String.toList_inj]
    at hchars
  have habs := Text.padded_injective 4 hchars
  -- years with the same digits and the same sign
  unfold yearSign at hsign
  split_ifs at hsign <;> simp at hsign <;> omega

/-! ## Dates -/

theorem daysInMonth_le (year : Int) (month : Nat) : daysInMonth year month ≤ 31 := by
  unfold daysInMonth
  split
  · split_ifs <;> decide
  all_goals decide

namespace Date

theorem toList_text (d : Date) : d.text.toList = (Text.padded 2 d.day).toList ++
    ' ' :: ((monthText d.month).toList ++ ' ' :: (yearText d.year).toList) := by
  have hspace : " ".toList = [' '] := rfl
  simp only [text, String.toList_append, hspace, List.append_assoc, List.cons_append,
    List.nil_append]

theorem month_mem (d : Date) : d.month ∈ [1, 2, 3, 4, 5, 6, 7, 8, 9, 10, 11, 12] := by
  have hmonth := d.isMonth
  simp only [List.mem_cons, List.not_mem_nil, or_false]
  omega

theorem day_le (d : Date) : d.day ≤ 31 :=
  Nat.le_trans d.isDay.2 (daysInMonth_le d.year d.month)

theorem length_day (d : Date) : (Text.padded 2 d.day).toList.length = 2 :=
  Text.length_padded (by decide) (Nat.lt_of_le_of_lt d.day_le (by decide))

theorem monthText_inj : ∀ m ∈ [1, 2, 3, 4, 5, 6, 7, 8, 9, 10, 11, 12],
    (monthText m).toList.length = 3 ∧ ∀ n ∈ [1, 2, 3, 4, 5, 6, 7, 8, 9, 10, 11, 12],
      monthText m = monthText n → m = n := by
  decide

/-- **Different dates have different texts.** -/
theorem text_injective : Function.Injective text := by
  intro d e h
  have hchars := congrArg String.toList h
  rw [toList_text, toList_text] at hchars
  obtain ⟨hday, hchars⟩ := List.append_inj hchars (d.length_day.trans e.length_day.symm)
  obtain ⟨hlength, hmonths⟩ := monthText_inj d.month d.month_mem
  obtain ⟨hmonth, hchars⟩ := List.append_inj (List.cons.inj hchars).2
    (hlength.trans (monthText_inj e.month e.month_mem).1.symm)
  have hyear := yearText_injective (String.toList_inj.1 (List.cons.inj hchars).2)
  have hmonth' := hmonths e.month e.month_mem (String.toList_inj.1 hmonth)
  have hday' := Text.padded_injective 2 (String.toList_inj.1 hday)
  cases d
  cases e
  simp only at hyear hmonth' hday'
  subst hyear hmonth' hday'
  rfl

end Date

end ReleaseFlow
