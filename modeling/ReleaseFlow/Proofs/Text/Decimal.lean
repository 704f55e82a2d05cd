import Mathlib.Algebra.Group.Nat.Defs
import Mathlib.Data.List.Basic
import ReleaseFlow.Text.Decimal

/-!
# Decimal text

* `isAsciiDigit_of_mem_decimal`, `decimal_ne_nil`: the text of a number is made of digits;
* `digitsValue_decimal`: **the text of a number stands for the number**;
* `decimal_ne_zero_cons`: it has no leading zero;
* `IsDecimal`, `decimal_digitsValue`: **digits without a leading zero are the text of their value**;
* `IsNumeral`, `isNumeral_padded`: **a number with zeros in front up to a width**;
* `padded_injective`, `length_padded`: different numbers have different texts, and those below a
  power of ten have as many digits as the width;
* `takeWhile_digits_append`, `dropWhile_digits_append`: where the digits end.
-/

namespace ReleaseFlow.Text

theorem toList_decimal (n : Nat) : (decimal n).toList = Nat.toDigits 10 n :=
  Nat.toList_repr

theorem isAsciiDigit_of_mem_decimal {n : Nat} {c : Char} (h : c ∈ (decimal n).toList) :
    isAsciiDigit c = true := by
  rw [toList_decimal] at h
  exact Nat.isDigit_of_mem_toDigits (by decide) (by decide) h

theorem decimal_ne_nil (n : Nat) : (decimal n).toList ≠ [] := by
  rw [toList_decimal]
  exact Nat.toDigits_ne_nil

/-- **The text of a number stands for the number.** -/
theorem digitsValue_decimal (n : Nat) : digitsValue (decimal n).toList = n := by
  rw [toList_decimal]
  exact Nat.ofDigitChars_ten_toDigits

theorem digitChar_ne_zero : ∀ d < 10, 0 < d → Nat.digitChar d ≠ '0' := by decide

theorem head_toDigits_ne_zero {n : Nat} (hn : 0 < n) : (Nat.toDigits 10 n).head? ≠ some '0' := by
  induction n using Nat.strongRecOn with
  | ind n ih =>
    rw [Nat.toDigits_eq_if (by decide)]
    split
    · next h => simpa using digitChar_ne_zero n h hn
    · rw [List.head?_append_of_ne_nil _ Nat.toDigits_ne_nil]
      exact ih (n / 10) (by omega) (by omega)

theorem decimal_ne_zero_cons (n : Nat) (c : Char) (cs : List Char) :
    (decimal n).toList ≠ '0' :: c :: cs := by
  rw [toList_decimal]
  intro h
  rcases Nat.eq_zero_or_pos n with rfl | hn
  · simp at h
  · exact head_toDigits_ne_zero hn (by rw [h]; rfl)

/-! ## Digits without a leading zero -/

/-- A decimal number as it is written: digits without a leading zero. -/
def IsDecimal (ds : List Char) : Prop :=
  ds ≠ [] ∧ (∀ c ∈ ds, isAsciiDigit c = true) ∧ (ds.head? = some '0' → ds = ['0'])

theorem digitChar_of_isAsciiDigit {c : Char} (h : isAsciiDigit c = true) :
    c.toNat - '0'.toNat < 10 ∧ Nat.digitChar (c.toNat - '0'.toNat) = c := by
  simp only [isAsciiDigit, Bool.and_eq_true, decide_eq_true_eq] at h
  have h0 : 48 ≤ c.toNat := UInt32.le_iff_toNat_le.1 h.1
  have h9 : c.toNat ≤ 57 := UInt32.le_iff_toNat_le.1 h.2
  have hzero : '0'.toNat = 48 := rfl
  have hlt : c.toNat - 48 < 10 := by omega
  rw [hzero]
  refine ⟨hlt, Char.toNat_inj.1 ?_⟩
  rw [Nat.toNat_digitChar_of_lt_ten hlt]
  omega

/-- Digits behind a positive number write the number that they lead to. -/
theorem toDigits_append {ds : List Char} (hd : ∀ c ∈ ds, isAsciiDigit c = true) {n : Nat}
    (hn : 0 < n) : Nat.toDigits 10 n ++ ds =
      Nat.toDigits 10 (ds.foldl (fun n c => 10 * n + (c.toNat - '0'.toNat)) n) := by
  induction ds generalizing n with
  | nil => exact List.append_nil _
  | cons c ds ih =>
    obtain ⟨hlt, hchar⟩ := digitChar_of_isAsciiDigit (hd c List.mem_cons_self)
    have hone : Nat.toDigits 10 n ++ [c] = Nat.toDigits 10 (10 * n + (c.toNat - '0'.toNat)) := by
      rw [← Nat.toDigits_append_toDigits (by decide) hn hlt, Nat.toDigits_of_lt_base hlt, hchar]
    rw [List.foldl_cons, ← ih (fun d hd' => hd d (List.mem_cons_of_mem _ hd')) (by omega), ← hone,
      List.append_assoc, List.singleton_append]

/-- **A decimal number is the text of its value.** -/
theorem decimal_digitsValue {ds : List Char} (h : IsDecimal ds) :
    (decimal (digitsValue ds)).toList = ds := by
  obtain ⟨hne, hd, hzero⟩ := h
  rw [toList_decimal]
  obtain ⟨c, cs, rfl⟩ := List.exists_cons_of_ne_nil hne
  by_cases hc : c = '0'
  · rw [hzero (by rw [hc]; rfl)]
    rfl
  obtain ⟨hlt, hchar⟩ := digitChar_of_isAsciiDigit (hd c List.mem_cons_self)
  have hpos : 0 < c.toNat - '0'.toNat := by
    refine Nat.pos_of_ne_zero fun h => hc ?_
    rw [h] at hchar
    exact hchar.symm
  have happend := toDigits_append (fun d hd' => hd d (List.mem_cons_of_mem c hd')) hpos
  rw [Nat.toDigits_of_lt_base hlt, hchar] at happend
  rw [digitsValue, List.foldl_cons, Nat.mul_zero, Nat.zero_add, ← happend]
  rfl

theorem isDecimal_decimal (n : Nat) : IsDecimal (decimal n).toList := by
  refine ⟨decimal_ne_nil n, fun c => isAsciiDigit_of_mem_decimal, fun h => ?_⟩
  cases hds : (decimal n).toList with
  | nil => exact absurd hds (decimal_ne_nil n)
  | cons c cs =>
    rw [hds] at h
    obtain rfl : c = '0' := Option.some.inj h
    cases cs with
    | nil => rfl
    | cons d ds => exact absurd hds (decimal_ne_zero_cons n d ds)

/-! ## Numbers of a width -/

/-- Digits that write a number, with zeros in front only up to a width. -/
structure IsNumeral (width n : Nat) (ds : List Char) : Prop where
  digits : ∀ c ∈ ds, isAsciiDigit c = true
  value : digitsValue ds = n
  wide : width ≤ ds.length
  short : width < ds.length → ds.head? ≠ some '0'

theorem toList_padded (width n : Nat) : (padded width n).toList =
    List.replicate (width - (decimal n).toList.length) '0' ++ (decimal n).toList :=
  String.toList_ofList

theorem digitsValue_replicate_append (k : Nat) (ds : List Char) :
    digitsValue (List.replicate k '0' ++ ds) = digitsValue ds := by
  induction k with
  | zero => rfl
  | succ k ih => exact ih

/-- **A number with zeros in front up to a width.** -/
theorem isNumeral_padded {width : Nat} (hwidth : 0 < width) (n : Nat) :
    IsNumeral width n (padded width n).toList where
  digits c hc := by
    rw [toList_padded] at hc
    rcases List.mem_append.1 hc with h | h
    · rw [List.eq_of_mem_replicate h]
      rfl
    · exact isAsciiDigit_of_mem_decimal h
  value := by rw [toList_padded, digitsValue_replicate_append, digitsValue_decimal]
  wide := by
    rw [toList_padded, List.length_append, List.length_replicate]
    omega
  short h := by
    rw [toList_padded, List.length_append, List.length_replicate] at h
    have hnone : width - (decimal n).toList.length = 0 := by omega
    rw [toList_padded, hnone, List.replicate_zero, List.nil_append]
    intro hzero
    have hlength := congrArg List.length ((isDecimal_decimal n).2.2 hzero)
    rw [List.length_singleton] at hlength
    omega

theorem not_mem_padded {width : Nat} {c : Char} (hwidth : 0 < width) (hc : isAsciiDigit c = false)
    (n : Nat) : c ∉ (padded width n).toList := fun hmem => by
  rw [(isNumeral_padded hwidth n).digits c hmem] at hc
  cases hc

theorem padded_injective (width : Nat) : Function.Injective (padded width) := by
  have hvalue : ∀ n, digitsValue (padded width n).toList = n := fun n => by
    rw [toList_padded, digitsValue_replicate_append, digitsValue_decimal]
  intro n m h
  rw [← hvalue n, h, hvalue]

theorem length_padded {width n : Nat} (hwidth : 0 < width) (h : n < 10 ^ width) :
    (padded width n).toList.length = width := by
  have hle : (decimal n).toList.length ≤ width := by
    rw [toList_decimal]
    exact (Nat.length_toDigits_le_iff (by decide) hwidth).2 h
  rw [toList_padded, List.length_append, List.length_replicate]
  omega

/-! ## Where digits end -/

section Front

variable {ds rest : List Char} (hd : ∀ c ∈ ds, isAsciiDigit c = true)
  (hr : ∀ c cs, rest = c :: cs → isAsciiDigit c = false)

include hd hr

theorem takeWhile_digits_append : (ds ++ rest).takeWhile isAsciiDigit = ds := by
  rw [List.takeWhile_append_of_pos hd]
  cases rest with
  | nil => simp
  | cons c cs => simp [hr c cs rfl]

theorem dropWhile_digits_append : (ds ++ rest).dropWhile isAsciiDigit = rest := by
  rw [List.dropWhile_append_of_pos hd]
  cases rest with
  | nil => rfl
  | cons c cs => simp [hr c cs rfl]

end Front

end ReleaseFlow.Text
