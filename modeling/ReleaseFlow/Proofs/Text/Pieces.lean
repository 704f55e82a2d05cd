import Mathlib.Data.List.Infix

/-!
# Pieces of a text

What the library does not say of the pieces between separators.

* `infix_of_mem_splitOn`: every piece occurs in the text;
* `not_mem_of_mem_splitOn`: no piece has a separator;
* `splitOn_eq_pair_iff`: the texts of two pieces;
* `length_le_length_intercalate`: how many pieces a text can have.
-/

namespace ReleaseFlow.Text

theorem infix_intercalate (sep : Char) {p : List Char} {ps : List (List Char)} (h : p ∈ ps) :
    p <:+: List.intercalate [sep] ps := by
  induction ps with
  | nil => cases h
  | cons q qs ih =>
    rcases List.mem_cons.1 h with rfl | h
    · cases qs with
      | nil => simp
      | cons r rs =>
        rw [List.intercalate_cons_cons, List.append_assoc]
        exact (List.prefix_append p _).isInfix
    · rw [List.intercalate_cons_of_ne_nil (List.ne_nil_of_mem h)]
      exact (ih h).trans (List.suffix_append _ _).isInfix

theorem infix_of_mem_splitOn {sep : Char} {p cs : List Char} (h : p ∈ List.splitOn sep cs) :
    p <:+: cs := by
  have hp := infix_intercalate sep h
  rwa [List.intercalate_splitOn] at hp

theorem not_mem_of_mem_splitOn {sep : Char} {p cs : List Char} (h : p ∈ List.splitOn sep cs) :
    sep ∉ p := by
  induction cs generalizing p with
  | nil =>
    obtain rfl : p = [] := by simpa using h
    exact List.not_mem_nil
  | cons c cs ih =>
    rw [List.splitOn_cons_eq_if_modifyHead] at h
    split at h
    · rcases List.mem_cons.1 h with rfl | h
      · exact List.not_mem_nil
      · exact ih h
    next hc =>
    cases hs : List.splitOn sep cs with
    | nil => exact absurd hs (List.splitOn_ne_nil sep cs)
    | cons q qs =>
      rw [hs, List.modifyHead_cons] at h
      rw [hs] at ih
      rcases List.mem_cons.1 h with rfl | h
      · exact List.not_mem_cons_of_ne_of_not_mem (fun he => hc (by simp [he]))
          (ih List.mem_cons_self)
      · exact ih (List.mem_cons_of_mem q h)

theorem splitOn_eq_pair_iff {sep : Char} {cs p q : List Char} :
    List.splitOn sep cs = [p, q] ↔ sep ∉ p ∧ sep ∉ q ∧ cs = p ++ sep :: q := by
  constructor
  · intro h
    have hcs : List.intercalate [sep] (List.splitOn sep cs) = cs := List.intercalate_splitOn sep
    rw [h] at hcs
    exact ⟨not_mem_of_mem_splitOn (h ▸ List.mem_cons_self),
      not_mem_of_mem_splitOn (h ▸ List.mem_cons_of_mem _ List.mem_cons_self),
      by simpa using hcs.symm⟩
  · rintro ⟨hp, hq, rfl⟩
    rw [List.splitOn_append_cons_self_of_not_mem hp, List.splitOn_eq_singleton hq]

theorem length_le_length_intercalate (sep : Char) (ps : List (List Char)) :
    ps.length ≤ (List.intercalate [sep] ps).length + 1 := by
  induction ps with
  | nil => simp
  | cons p ps ih =>
    cases ps with
    | nil => simp
    | cons q qs =>
      simp only [List.intercalate_cons_cons, List.length_append, List.length_cons,
        List.length_nil] at ih ⊢
      omega

end ReleaseFlow.Text
