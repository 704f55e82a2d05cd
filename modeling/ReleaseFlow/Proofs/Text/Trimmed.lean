import Mathlib.Data.List.DropRight
import ReleaseFlow.Text.Blank

/-!
# Trimmed texts

* `IsTrimmed`: a text without a blank at either end;
* `isTrimmed_trimChars`: **trimming makes such a text**;
* `trimChars_of_isTrimmed`: it leaves such a text as it is.
-/

namespace ReleaseFlow.Text

/-- The text has no blank at either end. -/
def IsTrimmed (cs : List Char) : Prop :=
  (∀ c, cs.head? = some c → isBlank c = false) ∧ ∀ c, cs.getLast? = some c → isBlank c = false

variable {cs : List Char}

theorem head?_dropWhile_isBlank {c : Char} (h : (cs.dropWhile isBlank).head? = some c) :
    isBlank c = false := by
  have hnot := List.head?_dropWhile_not isBlank cs
  rwa [h] at hnot

theorem isTrimmed_trimChars (cs : List Char) : IsTrimmed (trimChars cs) := by
  unfold trimChars
  constructor
  · -- What is dropped at the end leaves the first character, if it leaves any.
    intro c hc
    have hpre : ((cs.dropWhile isBlank).reverse.dropWhile isBlank).reverse <+:
        cs.dropWhile isBlank := List.rdropWhile_prefix isBlank _
    obtain ⟨rest, hrest⟩ := hpre
    apply head?_dropWhile_isBlank
    rw [← hrest, List.head?_append, hc, Option.some_or]
  · intro c hc
    rw [List.getLast?_reverse] at hc
    exact head?_dropWhile_isBlank hc

theorem dropWhile_isBlank_of_head? (h : ∀ c, cs.head? = some c → isBlank c = false) :
    cs.dropWhile isBlank = cs := by
  cases cs with
  | nil => rfl
  | cons c cs => rw [List.dropWhile_cons_of_neg (by simp [h c rfl])]

theorem trimChars_of_isTrimmed (h : IsTrimmed cs) : trimChars cs = cs := by
  have hreverse : ∀ c, cs.reverse.head? = some c → isBlank c = false := by
    intro c hc
    rw [List.head?_reverse] at hc
    exact h.2 c hc
  rw [trimChars, dropWhile_isBlank_of_head? h.1, dropWhile_isBlank_of_head? hreverse,
    List.reverse_reverse]

theorem isTrimmed_of_not_blank (h : ∀ c ∈ cs, isBlank c = false) : IsTrimmed cs :=
  ⟨fun c hc => h c (List.mem_of_mem_head? hc), fun c hc => h c (List.mem_of_getLast? hc)⟩

end ReleaseFlow.Text
