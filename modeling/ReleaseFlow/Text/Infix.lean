/-!
# Text inside text

* `hasInfix`: one text occurs in another;
* `hasInfix_iff`: the same as a statement about lists.
-/

namespace ReleaseFlow.Text

/-- The characters `part` occur in a row. -/
def hasInfix (part : List Char) : List Char → Bool
  | [] => part.isEmpty
  | c :: cs => part.isPrefixOf (c :: cs) || hasInfix part cs

theorem hasInfix_iff {part cs : List Char} : hasInfix part cs = true ↔ part <:+: cs := by
  induction cs with
  | nil => simp [hasInfix]
  | cons c cs ih =>
    rw [hasInfix, Bool.or_eq_true, ih, List.isPrefixOf_iff_prefix, List.infix_cons_iff]

end ReleaseFlow.Text
