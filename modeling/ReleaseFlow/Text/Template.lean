/-!
# Templates

A template is a text with places marked by a placeholder, the leftmost occurrences that do not
overlap. It is kept as the literal pieces around the places.

* `Template.ofChars`: the pieces of a text around a placeholder;
* `Template.fill`: every place filled with the same text;
* `fill_ofChars`: filling in the placeholder gives the text back.
-/

namespace ReleaseFlow

/-- The literal pieces of a text: one before the first place and one after every place. -/
structure Template where
  head : List Char
  tail : List (List Char)
  deriving DecidableEq, Repr

namespace Template

/-- The pieces of a text whose first `skip` characters belong to a placeholder already met. -/
def scan (mark : List Char) : Nat → List Char → Template
  | _, [] => ⟨[], []⟩
  | skip + 1, _ :: cs => scan mark skip cs
  | 0, c :: cs =>
    if mark.isPrefixOf (c :: cs) then
      let t := scan mark (mark.length - 1) cs
      ⟨[], t.head :: t.tail⟩
    else
      let t := scan mark 0 cs
      ⟨c :: t.head, t.tail⟩

/-- The pieces of a text around the leftmost occurrences of a placeholder. -/
def ofChars (mark text : List Char) : Template :=
  scan mark 0 text

def places (t : Template) : Nat :=
  t.tail.length

/-- The text with every place filled by `value`. -/
def fill (t : Template) (value : List Char) : List Char :=
  t.head ++ t.tail.flatMap (value ++ ·)

/-- The text `s` with every occurrence of `mark` replaced by `value`, from the left. -/
def replace (mark value s : String) : String :=
  String.ofList ((ofChars mark.toList s.toList).fill value.toList)

theorem fill_scan {mark : List Char} (hm : mark ≠ []) (skip : Nat) (text : List Char)
    (h : skip ≤ text.length) : (scan mark skip text).fill mark = text.drop skip := by
  induction text generalizing skip with
  | nil => simp [scan, fill]
  | cons c cs ih =>
    cases skip with
    | succ k => simpa [scan] using ih k (by simpa using h)
    | zero =>
      rw [scan]
      split
      · next hp =>
        obtain ⟨m, ms, rfl⟩ := List.exists_cons_of_ne_nil hm
        obtain ⟨rest, hr⟩ := List.isPrefixOf_iff_prefix.1 hp
        obtain ⟨rfl, rfl⟩ : m = c ∧ ms ++ rest = cs := by simpa using hr
        have := ih ms.length (by simp)
        simp only [fill, List.cons_append, List.drop_left] at this
        simp [fill, this]
      · simpa [fill] using ih 0 (Nat.zero_le _)

theorem fill_ofChars {mark : List Char} (hm : mark ≠ []) (text : List Char) :
    (ofChars mark text).fill mark = text :=
  fill_scan hm 0 text (Nat.zero_le _)

end Template

end ReleaseFlow
