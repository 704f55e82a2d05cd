import Mathlib.Data.List.Infix
import ReleaseFlow.Text.Template

/-!
# The places of a template

A text is read from the left: it begins with the placeholder, or with a character that belongs to a
literal piece.

* `ofChars_append`, `ofChars_cons`: the pieces of a text that begins in either way;
* `ofChars_induction`: induction on a text as its placeholders are read;
* `not_infix_of_mem_pieces`: **no literal piece holds the placeholder**;
* `IsReading`, `isReading_iff`: **a text is read around its placeholders in one way**, when these do
  not overlap;
* `places_ofChars_pos_iff`: whether there is a place;
* `fill_ofChars_singleton`: a character as the placeholder.
-/

namespace ReleaseFlow.Template

variable {mark : List Char}

theorem scan_length_append (mark u v : List Char) :
    scan mark u.length (u ++ v) = ofChars mark v := by
  induction u with
  | nil => rfl
  | cons c u ih => exact ih

theorem ofChars_nil (mark : List Char) : ofChars mark [] = ⟨[], []⟩ := rfl

theorem ofChars_append (hm : mark ≠ []) (rest : List Char) :
    ofChars mark (mark ++ rest) =
      ⟨[], (ofChars mark rest).head :: (ofChars mark rest).tail⟩ := by
  obtain ⟨c, ms, rfl⟩ := List.exists_cons_of_ne_nil hm
  have hp : (c :: ms).isPrefixOf (c :: (ms ++ rest)) = true :=
    List.isPrefixOf_iff_prefix.2 (List.prefix_append (c :: ms) rest)
  have hskip : scan (c :: ms) ((c :: ms).length - 1) (ms ++ rest) = ofChars (c :: ms) rest :=
    scan_length_append (c :: ms) ms rest
  rw [ofChars, List.cons_append, scan, if_pos hp, hskip]

theorem ofChars_cons {c : Char} {cs : List Char} (h : ¬ mark <+: c :: cs) :
    ofChars mark (c :: cs) = ⟨c :: (ofChars mark cs).head, (ofChars mark cs).tail⟩ := by
  have hp : ¬ mark.isPrefixOf (c :: cs) = true := fun hp => h (List.isPrefixOf_iff_prefix.1 hp)
  rw [ofChars, scan, if_neg hp]
  rfl

/-- Induction on a text as its placeholders are read. -/
theorem ofChars_induction (hm : mark ≠ []) {P : List Char → Prop} (nil : P [])
    (placed : ∀ rest, P rest → P (mark ++ rest))
    (literal : ∀ c cs, ¬ mark <+: c :: cs → P cs → P (c :: cs)) (text : List Char) : P text := by
  induction h : text.length using Nat.strongRecOn generalizing text with
  | ind n ih =>
    subst h
    by_cases hp : mark <+: text
    · obtain ⟨rest, rfl⟩ := hp
      have hlt : rest.length < (mark ++ rest).length := by
        have := List.length_pos_of_ne_nil hm
        rw [List.length_append]
        omega
      exact placed rest (ih _ hlt rest rfl)
    · cases text with
      | nil => exact nil
      | cons c cs => exact literal c cs hp (ih _ (by simp) cs rfl)

theorem isPrefix_head (hm : mark ≠ []) (text : List Char) : (ofChars mark text).head <+: text :=
  ⟨_, fill_ofChars hm text⟩

/-- **No literal piece holds the placeholder.** -/
theorem not_infix_of_mem_pieces (hm : mark ≠ []) (text : List Char) :
    ∀ piece ∈ (ofChars mark text).head :: (ofChars mark text).tail, ¬ mark <:+: piece := by
  have hnil : ¬ mark <:+: [] := fun h => hm (List.infix_nil.1 h)
  induction text using ofChars_induction hm with
  | nil => simpa [ofChars_nil] using hnil
  | placed rest ih =>
    rw [ofChars_append hm]
    exact List.forall_mem_cons.2 ⟨hnil, ih⟩
  | literal c cs hp ih =>
    rw [ofChars_cons hp]
    obtain ⟨hhead, htail⟩ := List.forall_mem_cons.1 ih
    refine List.forall_mem_cons.2 ⟨fun hin => ?_, htail⟩
    -- the placeholder would begin where the text was read as a literal character
    rcases List.infix_cons_iff.1 hin with hfront | hin
    · exact hp (hfront.trans ((List.prefix_cons_inj c).2 (isPrefix_head hm cs)))
    · exact hhead hin

/-! ## One way to read a text -/

/-- The literal pieces of a text around all occurrences of a placeholder. -/
structure IsReading (mark text : List Char) (t : Template) : Prop where
  fill : t.fill mark = text
  pieces : ∀ piece ∈ t.head :: t.tail, ¬ mark <:+: piece

section Reading

variable {c : Char} {cs : List Char}

/-- A literal piece goes on up to the next placeholder, if the first character of the placeholder
is its only one of that kind. -/
theorem ofChars_literal_append (hc : c ∉ cs) {piece : List Char} (hpiece : ¬ c :: cs <:+: piece)
    {rest : List Char} (hrest : ∀ d ∈ rest.head?, d = c) : ofChars (c :: cs) (piece ++ rest) =
      ⟨piece ++ (ofChars (c :: cs) rest).head, (ofChars (c :: cs) rest).tail⟩ := by
  induction piece with
  | nil => rfl
  | cons d piece ih =>
    have hfront : ¬ c :: cs <+: d :: (piece ++ rest) := by
      rintro ⟨more, hmore⟩
      rcases List.append_eq_append_iff.1 (hmore.trans (List.cons_append).symm) with
        ⟨between, hmark, -⟩ | ⟨between, hmark, hrest'⟩
      · exact hpiece ⟨[], between, hmark.symm⟩
      cases between with
      | nil =>
        rw [List.append_nil] at hmark
        exact hpiece (hmark ▸ List.infix_rfl)
      -- the next placeholder would begin inside of this one
      | cons b between =>
        have hb : b = c := hrest b (by rw [hrest']; rfl)
        rw [(List.cons.inj hmark).2, hb] at hc
        exact hc (List.mem_append_right piece List.mem_cons_self)
    rw [List.cons_append, ofChars_cons hfront, ih fun h => hpiece (List.infix_cons h)]
    rfl

/-- **A text is read around its placeholders in one way.** -/
theorem isReading_iff (hc : c ∉ cs) (text : List Char) (t : Template) :
    IsReading (c :: cs) text t ↔ t = ofChars (c :: cs) text := by
  constructor
  · rintro ⟨rfl, hpieces⟩
    obtain ⟨head, tail⟩ := t
    induction tail generalizing head with
    | nil =>
      have hnone : ∀ d ∈ ([] : List Char).head?, d = c := by simp
      have h := ofChars_literal_append hc (hpieces head List.mem_cons_self) hnone
      rw [ofChars_nil, List.append_nil] at h
      simp [Template.fill, h]
    | cons piece tail ih =>
      have hnext := ih piece fun p hp => hpieces p (List.mem_cons_of_mem head hp)
      have hfill : fill ⟨head, piece :: tail⟩ (c :: cs) =
          head ++ (c :: cs ++ fill ⟨piece, tail⟩ (c :: cs)) := by
        simp [Template.fill]
      rw [hfill, ofChars_literal_append hc (hpieces head List.mem_cons_self) (by simp),
        ofChars_append (List.cons_ne_nil c cs), ← hnext, List.append_nil]
  · rintro rfl
    exact ⟨fill_ofChars (List.cons_ne_nil c cs) text,
      not_infix_of_mem_pieces (List.cons_ne_nil c cs) text⟩

end Reading

theorem places_ofChars_pos_iff (hm : mark ≠ []) (text : List Char) :
    0 < (ofChars mark text).places ↔ mark <:+: text := by
  have hfill := fill_ofChars hm text
  have hhead := not_infix_of_mem_pieces hm text _ List.mem_cons_self
  rw [Template.fill] at hfill
  constructor
  · intro h
    obtain ⟨piece, tail, htail⟩ := List.exists_cons_of_length_pos h
    rw [htail, List.flatMap_cons, List.append_assoc] at hfill
    exact ⟨_, _, by rw [List.append_assoc]; exact hfill⟩
  · intro h
    refine List.length_pos_of_ne_nil fun hnil => ?_
    rw [hnil, List.flatMap_nil, List.append_nil] at hfill
    rw [hfill] at hhead
    exact hhead h

theorem fill_ofChars_singleton (mark : Char) (value text : List Char) :
    (ofChars [mark] text).fill value = text.flatMap fun c => if c = mark then value else [c] := by
  induction text with
  | nil => rfl
  | cons c cs ih =>
    rw [List.flatMap_cons, ← ih]
    by_cases hc : c = mark
    · have happend := ofChars_append (List.cons_ne_nil c []) cs
      rw [List.singleton_append] at happend
      rw [if_pos hc, ← hc, happend]
      simp [fill]
    · have hp : ¬ [mark] <+: c :: cs := fun hp => hc (List.cons_prefix_cons.1 hp).1.symm
      rw [ofChars_cons hp, if_neg hc]
      rfl

end ReleaseFlow.Template
