import Mathlib.Data.List.Basic
import Mathlib.Tactic.SplitIfs
import ReleaseFlow.Proofs.Version.Text
import ReleaseFlow.TagPattern

/-!
# Tags of a pattern

* `Template.fillEach`: a template with a text of its own in every place;
* `Template.fill_injective`: a template with a place shows what it was filled with;
* `hasForm_cons_iff`, `hasForm_append_iff`: the texts of a form, step by step;
* `accepts_iff`: **a pattern accepts the texts that have the form of a version in every place**;
* `format_injective`: **different versions have different tags**;
* `accepts_format`: the tag of a version is accepted.
-/

namespace ReleaseFlow

/-! ## Filled templates -/

namespace Template

variable (t : Template)

/-- All that a template says itself. -/
def literals : List Char :=
  t.head ++ t.tail.flatten

/-- The text with every place filled by a text of its own. -/
def fillEach (values : List (List Char)) : List Char :=
  t.head ++ (List.zipWith (· ++ ·) values t.tail).flatten

theorem fillEach_replicate (value : List Char) :
    t.fillEach (List.replicate t.places value) = t.fill value := by
  obtain ⟨head, tail⟩ := t
  simp only [fillEach, fill, places]
  congr 1
  induction tail with
  | nil => rfl
  | cons p ps ih => simp [List.replicate_succ, ih]

theorem count_fillEach (c : Char) (values : List (List Char)) (h : values.length = t.places) :
    (t.fillEach values).count c = t.literals.count c + values.flatten.count c := by
  obtain ⟨head, tail⟩ := t
  simp only [fillEach, literals, places, List.count_append, Nat.add_assoc, Nat.add_left_cancel_iff]
    at h ⊢
  induction values generalizing tail with
  | nil => obtain rfl := List.eq_nil_of_length_eq_zero h.symm; rfl
  | cons v vs ih =>
    cases tail with
    | nil => simp at h
    | cons p ps =>
      have := ih ps (by simpa using h)
      simp only [List.zipWith_cons_cons, List.flatten_cons, List.count_append]
      omega

theorem length_fill (value : List Char) :
    (t.fill value).length = t.literals.length + t.places * value.length := by
  obtain ⟨head, tail⟩ := t
  simp only [fill, literals, places, List.length_append, Nat.add_assoc, Nat.add_left_cancel_iff]
  induction tail with
  | nil => simp
  | cons p ps ih =>
    simp only [List.flatMap_cons, List.length_append, ih, List.flatten_cons, List.length_cons,
      Nat.succ_mul]
    omega

theorem fill_injective (h : 0 < t.places) : Function.Injective t.fill := by
  intro a b hab
  have hlen : a.length = b.length := by
    have := congrArg List.length hab
    rw [length_fill, length_fill, Nat.add_left_cancel_iff] at this
    exact Nat.eq_of_mul_eq_mul_left h this
  obtain ⟨head, tail⟩ := t
  cases tail with
  | nil => simp [places] at h
  | cons p ps =>
    simp only [fill, List.flatMap_cons, List.append_assoc, List.append_cancel_left_eq] at hab
    exact (List.append_inj hab hlen).1

theorem mem_fillEach_of_mem_literals {c : Char} {values : List (List Char)}
    (h : values.length = t.places) (hc : c ∈ t.literals) : c ∈ t.fillEach values := by
  rw [← List.count_pos_iff] at hc ⊢
  rw [count_fillEach t c values h]
  omega

end Template

namespace TagPattern

/-! ## The texts of a form -/

/-- The texts that one step of a form allows. -/
def Step.Spells : Step → List Char → Prop
  | .char c, cs => cs = [c]
  | .digits, cs => cs ≠ [] ∧ ∀ c ∈ cs, Text.isDecimalDigit c = true
  | .moreDigits, cs => ∀ c ∈ cs, Text.isDecimalDigit c = true

theorem hasForm_moreDigits_iff (steps : List Step) (cs : List Char) :
    hasForm (.moreDigits :: steps) cs = true ↔
      ∃ u v, cs = u ++ v ∧ (∀ c ∈ u, Text.isDecimalDigit c = true) ∧ hasForm steps v = true := by
  induction cs with
  | nil => simp [hasForm]
  | cons c cs ih =>
    rw [hasForm, Bool.or_eq_true, Bool.and_eq_true, ih]
    constructor
    · rintro (h | ⟨hc, u, v, rfl, hu, hv⟩)
      · exact ⟨[], c :: cs, rfl, by simp, h⟩
      · exact ⟨c :: u, v, rfl, by simpa using ⟨hc, hu⟩, hv⟩
    · rintro ⟨u, v, h, hu, hv⟩
      cases u with
      | nil => exact Or.inl (by rw [h]; exact hv)
      | cons d u =>
        obtain ⟨rfl, rfl⟩ : c = d ∧ cs = u ++ v := by simpa using h
        exact Or.inr ⟨hu c List.mem_cons_self, u, v, rfl,
          fun x hx => hu x (List.mem_cons_of_mem _ hx), hv⟩

theorem hasForm_cons_iff (s : Step) (steps : List Step) (cs : List Char) :
    hasForm (s :: steps) cs = true ↔ ∃ u v, cs = u ++ v ∧ s.Spells u ∧ hasForm steps v = true := by
  cases s with
  | moreDigits => exact hasForm_moreDigits_iff steps cs
  | char a =>
    cases cs with
    | nil => simp [hasForm, Step.Spells]
    | cons c cs =>
      simp only [hasForm, Bool.and_eq_true, beq_iff_eq, Step.Spells]
      constructor
      · rintro ⟨rfl, h⟩
        exact ⟨[a], cs, rfl, rfl, h⟩
      · rintro ⟨u, v, h, rfl, hv⟩
        obtain ⟨rfl, rfl⟩ : c = a ∧ cs = v := by simpa using h
        exact ⟨rfl, hv⟩
  | digits =>
    cases cs with
    | nil => simp [hasForm, Step.Spells]
    | cons c cs =>
      rw [hasForm, Bool.and_eq_true, hasForm_moreDigits_iff]
      constructor
      · rintro ⟨hc, u, v, rfl, hu, hv⟩
        exact ⟨c :: u, v, rfl, ⟨by simp, by simpa using ⟨hc, hu⟩⟩, hv⟩
      · rintro ⟨u, v, h, ⟨hne, hu⟩, hv⟩
        obtain ⟨d, u, rfl⟩ := List.exists_cons_of_ne_nil hne
        obtain ⟨rfl, rfl⟩ : c = d ∧ cs = u ++ v := by simpa using h
        exact ⟨hu c List.mem_cons_self, u, v, rfl,
          fun x hx => hu x (List.mem_cons_of_mem _ hx), hv⟩

theorem hasForm_nil_iff (cs : List Char) : hasForm [] cs = true ↔ cs = [] := by
  cases cs <;> simp [hasForm]

theorem hasForm_append_iff (steps steps' : List Step) (cs : List Char) :
    hasForm (steps ++ steps') cs = true ↔
      ∃ u v, cs = u ++ v ∧ hasForm steps u = true ∧ hasForm steps' v = true := by
  induction steps generalizing cs with
  | nil => simp [hasForm_nil_iff]
  | cons s steps ih =>
    simp only [List.cons_append, hasForm_cons_iff, ih]
    constructor
    · rintro ⟨u, _, rfl, hu, v, x, rfl, hv, hx⟩
      exact ⟨u ++ v, x, by simp, ⟨u, v, rfl, hu, hv⟩, hx⟩
    · rintro ⟨_, x, rfl, ⟨u, v, rfl, hu, hv⟩, hx⟩
      exact ⟨u, v ++ x, by simp, hu, v, x, rfl, hv, hx⟩

theorem hasForm_map_char_iff (piece cs : List Char) :
    hasForm (piece.map .char) cs = true ↔ cs = piece := by
  induction piece generalizing cs with
  | nil => exact hasForm_nil_iff cs
  | cons c piece ih =>
    simp only [List.map_cons, hasForm_cons_iff, ih, Step.Spells]
    constructor
    · rintro ⟨u, v, rfl, rfl, rfl⟩
      rfl
    · rintro rfl
      exact ⟨[c], piece, rfl, rfl, rfl⟩

/-! ## Accepted tags -/

/-- Three runs of digits of any script with dots between them. -/
def VersionLike (cs : List Char) : Prop :=
  ∃ a b c, cs = a ++ '.' :: (b ++ '.' :: c) ∧ Step.digits.Spells a ∧ Step.digits.Spells b ∧
    Step.digits.Spells c

theorem hasForm_versionForm_iff (cs : List Char) :
    hasForm versionForm cs = true ↔ VersionLike cs := by
  simp only [versionForm, hasForm_cons_iff, hasForm_nil_iff, VersionLike]
  constructor
  · rintro ⟨a, _, rfl, ha, _, _, rfl, rfl, b, _, rfl, hb, _, _, rfl, rfl, c, _, rfl, hc, rfl⟩
    exact ⟨a, b, c, by simp, ha, hb, hc⟩
  · rintro ⟨a, b, c, rfl, ha, hb, hc⟩
    exact ⟨a, _, rfl, ha, ['.'], _, rfl, rfl, b, _, rfl, hb, ['.'], _, rfl, rfl, c, [], by simp, hc,
      rfl⟩

theorem hasForm_tail_iff (tail : List (List Char)) (cs : List Char) :
    hasForm (tail.flatMap fun piece => versionForm ++ piece.map .char) cs = true ↔
      ∃ values, values.length = tail.length ∧ (∀ d ∈ values, VersionLike d) ∧
        cs = (List.zipWith (· ++ ·) values tail).flatten := by
  induction tail generalizing cs with
  | nil =>
    rw [List.flatMap_nil, hasForm_nil_iff]
    constructor
    · rintro rfl
      exact ⟨[], rfl, by simp, rfl⟩
    · rintro ⟨values, hlen, -, rfl⟩
      obtain rfl := List.eq_nil_of_length_eq_zero hlen
      rfl
  | cons piece tail ih =>
    simp only [List.flatMap_cons, hasForm_append_iff, hasForm_versionForm_iff,
      hasForm_map_char_iff, ih]
    constructor
    · rintro ⟨_, _, rfl, ⟨d, _, rfl, hd, rfl⟩, values, hlen, hv, rfl⟩
      exact ⟨d :: values, by simp [hlen], by simpa using ⟨hd, hv⟩, by simp⟩
    · rintro ⟨values, hlen, hv, rfl⟩
      cases values with
      | nil => simp at hlen
      | cons d values =>
        exact ⟨d ++ piece, _, by simp, ⟨d, piece, rfl, hv d List.mem_cons_self, rfl⟩, values,
          by simpa using hlen, fun x hx => hv x (List.mem_cons_of_mem _ hx), rfl⟩

/-- **A pattern accepts the texts that have the form of a version in every place.** -/
theorem accepts_iff (p : TagPattern) (tag : String) :
    p.accepts tag = true ↔ ∃ values, values.length = p.template.places ∧
      (∀ d ∈ values, VersionLike d) ∧ tag.toList = p.template.fillEach values := by
  rw [accepts, form, hasForm_append_iff]
  simp only [hasForm_map_char_iff, hasForm_tail_iff, Template.places, Template.fillEach]
  constructor
  · rintro ⟨_, _, h, rfl, values, hlen, hv, rfl⟩
    exact ⟨values, hlen, hv, h⟩
  · rintro ⟨values, hlen, hv, h⟩
    exact ⟨_, _, h, rfl, values, hlen, hv, rfl⟩

/-! ## Tags of versions -/

theorem places_pos (p : TagPattern) : 0 < p.template.places :=
  p.placed

theorem toList_format (p : TagPattern) (v : Version) :
    (p.format v).toList = p.template.fill v.text.toList :=
  String.toList_ofList

/-- **Different versions have different tags.** -/
theorem format_injective (p : TagPattern) : Function.Injective p.format := by
  intro v w h
  have h' := congrArg String.toList h
  rw [toList_format, toList_format] at h'
  exact Version.text_injective (String.toList_inj.1 (p.template.fill_injective p.places_pos h'))

theorem spells_decimal (n : Nat) : Step.digits.Spells (Text.decimal n).toList :=
  ⟨Text.decimal_ne_nil n, fun _ hc =>
    Text.isDecimalDigit_of_isDigit (Text.isAsciiDigit_of_mem_decimal hc)⟩

theorem versionLike_text (v : Version) : VersionLike v.text.toList :=
  ⟨_, _, _, v.toList_text, spells_decimal _, spells_decimal _, spells_decimal _⟩

theorem accepts_format (p : TagPattern) (v : Version) : p.accepts (p.format v) = true := by
  rw [accepts_iff]
  refine ⟨List.replicate p.template.places v.text.toList, by simp, ?_, ?_⟩
  · intro d hd
    rw [List.eq_of_mem_replicate hd]
    exact versionLike_text v
  · rw [Template.fillEach_replicate, toList_format]

end TagPattern

end ReleaseFlow
