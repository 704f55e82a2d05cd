import ReleaseFlow.Proofs.TagPattern.Form
import ReleaseFlow.Proofs.Text.Places
import ReleaseFlow.TagPattern.Expression

/-!
# What the expression of a pattern describes

* `isPrefix_escape_iff`, `ofChars_escape`: **escaping a text neither hides a placeholder nor makes
  one up**;
* `mem_digit_iff`, `mem_repeated_digit_iff`: the digits, one or more;
* `readRest_escape`, `readRest_version`: how the parts of an expression are read;
* `read?_expression`: the expression of a pattern can be read, and describes what has the form of
  its tags;
* `recognises_iff`: **a pattern recognises the texts that have something like a version in every
  place, and no others**.
-/

namespace ReleaseFlow

open TagPattern (Step hasForm versionForm VersionLike)

namespace Expression

/-! ## Escaped texts -/

theorem escape_nil : escape [] = [] := rfl

theorem escape_cons (c : Char) (cs : List Char) : escape (c :: cs) = escapedChar c ++ escape cs :=
  List.flatMap_cons

theorem escape_append (cs ds : List Char) : escape (cs ++ ds) = escape cs ++ escape ds :=
  List.flatMap_append

theorem escapedChar_of_meta {c : Char} (h : isMeta c = true) : escapedChar c = ['\\', c] :=
  if_pos h

theorem escapedChar_of_not_meta {c : Char} (h : isMeta c = false) : escapedChar c = [c] :=
  if_neg (by simp [h])

theorem isMeta_backslash : isMeta '\\' = true := by decide

theorem ne_backslash {c : Char} (h : isMeta c = false) : c ≠ '\\' := by
  rintro rfl
  rw [isMeta_backslash] at h
  cases h

/-- An escaped text begins with no character that means something, but for a backslash. -/
theorem eq_backslash_of_escape {text rest : List Char} {c : Char} (h : escape text = c :: rest)
    (hc : isMeta c = true) : c = '\\' := by
  cases text with
  | nil => cases h
  | cons d ds =>
    rw [escape_cons] at h
    cases hd : isMeta d with
    | true =>
      rw [escapedChar_of_meta hd] at h
      exact (List.cons.inj h).1.symm
    | false =>
      rw [escapedChar_of_not_meta hd] at h
      obtain rfl := (List.cons.inj h).1
      rw [hd] at hc
      cases hc

theorem escapedChar_prefix_iff (c d : Char) (cs ds : List Char) :
    escapedChar c ++ cs <+: escapedChar d ++ ds ↔ c = d ∧ cs <+: ds := by
  cases hc : isMeta c with
  | true =>
    rw [escapedChar_of_meta hc]
    cases hd : isMeta d with
    | true =>
      rw [escapedChar_of_meta hd]
      simp [List.cons_prefix_cons]
    | false =>
      rw [escapedChar_of_not_meta hd]
      refine iff_of_false (fun h => ?_) ?_
      · exact ne_backslash hd (List.cons_prefix_cons.1 h).1.symm
      · rintro ⟨rfl, -⟩
        rw [hc] at hd
        cases hd
  | false =>
    rw [escapedChar_of_not_meta hc]
    cases hd : isMeta d with
    | true =>
      rw [escapedChar_of_meta hd]
      refine iff_of_false (fun h => ?_) ?_
      · exact ne_backslash hc (List.cons_prefix_cons.1 h).1
      · rintro ⟨rfl, -⟩
        rw [hc] at hd
        cases hd
    | false =>
      rw [escapedChar_of_not_meta hd]
      simp [List.cons_prefix_cons]

theorem escapedChar_ne_nil (c : Char) : escapedChar c ≠ [] := by
  rw [escapedChar]
  split <;> simp

theorem isPrefix_escape_iff (part text : List Char) :
    escape part <+: escape text ↔ part <+: text := by
  induction part generalizing text with
  | nil => exact iff_of_true List.nil_prefix List.nil_prefix
  | cons c part ih =>
    rw [escape_cons]
    cases text with
    | nil =>
      rw [escape_nil, List.prefix_nil, List.prefix_nil]
      simp [escapedChar_ne_nil]
    | cons d text => rw [escape_cons, escapedChar_prefix_iff, ih, List.cons_prefix_cons]

section Places

variable {m : Char} {ms : List Char}

/-- No escaped placeholder begins within an escaped character. -/
theorem not_prefix_of_meta (hm : isMeta m = true) (hne : m ≠ '\\') (c : Char) (text : List Char) :
    ¬ escape (m :: ms) <+: c :: escape text := by
  rw [escape_cons, escapedChar_of_meta hm]
  rintro h
  obtain ⟨-, rest, hrest⟩ := List.cons_prefix_cons.1 h
  exact hne (eq_backslash_of_escape hrest.symm hm)

/-- **Escaping a text neither hides a placeholder nor makes one up**, if the placeholder begins with
a character that means something and is no backslash. -/
theorem ofChars_escape (hm : isMeta m = true) (hne : m ≠ '\\') (text : List Char) :
    Template.ofChars (escape (m :: ms)) (escape text) =
      ⟨escape (Template.ofChars (m :: ms) text).head,
        (Template.ofChars (m :: ms) text).tail.map escape⟩ := by
  have hmark : m :: ms ≠ [] := List.cons_ne_nil m ms
  have hescaped : escape (m :: ms) ≠ [] := by
    rw [escape_cons, escapedChar_of_meta hm]
    exact List.cons_ne_nil _ _
  induction text using Template.ofChars_induction hmark with
  | nil => rfl
  | placed rest ih =>
    rw [escape_append, Template.ofChars_append hescaped, Template.ofChars_append hmark, ih]
    rfl
  | literal c cs hp ih =>
    have hp' : ¬ escape (m :: ms) <+: escapedChar c ++ escape cs := by
      rwa [← escape_cons, isPrefix_escape_iff]
    rw [Template.ofChars_cons hp, escape_cons c cs]
    dsimp only
    rw [escape_cons c]
    cases hc : isMeta c with
    | true =>
      rw [escapedChar_of_meta hc] at hp' ⊢
      have hmid : ¬ escape (m :: ms) <+: c :: escape cs := not_prefix_of_meta hm hne c cs
      rw [List.cons_append, List.cons_append, List.nil_append] at hp' ⊢
      rw [Template.ofChars_cons hp', Template.ofChars_cons hmid, ih]
      rfl
    | false =>
      rw [escapedChar_of_not_meta hc] at hp' ⊢
      rw [List.singleton_append] at hp' ⊢
      rw [Template.ofChars_cons hp', ih]
      rfl

end Places

/-! ## Digits -/

theorem mem_sum_iff (es : List (RegularExpression Char)) (cs : List Char) :
    cs ∈ es.sum.matches' ↔ ∃ e ∈ es, cs ∈ e.matches' := by
  induction es with
  | nil => simp
  | cons e es ih => simp [Language.mem_add, ih]

theorem toNat_ofNat_of_mem_zeros {z i : Nat} (hz : z ∈ Text.zeros.toList) (hi : i < 10) :
    (Char.ofNat (z + i)).toNat = z + i := by
  have hvalid : ∀ z ∈ Text.zeros.toList, z + 10 ≤ 0xD800 ∨ 0xDFFF < z ∧ z + 10 ≤ 0x110000 := by
    decide
  have hchar : (z + i).isValidChar := by
    have := hvalid z hz
    simp only [Nat.isValidChar]
    omega
  rw [Char.ofNat, dif_pos hchar]
  rfl

theorem mem_digit_iff (cs : List Char) :
    cs ∈ digit.matches' ↔ ∃ c, Text.isDecimalDigit c = true ∧ cs = [c] := by
  rw [digit, mem_sum_iff]
  constructor
  · rintro ⟨e, he, hcs⟩
    obtain ⟨z, hz, he⟩ := List.mem_flatMap.1 he
    obtain ⟨i, hi, rfl⟩ := List.mem_map.1 he
    rw [List.mem_range] at hi
    refine ⟨Char.ofNat (z + i), ?_, hcs⟩
    rw [Text.isDecimalDigit, ← Array.any_toList, List.any_eq_true]
    refine ⟨z, hz, ?_⟩
    rw [toNat_ofNat_of_mem_zeros hz hi]
    simpa using hi
  · rintro ⟨c, hc, rfl⟩
    rw [Text.isDecimalDigit, ← Array.any_toList, List.any_eq_true] at hc
    obtain ⟨z, hz, hc⟩ := hc
    simp only [Bool.and_eq_true, decide_eq_true_eq] at hc
    refine ⟨.char (Char.ofNat (z + (c.toNat - z))), List.mem_flatMap.2 ⟨z, hz, List.mem_map.2
      ⟨c.toNat - z, List.mem_range.2 (by omega), rfl⟩⟩, ?_⟩
    rw [Nat.add_sub_cancel' hc.1, Char.ofNat_toNat]
    rfl

theorem mem_repeated_digit_iff (cs : List Char) :
    cs ∈ (repeated digit).matches' ↔ Step.digits.Spells cs := by
  rw [repeated, RegularExpression.matches'_mul, RegularExpression.matches'_star, Language.mem_mul]
  constructor
  · rintro ⟨u, hu, v, hv, rfl⟩
    obtain ⟨c, hc, rfl⟩ := (mem_digit_iff u).1 hu
    obtain ⟨parts, rfl, hparts⟩ := Language.mem_kstar.1 hv
    refine ⟨by simp, fun x hx => ?_⟩
    rcases List.mem_append.1 hx with hx | hx
    · obtain rfl := List.mem_singleton.1 hx
      exact hc
    · obtain ⟨part, hpart, hx⟩ := List.mem_flatten.1 hx
      obtain ⟨d, hd, rfl⟩ := (mem_digit_iff part).1 (hparts part hpart)
      obtain rfl := List.mem_singleton.1 hx
      exact hd
  · rintro ⟨hne, hdigits⟩
    obtain ⟨c, rest, rfl⟩ := List.exists_cons_of_ne_nil hne
    refine ⟨[c], (mem_digit_iff _).2 ⟨c, hdigits c (by simp), rfl⟩, rest, ?_, rfl⟩
    refine Language.mem_kstar.2 ⟨rest.map fun d => [d], ?_, fun part hpart => ?_⟩
    · rw [← List.flatMap_def, List.flatMap_singleton']
    · obtain ⟨d, hd, rfl⟩ := List.mem_map.1 hpart
      exact (mem_digit_iff _).2 ⟨d, hdigits d (List.mem_cons_of_mem c hd), rfl⟩

/-! ## Forms as languages -/

/-- The texts that have a form. -/
def formLanguage (steps : List Step) : Language Char :=
  {cs | hasForm steps cs = true}

theorem mem_formLanguage {steps : List Step} {cs : List Char} :
    cs ∈ formLanguage steps ↔ hasForm steps cs = true := Iff.rfl

theorem formLanguage_nil : formLanguage [] = 1 := by
  ext cs
  rw [mem_formLanguage, TagPattern.hasForm_nil_iff, Language.mem_one]

theorem formLanguage_append (steps steps' : List Step) :
    formLanguage (steps ++ steps') = formLanguage steps * formLanguage steps' := by
  ext cs
  rw [mem_formLanguage, TagPattern.hasForm_append_iff, Language.mem_mul]
  constructor
  · rintro ⟨u, v, rfl, hu, hv⟩
    exact ⟨u, hu, v, hv, rfl⟩
  · rintro ⟨u, hu, v, hv, rfl⟩
    exact ⟨u, v, rfl, hu, hv⟩

theorem formLanguage_char (c : Char) : formLanguage [.char c] = {[c]} := by
  ext cs
  exact TagPattern.hasForm_map_char_iff [c] cs

theorem matches'_repeated_digit : (repeated digit).matches' = formLanguage [.digits] := by
  ext cs
  rw [mem_repeated_digit_iff, mem_formLanguage, TagPattern.hasForm_cons_iff]
  simp [TagPattern.hasForm_nil_iff]

/-! ## Reading -/

theorem matches'_add (g : Group) (e : RegularExpression Char) :
    (g.add e).whole.matches' = g.whole.matches' * e.matches' := rfl

theorem readRest_escapedChar (outer : List Group) (g : Group) (c : Char) (rest : List Char) :
    readRest outer g (escapedChar c ++ rest) = readRest outer (g.add (.char c)) rest := by
  cases hc : isMeta c with
  | true =>
    have hd : c ≠ 'd' := by
      rintro rfl
      exact absurd hc (by decide)
    rw [escapedChar_of_meta hc, List.cons_append, List.singleton_append, readRest, if_pos hc]
    exact hd
  | false =>
    have hne : ∀ x, isMeta x = true → c ≠ x := by
      rintro x hx rfl
      rw [hx] at hc
      cases hc
    rw [escapedChar_of_not_meta hc]
    simp [readRest, hc, hne '\\' (by decide), hne '(' (by decide), hne ')' (by decide),
      hne '+' (by decide), hne '$' (by decide)]

theorem readRest_escape (outer : List Group) (g : Group) (text rest : List Char) :
    ∃ g', readRest outer g (escape text ++ rest) = readRest outer g' rest ∧
      g'.whole.matches' = g.whole.matches' * formLanguage (text.map .char) := by
  induction text generalizing g with
  | nil => exact ⟨g, rfl, by rw [List.map_nil, formLanguage_nil, mul_one]⟩
  | cons c text ih =>
    obtain ⟨g', hread, hg'⟩ := ih (g.add (.char c))
    refine ⟨g', ?_, ?_⟩
    · rw [escape_cons, List.append_assoc, readRest_escapedChar, hread]
    · rw [hg', matches'_add, List.map_cons, ← List.singleton_append, formLanguage_append,
        formLanguage_char, mul_assoc]
      rfl

theorem readRest_version (outer : List Group) (g : Group) (rest : List Char) :
    ∃ g', readRest outer g (TagPattern.versionExpression.toList ++ rest) = readRest outer g' rest ∧
      g'.whole.matches' = g.whole.matches' * formLanguage versionForm := by
  let dot : RegularExpression Char := .char '.'
  let digits := repeated digit
  refine ⟨g.add (1 * 1 * digits * dot * digits * dot * digits), rfl, ?_⟩
  have hform : versionForm = [.digits] ++ ([.char '.'] ++ ([.digits] ++ ([.char '.'] ++
    [.digits]))) := rfl
  rw [hform]
  simp only [matches'_add, formLanguage_append, formLanguage_char, ← matches'_repeated_digit,
    RegularExpression.matches'_mul, RegularExpression.matches'_epsilon, one_mul, mul_assoc]
  rfl

/-- The places and the pieces after them are read to the end. -/
theorem readRest_tail (g : Group) (tail : List (List Char)) :
    ∃ e, readRest [] g ((tail.map escape).flatMap (TagPattern.versionExpression.toList ++ ·) ++
        ['$']) = some e ∧
      e.matches' = g.whole.matches' *
        formLanguage (tail.flatMap fun piece => versionForm ++ piece.map .char) := by
  induction tail generalizing g with
  | nil => exact ⟨g.whole, rfl, by rw [List.flatMap_nil, formLanguage_nil, mul_one]⟩
  | cons piece tail ih =>
    simp only [List.map_cons, List.flatMap_cons, List.append_assoc]
    obtain ⟨g₁, hread₁, hg₁⟩ := readRest_version [] g
      (escape piece ++ ((tail.map escape).flatMap (TagPattern.versionExpression.toList ++ ·) ++
        ['$']))
    obtain ⟨g₂, hread₂, hg₂⟩ := readRest_escape [] g₁ piece
      ((tail.map escape).flatMap (TagPattern.versionExpression.toList ++ ·) ++ ['$'])
    obtain ⟨e, hread, he⟩ := ih g₂
    refine ⟨e, by rw [hread₁, hread₂, hread], ?_⟩
    rw [he, hg₂, hg₁]
    simp only [formLanguage_append, mul_assoc]

end Expression

namespace TagPattern

open Expression

variable (p : TagPattern)

theorem toList_expression : p.expression.toList =
    '^' :: (escape p.template.head ++ ((p.template.tail.map escape).flatMap
      (versionExpression.toList ++ ·) ++ ['$'])) := by
  have hmark : escapedMark.toList = escape mark := by decide
  have hbrace : mark = '\x7b' :: "version\x7d".toList := by decide
  have hpieces : Template.ofChars (escape mark) (escape p.text.toList) =
      ⟨escape p.template.head, p.template.tail.map escape⟩ := by
    rw [template, hbrace]
    exact ofChars_escape (by decide) (by decide) p.text.toList
  simp only [expression, Template.replace, String.toList_append, String.toList_ofList, hmark,
    hpieces, Template.fill]
  simp

/-- A backslash before a placeholder is a literal piece. -/
example : expression ⟨"\\\x7bversion\x7d", by decide⟩ = "^\\\\(\\d+\\.\\d+\\.\\d+)$" := by
  decide

/-- A pattern's expression can be read, and describes what has the form of the pattern's tags. -/
theorem read?_expression : ∃ e, read? p.expression.toList = some e ∧
    e.matches' = formLanguage (form p.template) := by
  obtain ⟨g, hread, hg⟩ := readRest_escape [] {} p.template.head
    ((p.template.tail.map escape).flatMap (versionExpression.toList ++ ·) ++ ['$'])
  obtain ⟨e, htail, he⟩ := readRest_tail g p.template.tail
  refine ⟨e, ?_, ?_⟩
  · rw [toList_expression, read?, hread, htail]
  · have hempty : ({} : Group).whole.matches' = 1 := one_mul 1
    rw [he, hg, hempty, one_mul, form, formLanguage_append]

theorem recognises_eq (tag : String) : p.recognises tag = .ok (p.accepts tag) := by
  obtain ⟨e, hread, he⟩ := p.read?_expression
  have hiff : e.rmatch tag.toList = true ↔ p.accepts tag = true := by
    rw [RegularExpression.rmatch_iff_matches', he]
    rfl
  simp only [recognises, hread, Bool.eq_iff_iff.2 hiff]

/-- **A pattern recognises its own tags and no others.** Its text is made of literal pieces without
the placeholder, and of the placeholder between them. The expression of the pattern can always be
read, and it describes the tags that the pattern accepts: a text is one exactly when it has
something like a version in every place, not necessarily the same in each, and the literal pieces
around them. The tag of a version is such a text. -/
theorem recognises_iff (tag : String) :
    p.template.fill mark = p.text.toList ∧
    (∀ piece ∈ p.template.head :: p.template.tail, ¬ mark <:+: piece) ∧
    p.recognises tag = .ok (p.accepts tag) ∧
    (p.recognises tag = .ok true ↔ ∃ values, values.length = p.template.places ∧
      (∀ d ∈ values, VersionLike d) ∧ tag.toList = p.template.fillEach values) ∧
    (p.recognises tag = .ok false ↔ ¬ ∃ values, values.length = p.template.places ∧
      (∀ d ∈ values, VersionLike d) ∧ tag.toList = p.template.fillEach values) ∧
    ∀ v, p.recognises (p.format v) = .ok true := by
  have hmark : mark ≠ [] := by decide
  refine ⟨Template.fill_ofChars hmark _, Template.not_infix_of_mem_pieces hmark _,
    p.recognises_eq tag, ?_, ?_, fun v => ?_⟩
  · rw [recognises_eq, ← accepts_iff, Except.ok.injEq]
  · rw [recognises_eq, ← accepts_iff, Except.ok.injEq, Bool.not_eq_true]
  · rw [recognises_eq, accepts_format]

end TagPattern

end ReleaseFlow
