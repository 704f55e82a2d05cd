import ReleaseFlow.Proofs.Http.Written

/-!
# Forms in queries

A form is read by the rules of the URL Standard: its parameters stand between `&` signs, the name
up to the first `=`; plus signs are spaces, and percent signs lead the numbers of bytes.

* `Url.formDecode`, `Url.parameters`: what a text of a form stands for, and the form of a query;
* `formDecode_formEncode`: **every text is read back**;
* `mem_formEncode`: the characters of an encoded text;
* `formPair?_formParameter`, `formPairs?_append`: parameters that were written;
* `parameters_addParameter`: **an added parameter is read behind those that were there**;
* `IsNormal.addParameter`: an address with one more parameter can be read back, too.
-/

namespace ReleaseFlow.Url

/-! ## Reading -/

/-- The bytes that a text of a form stands for. -/
def formBytes : List Char → List UInt8
  | [] => []
  | '%' :: high :: low :: cs =>
    if Text.isHexDigit high && Text.isHexDigit low then
      UInt8.ofNat (16 * Text.hexDigitValue high + Text.hexDigitValue low) :: formBytes cs
    else String.utf8EncodeChar '%' ++ formBytes (high :: low :: cs)
  | c :: cs => String.utf8EncodeChar (if c = '+' then ' ' else c) ++ formBytes cs

/-- The text that a text of a form stands for, if its bytes are one. -/
def formDecode (cs : List Char) : Option String :=
  String.fromUTF8? ⟨(formBytes cs).toArray⟩

/-- A parameter: its name up to the first `=`, and its value. -/
def formPair? (cs : List Char) : Option (String × String) := do
  let (name, value) := cut (· == '=') cs
  return (← formDecode name, ← formDecode value.tail)

/-- The parameters of a form. -/
def formPairs? (cs : List Char) : Option (List (String × String)) :=
  ((List.splitOn '&' cs).filter (· ≠ [])).mapM formPair?

/-- The parameters of an address, if its query is a form. -/
def parameters (u : Url) : Option (List (String × String)) :=
  formPairs? (u.query.getD [])

/-! ## Bytes -/

theorem hexDigit_spec : ∀ n : Fin 16, Text.isHexDigit (hexDigit n) = true ∧
    Text.hexDigitValue (hexDigit n) = n := by decide

theorem formBytes_encodeByte (b : UInt8) (cs : List Char) :
    formBytes (encodeByte b ++ cs) = b :: formBytes cs := by
  have hlt := b.toNat_lt
  obtain ⟨hhigh, hhigh'⟩ := hexDigit_spec ⟨b.toNat / 16, by omega⟩
  obtain ⟨hlow, hlow'⟩ := hexDigit_spec ⟨b.toNat % 16, by omega⟩
  have hvalue : 16 * (b.toNat / 16) + b.toNat % 16 = b.toNat := Nat.div_add_mod _ _
  simp only at hhigh hhigh' hlow hlow'
  simp only [encodeByte, List.cons_append, List.nil_append, formBytes, hhigh, hlow, hhigh', hlow',
    hvalue, Bool.and_self, if_true, UInt8.ofNat_toNat]

theorem formBytes_flatMap_encodeByte (bs : List UInt8) (cs : List Char) :
    formBytes (bs.flatMap encodeByte ++ cs) = bs ++ formBytes cs := by
  induction bs with
  | nil => rfl
  | cons b bs ih =>
    rw [List.flatMap_cons, List.append_assoc, formBytes_encodeByte, ih, List.cons_append]

/-! ## Encoded texts -/

theorem formBytes_formEncode (cs : List Char) :
    formBytes (formEncode cs) = cs.flatMap String.utf8EncodeChar := by
  induction cs with
  | nil => rfl
  | cons c cs ih =>
    rw [formEncode, List.flatMap_cons, List.flatMap_cons, ← ih]
    split
    · next hspace =>
      rw [hspace]
      rfl
    split
    · next hplain =>
      have hplus : c ≠ '+' := fun h => by
        rw [h] at hplain
        cases hplain
      have hpercent : c ≠ '%' := fun h => by
        rw [h] at hplain
        cases hplain
      rw [List.singleton_append, formBytes, if_neg hplus]
      · rfl
      · exact fun _ _ _ h => absurd h hpercent
    · rw [encodeChar_eq, formBytes_flatMap_encodeByte]
      rfl

/-- **Every text is read back.** -/
theorem formDecode_formEncode (text : String) :
    formDecode (formEncode text.toList) = some text := by
  rw [formDecode, formBytes_formEncode, Json.fromUTF8?_flatMap]

theorem hexDigit_formChar : ∀ n : Fin 16, isFormChar (hexDigit n) = true := by decide

theorem mem_formEncode {c : Char} {cs : List Char} (h : c ∈ formEncode cs) :
    c = '+' ∨ c = '%' ∨ isFormChar c = true := by
  obtain ⟨d, -, hd⟩ := List.mem_flatMap.1 h
  split at hd
  · exact Or.inl (List.mem_singleton.1 hd)
  split at hd
  · next hplain =>
    rw [List.mem_singleton.1 hd]
    exact Or.inr (Or.inr hplain)
  · rcases mem_encodeChar hd with rfl | ⟨n, rfl⟩
    · exact Or.inr (Or.inl rfl)
    · exact Or.inr (Or.inr (hexDigit_formChar n))

theorem not_mem_formEncode {c : Char} (hplus : c ≠ '+') (hpercent : c ≠ '%')
    (hc : isFormChar c = false) (cs : List Char) : c ∉ formEncode cs := by
  intro h
  rcases mem_formEncode h with h | h | h
  · exact hplus h
  · exact hpercent h
  · rw [hc] at h
    cases h

/-! ## Parameters -/

/-- A parameter in a form. -/
def formParameter (name value : String) : List Char :=
  formEncode name.toList ++ '=' :: formEncode value.toList

theorem formPair?_formParameter (name value : String) :
    formPair? (formParameter name value) = some (name, value) := by
  have hname : '=' ∉ formEncode name.toList :=
    not_mem_formEncode (by decide) (by decide) (by decide) _
  simp only [formPair?, formParameter, cut_append_mark _ hname, List.tail_cons,
    formDecode_formEncode]
  rfl

theorem splitOn_formParameter (name value : String) :
    List.splitOn '&' (formParameter name value) = [formParameter name value] := by
  have hmem : ∀ text, '&' ∉ formEncode text :=
    not_mem_formEncode (by decide) (by decide) (by decide)
  refine List.splitOn_eq_singleton fun h => ?_
  rcases List.mem_append.1 h with h | h
  · exact hmem _ h
  rcases List.mem_cons.1 h with h | h
  · cases h
  · exact hmem _ h

theorem formPairs?_formParameter (name value : String) :
    formPairs? (formParameter name value) = some [(name, value)] := by
  have hne : formParameter name value ≠ [] := by simp [formParameter]
  simp [formPairs?, splitOn_formParameter, hne, formPair?_formParameter]

theorem formPairs?_append {query : List Char} {pairs : List (String × String)}
    (h : formPairs? query = some pairs) (name value : String) :
    formPairs? (query ++ '&' :: formParameter name value) = some (pairs ++ [(name, value)]) := by
  have hlast := formPairs?_formParameter name value
  rw [formPairs?] at h hlast ⊢
  rw [List.splitOn_append_cons_self, List.filter_append, List.mapM_append, h, hlast]
  rfl

theorem query_addParameter (u : Url) (name value : String) :
    (u.addParameter name value).query = some (if u.query.getD [] = [] then
      formParameter name value else u.query.getD [] ++ '&' :: formParameter name value) := by
  rcases hquery : u.query with _ | ⟨_ | ⟨c, cs⟩⟩ <;> simp only [addParameter, hquery] <;> rfl

/-- **An added parameter is read behind those that were there.** -/
theorem parameters_addParameter {u : Url} {pairs : List (String × String)}
    (h : u.parameters = some pairs) (name value : String) :
    (u.addParameter name value).parameters = some (pairs ++ [(name, value)]) := by
  rw [parameters] at h
  rw [parameters, query_addParameter, Option.getD_some]
  split
  · next hnil =>
    have hpairs : some [] = some pairs := by
      rw [hnil] at h
      exact h
    rw [← Option.some.inj hpairs, formPairs?_formParameter, List.nil_append]
  · exact formPairs?_append h name value

/-! ## Addresses with parameters -/

theorem querySet_of_isFormChar {c : Char} (h : isFormChar c = true) : querySet c = false := by
  have hle : ∀ c d : Char, c ≤ d ↔ c.toNat ≤ d.toNat := fun _ _ => Iff.rfl
  have hascii : c.toNat < 0x80 := by
    simp only [isFormChar, Text.isAsciiDigit, Bool.or_eq_true, Bool.and_eq_true, decide_eq_true_eq,
      beq_iff_eq, hle] at h
    rcases h with (((((h | h) | h) | rfl) | rfl) | rfl) | rfl
    · exact Nat.lt_of_le_of_lt h.2 (by decide)
    · exact Nat.lt_of_le_of_lt h.2 (by decide)
    · exact Nat.lt_of_le_of_lt h.2 (by decide)
    all_goals decide
  exact ascii_forall (P := fun c => isFormChar c = true → querySet c = false) (by decide +kernel)
    hascii h

theorem querySet_of_mem_formParameter {name value : String} {c : Char}
    (h : c ∈ formParameter name value) : querySet c = false := by
  have hencoded : ∀ {cs}, c ∈ formEncode cs → querySet c = false := by
    intro cs hc
    rcases mem_formEncode hc with rfl | rfl | hc
    · rfl
    · rfl
    · exact querySet_of_isFormChar hc
  rcases List.mem_append.1 h with h | h
  · exact hencoded h
  rcases List.mem_cons.1 h with rfl | h
  · rfl
  · exact hencoded h

theorem IsNormal.addParameter {hosts : HostReader} {u : Url} (h : u.IsNormal hosts)
    (name value : String) : (u.addParameter name value).IsNormal hosts where
  user := h.user
  host := h.host
  read := h.read
  port := h.port
  path := h.path
  query := by
    intro query hquery c hc
    rw [query_addParameter] at hquery
    cases hquery
    split at hc
    · exact querySet_of_mem_formParameter hc
    rcases List.mem_append.1 hc with hc | hc
    · cases hold : u.query with
      | none =>
        rw [hold] at hc
        cases hc
      | some old =>
        rw [hold] at hc
        exact h.query old hold c hc
    rcases List.mem_cons.1 hc with rfl | hc
    · rfl
    · exact querySet_of_mem_formParameter hc
  fragment := h.fragment

end ReleaseFlow.Url
