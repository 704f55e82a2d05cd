import Mathlib.Data.Nat.Notation
import ReleaseFlow.Http.Url
import ReleaseFlow.Proofs.Json.Bytes

/-!
# Percent-encoding

* `Url.encodeChar_eq`: the bytes of a character by their numbers;
* `Url.encode_ne_nil`, `Url.not_mem_encode`: encoding neither empties nor splits a text;
* `Url.mem_encode`: the characters of an encoded text;
* `Url.not_inSet_of_mem_encode`, `Url.encode_of_not_inSet`: **encoded texts stay as they are**;
* `Url.encodeChar_ascii`: the number of an ASCII character has two digits;
* `Url.encode_injective`: **texts without percent signs are told apart once they are encoded**;
* `Url.not_dot_of_encode`: encoding does not make a dot segment.
-/

namespace ReleaseFlow.Url

/-! ## All characters -/

theorem toList_loop_eq (bytes : ByteArray) (i : ℕ) (read : List UInt8) :
    ByteArray.toList.loop bytes i read = read.reverse ++ bytes.data.toList.drop i := by
  induction h : bytes.size - i generalizing i read with
  | zero =>
    have hsize : bytes.data.toList.length ≤ i := Nat.le_of_sub_eq_zero h
    rw [ByteArray.toList.loop, if_neg (by omega), List.drop_eq_nil_of_le hsize, List.append_nil]
  | succ n ih =>
    have hsize : i < bytes.size := by omega
    have hlt : i < bytes.data.toList.length := hsize
    have hget : bytes.get! i = bytes.data.toList[i] := by
      cases bytes
      exact getElem!_pos _ i hlt
    rw [ByteArray.toList.loop, if_pos hsize, ih _ _ (by omega), List.reverse_cons,
      List.append_assoc, List.singleton_append, hget, List.drop_eq_getElem_cons hlt]

theorem encodeChar_eq (c : Char) :
    encodeChar c = (String.utf8EncodeChar c).flatMap encodeByte := by
  have hbytes : (String.singleton c).toUTF8.toList = String.utf8EncodeChar c := by
    rw [String.toUTF8_eq_toByteArray, ByteArray.toList, toList_loop_eq, Json.data_toByteArray,
      String.toList_singleton]
    simp
  rw [encodeChar, hbytes]

theorem encodeChar_ne_nil (c : Char) : encodeChar c ≠ [] := by
  have hbytes : String.utf8EncodeChar c ≠ [] :=
    List.ne_nil_of_length_pos (String.length_utf8EncodeChar c ▸ c.utf8Size_pos)
  obtain ⟨b, bs, hcons⟩ := List.exists_cons_of_ne_nil hbytes
  rw [encodeChar_eq, hcons, List.flatMap_cons, encodeByte]
  exact List.cons_ne_nil _ _

section Encode

variable (inSet : Char → Bool)

theorem encode_ne_nil {inSet : Char → Bool} {cs : List Char} (h : cs ≠ []) :
    encode inSet cs ≠ [] := by
  obtain ⟨c, cs, rfl⟩ := List.exists_cons_of_ne_nil h
  rw [encode, List.flatMap_cons]
  split
  · simp [encodeChar_ne_nil]
  · simp

theorem encode_cons (c : Char) (cs : List Char) :
    encode inSet (c :: cs) = (if inSet c then encodeChar c else [c]) ++ encode inSet cs :=
  List.flatMap_cons

theorem encode_append (cs ds : List Char) :
    encode inSet (cs ++ ds) = encode inSet cs ++ encode inSet ds :=
  List.flatMap_append

theorem mem_encodeChar {c d : Char} (h : d ∈ encodeChar c) :
    d = '%' ∨ ∃ n : Fin 16, d = hexDigit n := by
  obtain ⟨b, -, hb⟩ := List.mem_flatMap.1 h
  have hlt := b.toNat_lt
  simp only [encodeByte, List.mem_cons, List.not_mem_nil, or_false] at hb
  rcases hb with hb | hb | hb
  · exact Or.inl hb
  · exact Or.inr ⟨⟨b.toNat / 16, by omega⟩, hb⟩
  · exact Or.inr ⟨⟨b.toNat % 16, by omega⟩, hb⟩

variable {inSet} in
/-- A character of an encoded text belongs to a number, or is as it was. -/
theorem mem_encode {c : Char} {cs : List Char} (h : c ∈ encode inSet cs) :
    c = '%' ∨ (∃ n : Fin 16, c = hexDigit n) ∨ c ∈ cs ∧ inSet c = false := by
  obtain ⟨d, hd, hc⟩ := List.mem_flatMap.1 h
  split at hc
  · exact (mem_encodeChar hc).imp_right Or.inl
  · next hnot =>
    rw [List.mem_singleton.1 hc]
    exact Or.inr (Or.inr ⟨hd, Bool.eq_false_iff.2 hnot⟩)

/-- The characters that numbers are written with are not in the set. -/
def IsEncodeSet : Prop :=
  inSet '%' = false ∧ ∀ n : Fin 16, inSet (hexDigit n) = false

variable {inSet} in
theorem not_inSet_of_mem_encode (h : IsEncodeSet inSet) {c : Char} {cs : List Char}
    (hc : c ∈ encode inSet cs) : inSet c = false := by
  rcases mem_encode hc with rfl | ⟨n, rfl⟩ | ⟨-, hnot⟩
  · exact h.1
  · exact h.2 n
  · exact hnot

variable {inSet} in
theorem encode_of_not_inSet {cs : List Char} (h : ∀ c ∈ cs, inSet c = false) :
    encode inSet cs = cs := by
  induction cs with
  | nil => rfl
  | cons c cs ih =>
    rw [encode_cons, h c List.mem_cons_self, ih fun d hd => h d (List.mem_cons_of_mem c hd)]
    rfl

theorem not_mem_encode {d : Char} (hd : d = '/' ∨ d = '\\') {cs : List Char} (h : d ∉ cs) :
    d ∉ encode inSet cs := by
  have hdigit : ∀ n : Fin 16, hexDigit n ≠ '/' ∧ hexDigit n ≠ '\\' := by decide
  intro hmem
  rcases mem_encode hmem with rfl | ⟨n, rfl⟩ | ⟨hin, -⟩
  · rcases hd with hd | hd <;> cases hd
  · exact hd.elim (hdigit n).1 (hdigit n).2
  · exact h hin

end Encode

/-! ## ASCII characters -/

/-- What holds of every ASCII character, by their numbers. -/
theorem ascii_forall {P : Char → Prop} (h : ∀ n < 0x80, P (Char.ofNat n)) {c : Char}
    (hc : c.toNat < 0x80) : P c := by
  have hchar := h c.toNat hc
  rwa [Char.ofNat_toNat] at hchar

theorem encodeChar_ascii {c : Char} (hc : c.toNat < 0x80) :
    encodeChar c = ['%', hexDigit (c.toNat / 16), hexDigit (c.toNat % 16)] :=
  ascii_forall (P := fun c => encodeChar c =
    ['%', hexDigit (c.toNat / 16), hexDigit (c.toNat % 16)]) (by decide +kernel) hc

theorem hexDigit_injective : ∀ m n : Fin 16, hexDigit m = hexDigit n → m = n := by decide

theorem encodeChar_injective {c d : Char} (hc : c.toNat < 0x80) (hd : d.toNat < 0x80)
    (h : encodeChar c = encodeChar d) : c = d := by
  rw [encodeChar_ascii hc, encodeChar_ascii hd] at h
  injection h with _ h
  injection h with hhigh h
  injection h with hlow _
  have hhigh' := hexDigit_injective ⟨c.toNat / 16, by omega⟩ ⟨d.toNat / 16, by omega⟩ hhigh
  have hlow' := hexDigit_injective ⟨c.toNat % 16, by omega⟩ ⟨d.toNat % 16, by omega⟩ hlow
  rw [Fin.mk.injEq] at hhigh' hlow'
  exact Char.toNat_inj.1 (by omega)

/-- An ASCII character that does not begin the number of a character, as a percent sign does. -/
def IsUnread (c : Char) : Prop :=
  c.toNat < 0x80 ∧ c ≠ '%'

/-- **Texts without percent signs are told apart once they are encoded.** -/
theorem encode_injective {inSet : Char → Bool} {cs ds : List Char} (hcs : ∀ c ∈ cs, IsUnread c)
    (hds : ∀ d ∈ ds, IsUnread d) (h : encode inSet cs = encode inSet ds) : cs = ds := by
  induction cs generalizing ds with
  | nil =>
    cases ds with
    | nil => rfl
    | cons d ds => exact absurd h.symm (encode_ne_nil (List.cons_ne_nil d ds))
  | cons c cs ih =>
    cases ds with
    | nil => exact absurd h (encode_ne_nil (List.cons_ne_nil c cs))
    | cons d ds =>
      obtain ⟨hc, hcs'⟩ := List.forall_mem_cons.1 hcs
      obtain ⟨hd, hds'⟩ := List.forall_mem_cons.1 hds
      rw [encode_cons, encode_cons] at h
      by_cases hinc : inSet c = true <;> by_cases hind : inSet d = true
      · rw [if_pos hinc, if_pos hind] at h
        have hlength : (encodeChar c).length = (encodeChar d).length := by
          rw [encodeChar_ascii hc.1, encodeChar_ascii hd.1]
          rfl
        obtain ⟨hhead, htail⟩ := List.append_inj h hlength
        rw [encodeChar_injective hc.1 hd.1 hhead, ih hcs' hds' htail]
      -- a number begins with a percent sign
      · rw [if_pos hinc, if_neg hind, encodeChar_ascii hc.1] at h
        exact absurd (List.cons.inj h).1.symm hd.2
      · rw [if_neg hinc, if_pos hind, encodeChar_ascii hd.1] at h
        exact absurd (List.cons.inj h).1 hc.2
      · rw [if_neg hinc, if_neg hind] at h
        obtain ⟨rfl, htail⟩ := List.cons.inj h
        rw [ih hcs' hds' htail]

/-! ## Dot segments -/

theorem toLower_ne {c d : Char} (hne : c ≠ d) (hlow : d.toNat < 97) : c.toLower ≠ d := by
  intro heq
  unfold Char.toLower at heq
  split at heq
  · next hupper =>
    have hA : 65 ≤ c.toNat := hupper.1
    have hZ : c.toNat ≤ 90 := hupper.2
    have hnat := congrArg Char.toNat heq
    simp at hnat
    omega
  · exact hne heq

theorem not_dot_of_head {c : Char} (hdot : c ≠ '.') (hpercent : c ≠ '%') (cs : List Char) :
    isSingleDot (c :: cs) = false ∧ isDoubleDot (c :: cs) = false := by
  have hdot' := toLower_ne hdot (by decide)
  have hpercent' := toLower_ne hpercent (by decide)
  simp [isSingleDot, isDoubleDot, hdot, hdot', hpercent']

theorem eq_dot_of_hexDigits {c : Char} (hc : c.toNat < 0x80) :
    (hexDigit (c.toNat / 16)).toLower = '2' ∧ (hexDigit (c.toNat % 16)).toLower = 'e' →
      c = '.' :=
  ascii_forall (P := fun c => (hexDigit (c.toNat / 16)).toLower = '2' ∧
    (hexDigit (c.toNat % 16)).toLower = 'e' → c = '.') (by decide +kernel) hc

/-- A dot segment that begins with a percent sign begins with the number of a dot. -/
theorem not_dot_of_digits {high low : Char} (h : ¬ (high.toLower = '2' ∧ low.toLower = 'e'))
    (cs : List Char) : isSingleDot ('%' :: high :: low :: cs) = false ∧
      isDoubleDot ('%' :: high :: low :: cs) = false := by
  rw [not_and] at h
  simp +contextual [isSingleDot, isDoubleDot, h]

/-- Encoding does not make a dot segment. -/
theorem not_dot_of_encode (inSet : Char → Bool) {c : Char} (hc : IsUnread c) (hdot : c ≠ '.')
    (cs : List Char) : isSingleDot (encode inSet (c :: cs)) = false ∧
      isDoubleDot (encode inSet (c :: cs)) = false := by
  rw [encode_cons]
  split
  · rw [encodeChar_ascii hc.1]
    exact not_dot_of_digits (fun h => hdot (eq_dot_of_hexDigits hc.1 h)) _
  · exact not_dot_of_head hdot hc.2 _

end ReleaseFlow.Url
