import Mathlib.Tactic.SplitIfs
import ReleaseFlow.Json.Reader

/-!
# The bytes of a text as characters

A document is read from bytes as characters below 256.

* `Json.encoded`: the bytes of characters in this form;
* `encoded_ascii`, `high_of_mem_encoded`: a byte below 128 is a character, one above is part of one;
* `fromUTF8?_flatMap`, `fromUTF8?_encoded`: **the bytes of a text make the text**.
-/

namespace ReleaseFlow.Json

/-- The bytes of characters, as characters below 256. -/
def encoded (cs : List Char) : List Char :=
  (cs.flatMap String.utf8EncodeChar).map fun b => Char.ofNat b.toNat

theorem data_toByteArray (text : String) :
    text.toByteArray.data = (text.toList.flatMap String.utf8EncodeChar).toArray := by
  have htext : text.toByteArray = text.toList.utf8Encode := by
    rw [← String.toByteArray_ofList, String.ofList_toList]
  rw [htext, List.utf8Encode, List.data_toByteArray]

theorem byteChars_toUTF8 (text : String) : byteChars text.toUTF8 = encoded text.toList := by
  rw [String.toUTF8_eq_toByteArray, byteChars, data_toByteArray, encoded]

theorem encoded_append (cs ds : List Char) : encoded (cs ++ ds) = encoded cs ++ encoded ds := by
  rw [encoded, List.flatMap_append, List.map_append]
  rfl

theorem encoded_cons (c : Char) (cs : List Char) : encoded (c :: cs) = encoded [c] ++ encoded cs :=
  encoded_append [c] cs

/-! ## Bytes below and above 128 -/

theorem encoded_singleton_ascii {c : Char} (h : c.toNat < 128) : encoded [c] = [c] := by
  have hsize : c.utf8Size = 1 := by
    rw [Char.utf8Size_eq_one_iff, UInt32.le_iff_toNat_le]
    exact Nat.le_of_lt_succ h
  have hbyte : c.val.toUInt8.toNat = c.toNat := by
    rw [UInt32.toNat_toUInt8]
    exact Nat.mod_eq_of_lt (Nat.lt_trans h (by decide))
  rw [encoded, List.flatMap_cons, List.flatMap_nil, List.append_nil,
    String.utf8EncodeChar_eq_singleton hsize, List.map_singleton, hbyte, Char.ofNat_toNat]

theorem encoded_ascii {cs : List Char} (h : ∀ c ∈ cs, c.toNat < 128) : encoded cs = cs := by
  induction cs with
  | nil => rfl
  | cons c cs ih =>
    rw [encoded_cons, encoded_singleton_ascii (h c (by simp)),
      ih fun d hd => h d (List.mem_cons_of_mem c hd)]
    rfl

theorem toNat_ofNat_byte (b : UInt8) : (Char.ofNat b.toNat).toNat = b.toNat := by
  have hb : b.toNat < 256 := b.toNat_lt
  have hvalid : b.toNat.isValidChar := Or.inl (by omega)
  rw [Char.ofNat, dif_pos hvalid]
  rfl

theorem high_of_mem_encoded {c d : Char} (h : 128 ≤ c.toNat) (hd : d ∈ encoded [c]) :
    128 ≤ d.toNat := by
  rw [encoded, List.flatMap_cons, List.flatMap_nil, List.append_nil] at hd
  obtain ⟨b, hb, rfl⟩ := List.mem_map.1 hd
  rw [toNat_ofNat_byte]
  have hval : ¬ c.val.toNat ≤ 127 := Nat.not_le.2 h
  unfold String.utf8EncodeChar at hb
  simp only [if_neg hval] at hb
  -- two, three or four bytes
  split_ifs at hb
  · simp only [List.mem_cons, List.not_mem_nil, or_false] at hb
    rcases hb with rfl | rfl <;> rw [UInt8.toNat_ofNat'] <;> omega
  · simp only [List.mem_cons, List.not_mem_nil, or_false] at hb
    rcases hb with rfl | rfl | rfl <;> rw [UInt8.toNat_ofNat'] <;> omega
  · simp only [List.mem_cons, List.not_mem_nil, or_false] at hb
    rcases hb with rfl | rfl | rfl | rfl <;> rw [UInt8.toNat_ofNat'] <;> omega

/-! ## Back to text -/

theorem fromUTF8?_flatMap (text : String) :
    String.fromUTF8? ⟨(text.toList.flatMap String.utf8EncodeChar).toArray⟩ = some text := by
  have htext : (⟨(text.toList.flatMap String.utf8EncodeChar).toArray⟩ : ByteArray) =
      text.toByteArray := ByteArray.ext (data_toByteArray text).symm
  rw [htext, String.fromUTF8?, dif_pos text.isValidUTF8]
  rfl

/-- **The bytes of a text make the text.** -/
theorem fromUTF8?_encoded (text : String) :
    String.fromUTF8? ⟨((encoded text.toList).map fun c => UInt8.ofNat c.toNat).toArray⟩ =
      some text := by
  have hbytes : (encoded text.toList).map (fun c => UInt8.ofNat c.toNat) =
      text.toList.flatMap String.utf8EncodeChar := by
    rw [encoded, List.map_map]
    refine (List.map_congr_left fun b _ => ?_).trans (List.map_id _)
    change UInt8.ofNat (Char.ofNat b.toNat).toNat = b
    rw [toNat_ofNat_byte, UInt8.ofNat_toNat]
  rw [hbytes, fromUTF8?_flatMap]

end ReleaseFlow.Json
