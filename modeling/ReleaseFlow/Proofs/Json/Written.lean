import ReleaseFlow.Proofs.Json.Bytes
import ReleaseFlow.Proofs.Text.Decimal
import ReleaseFlow.Proofs.Text.Pieces

/-!
# Written documents

JSON as servers write it: without blanks, and with no more escapes than a string must have.

* `Json.write`, `Json.bytes`: the text and the bytes of a value;
* `Json.Writable`: the values that have such a text;
* `textOf_escaped`: the text of a string, read back from its escapes;
* `Json.Reads`: a text at the front of a document that is read as a value; `reads_word`,
  `reads_text`, `reads_array`, `reads_object`: such texts, kind by kind;
* `readBytes_bytes`: **a written document is read back**.
-/

namespace ReleaseFlow.Json

/-! ## Writing -/

/-- The letter that stands for a character after a backslash. -/
def letter? (c : Char) : Option Char :=
  match c with
  | '"' => some '"'
  | '\\' => some '\\'
  | '\x08' => some 'b'
  | '\x0c' => some 'f'
  | '\n' => some 'n'
  | '\r' => some 'r'
  | '\t' => some 't'
  | _ => none

/-- A digit of base sixteen, in small letters. -/
def hexDigit (n : Nat) : Char :=
  if n < 10 then Char.ofNat (48 + n) else Char.ofNat (87 + n)

/-- A character inside a string. Control characters are given by a letter or by number. -/
def escape (c : Char) : List Char :=
  match letter? c with
  | some l => ['\\', l]
  | none =>
    if c.toNat < 0x20 then ['\\', 'u', '0', '0', hexDigit (c.toNat / 16), hexDigit (c.toNat % 16)]
    else [c]

def writeText (text : String) : List Char :=
  '"' :: (text.toList.flatMap escape ++ ['"'])

mutual

/-- The text of a value. -/
def write : Json → List Char
  | null => "null".toList
  | bool true => "true".toList
  | bool false => "false".toList
  | natural n => (Text.decimal n).toList
  | number literal => literal.toList
  | string text => writeText (text.getD "")
  | array elements => '[' :: (List.intercalate [','] (writeElements elements) ++ [']'])
  | object members => '\x7b' :: (List.intercalate [','] (writeMembers members) ++ ['\x7d'])

def writeElements : List Json → List (List Char)
  | [] => []
  | v :: vs => write v :: writeElements vs

def writeMembers : List (Option String × Json) → List (List Char)
  | [] => []
  | (key, v) :: ms => (writeText (key.getD "") ++ ':' :: write v) :: writeMembers ms

end

/-- The bytes of a written document. -/
def bytes (j : Json) : ByteArray :=
  (String.ofList j.write).toUTF8

/-- The value can be written and read back: its numbers have no sign and no fraction, its texts can
be used. -/
inductive Writable : Json → Prop
  | null : Writable .null
  | bool (value : Bool) : Writable (.bool value)
  | natural (n : Nat) : Writable (.natural n)
  | text (text : String) : Writable (.ofText text)
  | array {elements : List Json} : (∀ v ∈ elements, Writable v) → Writable (.array elements)
  | object {members : List (String × Json)} :
    (∀ m ∈ members, Writable m.2) → Writable (.ofMembers members)

theorem writeElements_eq (vs : List Json) : writeElements vs = vs.map write := by
  induction vs with
  | nil => rfl
  | cons v vs ih => rw [writeElements, ih, List.map_cons]

theorem writeMembers_eq (ms : List (String × Json)) :
    writeMembers (ms.map fun m => (some m.1, m.2)) =
      ms.map fun m => writeText m.1 ++ ':' :: write m.2 := by
  induction ms with
  | nil => rfl
  | cons m ms ih => rw [List.map_cons, writeMembers, ih, List.map_cons, Option.getD_some]

/-! ## Strings -/

theorem of_letter? {c l : Char} (h : letter? c = some l) :
    shortEscape? l = some c ∧ l ≠ 'u' ∧ l.toNat < 128 ∧ c.toNat < 128 := by
  unfold letter? at h
  split at h <;> cases h <;> decide

theorem ne_of_letter?_none {c : Char} (h : letter? c = none) : c ≠ '"' ∧ c ≠ '\\' := by
  constructor
  · rintro rfl
    cases h
  · rintro rfl
    cases h

theorem hexDigit_spec : ∀ n < 16, Text.isHexDigit (hexDigit n) = true ∧
    Text.hexDigitValue (hexDigit n) = n ∧ (hexDigit n).toNat < 128 := by
  decide

/-- The pieces as which a character is read. -/
def escapedPieces (c : Char) : List Piece :=
  if (letter? c).isSome then [.char c]
  else if c.toNat < 0x20 then [.unit c.toNat]
  else (encoded [c]).map .char

/-- More pieces in front. -/
def pushAll (ps : List Piece) (r : Read (List Piece)) : Read (List Piece) :=
  r.map fun (qs, rest) => (ps ++ qs, rest)

theorem pushAll_append (ps qs : List Piece) (r : Read (List Piece)) :
    pushAll (ps ++ qs) r = pushAll ps (pushAll qs r) := by
  cases r with
  | none => rfl
  | some r => simp [pushAll]

theorem push_eq (p : Piece) (r : Read (List Piece)) : push p r = pushAll [p] r := rfl

theorem pieces_letter {c l : Char} (h : letter? c = some l) (rest : List Char) :
    pieces .plain ('\\' :: l :: rest) = pushAll [.char c] (pieces .plain rest) := by
  obtain ⟨hshort, hu, -⟩ := of_letter? h
  have hescape : pieces .plain ('\\' :: l :: rest) = pieces .escape (l :: rest) := rfl
  rw [hescape, pieces, if_neg hu, hshort, Option.bind_some, push_eq]

theorem pieces_control {c : Char} (h : c.toNat < 0x20) (rest : List Char) :
    pieces .plain ('\\' :: 'u' :: '0' :: '0' :: hexDigit (c.toNat / 16) ::
      hexDigit (c.toNat % 16) :: rest) = pushAll [.unit c.toNat] (pieces .plain rest) := by
  obtain ⟨hhigh, hhighValue, -⟩ := hexDigit_spec (c.toNat / 16) (by omega)
  obtain ⟨hlow, hlowValue, -⟩ := hexDigit_spec (c.toNat % 16) (by omega)
  have hzeros : ∀ cs, pieces .plain ('\\' :: 'u' :: '0' :: '0' :: cs) =
      pieces (.number 2 0) cs := fun cs => rfl
  have hvalue : 16 * (16 * 0 + c.toNat / 16) + c.toNat % 16 = c.toNat := by omega
  rw [hzeros, pieces, if_pos hhigh, hhighValue]
  dsimp only
  rw [if_neg (by decide), pieces, if_pos hlow, hlowValue]
  dsimp only
  rw [if_pos rfl, hvalue, push_eq]

theorem pieces_plain {cs : List Char} (h : ∀ c ∈ cs, c ≠ '"' ∧ c ≠ '\\' ∧ 0x20 ≤ c.toNat)
    (rest : List Char) :
    pieces .plain (cs ++ rest) = pushAll (cs.map .char) (pieces .plain rest) := by
  induction cs with
  | nil =>
    rw [List.nil_append, List.map_nil]
    cases pieces .plain rest <;> rfl
  | cons c cs ih =>
    obtain ⟨hquote, hbackslash, hcontrol⟩ := h c (by simp)
    rw [List.cons_append, pieces, if_neg hquote, if_neg hbackslash, if_neg (by omega),
      ih fun d hd => h d (List.mem_cons_of_mem c hd), push_eq, ← pushAll_append]
    · rfl
    · simp
    · simp

theorem pieces_escape (c : Char) (rest : List Char) : pieces .plain (encoded (escape c) ++ rest) =
    pushAll (escapedPieces c) (pieces .plain rest) := by
  unfold escape escapedPieces
  cases hletter : letter? c with
  | some l =>
    obtain ⟨-, -, hl, -⟩ := of_letter? hletter
    have hascii : encoded ['\\', l] = ['\\', l] := encoded_ascii (by simpa using hl)
    simp only [hascii, Option.isSome_some, if_true]
    exact pieces_letter hletter rest
  | none =>
    obtain ⟨hquote, hbackslash⟩ := ne_of_letter?_none hletter
    simp only [Option.isSome_none, Bool.false_eq_true, if_false]
    by_cases hcontrol : c.toNat < 0x20
    · obtain ⟨-, -, hhigh⟩ := hexDigit_spec (c.toNat / 16) (by omega)
      obtain ⟨-, -, hlow⟩ := hexDigit_spec (c.toNat % 16) (by omega)
      rw [if_pos hcontrol, if_pos hcontrol, encoded_ascii (by simp [hhigh, hlow])]
      exact pieces_control hcontrol rest
    · rw [if_neg hcontrol, if_neg hcontrol]
      refine pieces_plain (fun d hd => ?_) rest
      by_cases hascii : c.toNat < 128
      · rw [encoded_singleton_ascii hascii, List.mem_singleton] at hd
        subst hd
        exact ⟨hquote, hbackslash, by omega⟩
      · have hhigh := high_of_mem_encoded (by omega) hd
        refine ⟨?_, ?_, by omega⟩
        · rintro rfl
          exact absurd hhigh (by decide)
        · rintro rfl
          exact absurd hhigh (by decide)

theorem pieces_text (cs rest : List Char) :
    pieces .plain (encoded (cs.flatMap escape) ++ '"' :: rest) =
      some (cs.flatMap escapedPieces, rest) := by
  induction cs with
  | nil => rfl
  | cons c cs ih =>
    rw [List.flatMap_cons, encoded_append, List.append_assoc, pieces_escape, ih]
    rfl

/-- How a character that is given by number is spelled in a document that is read by its bytes. -/
def spelled (c : Char) : List Char :=
  byteChars (String.singleton c).toUTF8

theorem spelled_eq (c : Char) : spelled c = encoded [c] := by
  rw [spelled, byteChars_toUTF8, String.toList_singleton]

theorem characters?_map_char (cs : List Char) (ps : List Piece) :
    characters? spelled (cs.map .char ++ ps) = (characters? spelled ps).map (cs ++ ·) := by
  induction cs with
  | nil => simp
  | cons c cs ih =>
    rw [List.map_cons, List.cons_append, characters?, ih, Option.map_map]
    rfl

/-- A unit below those of surrogate pairs is a character. -/
theorem characters?_unit {n : ℕ} (h : n < 0xD800) (ps : List Piece) :
    characters? spelled (.unit n :: ps) =
      (characters? spelled ps).map (spelled (Char.ofNat n) ++ ·) := by
  have hhigh : isHighUnit n = false := by
    simp only [isHighUnit, Bool.and_eq_false_iff, decide_eq_false_iff_not]
    omega
  have hlow : isLowUnit n = false := by
    simp only [isLowUnit, Bool.and_eq_false_iff, decide_eq_false_iff_not]
    omega
  simp only [characters?.eq_def spelled (.unit n :: ps), hhigh, hlow, Bool.false_eq_true, if_false]

theorem characters?_escaped (c : Char) (ps : List Piece) :
    characters? spelled (escapedPieces c ++ ps) =
      (characters? spelled ps).map (encoded [c] ++ ·) := by
  unfold escapedPieces
  split
  · next h =>
    obtain ⟨l, hl⟩ := Option.isSome_iff_exists.1 h
    obtain ⟨-, -, -, hascii⟩ := of_letter? hl
    rw [encoded_singleton_ascii hascii]
    exact characters?_map_char [c] ps
  split
  · next hcontrol =>
    rw [List.singleton_append, characters?_unit (by omega), Char.ofNat_toNat, spelled_eq]
  · exact characters?_map_char _ ps

theorem textOf_escaped (text : String) :
    textOfBytes? (text.toList.flatMap escapedPieces) = some text := by
  have hall : ∀ cs : List Char,
      characters? spelled (cs.flatMap escapedPieces) = some (encoded cs) := by
    intro cs
    induction cs with
    | nil => rfl
    | cons c cs ih =>
      rw [List.flatMap_cons, characters?_escaped, ih, encoded_cons c cs]
      rfl
  have htext : textOfBytes? (text.toList.flatMap escapedPieces) =
      (characters? spelled (text.toList.flatMap escapedPieces)).bind fun cs =>
        String.fromUTF8? ⟨(cs.map fun c => UInt8.ofNat c.toNat).toArray⟩ := rfl
  rw [htext, hall, Option.bind_some, fromUTF8?_encoded]

theorem stringBody_text (text : String) (rest : List Char) :
    stringBody textOfBytes? (encoded (text.toList.flatMap escape) ++ '"' :: rest) =
      some (some text, rest) := by
  rw [stringBody, pieces_text, Option.map_some]
  dsimp only
  rw [textOf_escaped]

/-! ## Values at the front of a document -/

/-- The rest of a document does not continue a word. -/
def Ended (rest : List Char) : Prop :=
  ∀ c ∈ rest.head?, isWordChar c = false

/-- The text is read as the value, whatever comes behind it. -/
structure Reads (text : List Char) (v : Json) : Prop where
  start : ∃ c cs, text = c :: cs ∧ isSpace c = false ∧ c ≠ ']' ∧ c ≠ '\x7d'
  value_succ : ∀ depth rest, text.length ≤ depth + 1 → Ended rest →
    value textOfBytes? (depth + 1) (text ++ rest) = some (v, rest)

theorem Reads.value {text : List Char} {v : Json} (h : Reads text v) {depth : ℕ}
    (hdepth : text.length ≤ depth) {rest : List Char} (hrest : Ended rest) :
    value textOfBytes? depth (text ++ rest) = some (v, rest) := by
  obtain ⟨c, cs, rfl, -⟩ := h.start
  obtain ⟨depth, rfl⟩ := Nat.exists_eq_add_of_le' (Nat.one_le_of_lt hdepth)
  exact h.value_succ depth rest hdepth hrest

theorem lt_of_isWordChar {c : Char} (h : isWordChar c = true) : c.toNat < 128 := by
  have hle : ∀ c d : Char, c ≤ d ↔ c.toNat ≤ d.toNat := fun _ _ => Iff.rfl
  simp only [isWordChar, Text.isAsciiDigit, Bool.or_eq_true, Bool.and_eq_true, decide_eq_true_eq,
    beq_iff_eq, hle] at h
  rcases h with ((((h | h) | h) | rfl) | rfl) | rfl
  · exact Nat.lt_of_le_of_lt h.2 (by decide)
  · exact Nat.lt_of_le_of_lt h.2 (by decide)
  · exact Nat.lt_of_le_of_lt h.2 (by decide)
  · decide
  · decide
  · decide

theorem reads_word {word : List Char} {v : Json} (hne : word ≠ [])
    (hword : word.all isWordChar = true) (hv : ofWord? word = some v) :
    Reads (encoded word) v := by
  have hall := List.all_eq_true.1 hword
  rw [encoded_ascii fun c hc => lt_of_isWordChar (hall c hc)]
  obtain ⟨c, cs, rfl⟩ := List.exists_cons_of_ne_nil hne
  have hc := hall c (by simp)
  have hother : ∀ d, isWordChar d = false → c ≠ d := by
    rintro d hd rfl
    rw [hd] at hc
    cases hc
  have hspace : isSpace c = false := by
    by_contra h
    simp only [isSpace, Bool.not_eq_false, Bool.or_eq_true, beq_iff_eq] at h
    rcases h with ((rfl | rfl) | rfl) | rfl <;> exact absurd hc (by decide)
  refine ⟨⟨c, cs, rfl, hspace, hother _ rfl, hother _ rfl⟩, fun depth rest hdepth hrest => ?_⟩
  have htake : (c :: cs ++ rest).takeWhile isWordChar = c :: cs := by
    rw [List.takeWhile_append_of_pos hall]
    cases rest with
    | nil => simp
    | cons d ds => simp [hrest d rfl]
  have hdrop : (c :: cs ++ rest).dropWhile isWordChar = rest := by
    rw [List.dropWhile_append_of_pos hall]
    cases rest with
    | nil => rfl
    | cons d ds => simp [hrest d rfl]
  rw [Json.value.eq_5, htake, hdrop, hv, Option.map_some]
  · rintro ds hds
    exact hother '[' rfl (List.cons.inj hds).1
  · rintro ds hds
    exact hother '\x7b' rfl (List.cons.inj hds).1
  · rintro ds hds
    exact hother '"' rfl (List.cons.inj hds).1

theorem isWordChar_of_isAsciiDigit {c : Char} (h : Text.isAsciiDigit c = true) :
    isWordChar c = true := by
  simp [isWordChar, h]

theorem reads_natural (n : Nat) : Reads (encoded (Text.decimal n).toList) (.natural n) := by
  have hdigits : ∀ c ∈ (Text.decimal n).toList, Text.isAsciiDigit c = true :=
    fun c hc => Text.isAsciiDigit_of_mem_decimal hc
  refine reads_word (Text.decimal_ne_nil n)
    (List.all_eq_true.2 fun c hc => isWordChar_of_isAsciiDigit (hdigits c hc)) ?_
  have hword : ∀ word : List Char, word.all Text.isAsciiDigit = false →
      (Text.decimal n).toList ≠ word := by
    rintro word hword rfl
    rw [List.all_eq_true.2 hdigits] at hword
    cases hword
  have hwhole : isWhole (Text.decimal n).toList = true := by
    unfold isWhole
    split
    · rfl
    · next cs hcs hzero =>
      cases cs with
      | nil => exact absurd rfl hcs
      | cons c cs => exact absurd hzero (Text.decimal_ne_zero_cons n c cs)
    · have hnonempty : (Text.decimal n).toList.isEmpty = false := by
        simpa using Text.decimal_ne_nil n
      rw [hnonempty, List.all_eq_true.2 hdigits]
      rfl
  rw [ofWord?, if_neg (hword _ (by decide)), if_neg (hword _ (by decide)),
    if_neg (hword _ (by decide)), if_pos hwhole, Text.digitsValue_decimal]

theorem encoded_writeText (text : String) :
    encoded (writeText text) = '"' :: (encoded (text.toList.flatMap escape) ++ ['"']) := by
  rw [writeText, encoded_cons, encoded_append]
  rfl

theorem reads_text (text : String) : Reads (encoded (writeText text)) (.ofText text) := by
  rw [encoded_writeText]
  refine ⟨⟨'"', _, rfl, by decide, by decide, by decide⟩, fun depth rest hdepth _ => ?_⟩
  rw [List.cons_append, Json.value.eq_4, List.append_assoc, List.singleton_append,
    stringBody_text, Option.map_some]
  rfl

/-! ## Arrays and objects -/

theorem skipSpace_cons {c : Char} (h : isSpace c = false) (cs : List Char) :
    skipSpace (c :: cs) = c :: cs := by
  rw [skipSpace, List.dropWhile_cons, if_neg (by simp [h])]

/-- A text that is read as an item, whatever comes behind it. -/
def ReadsItem {α : Type} (item : List Char → Read α) (text : List Char) (a : α) : Prop :=
  (∃ c cs, text = c :: cs ∧ isSpace c = false ∧ c ≠ ']' ∧ c ≠ '\x7d') ∧
    ∀ rest, Ended rest → item (text ++ rest) = some (a, rest)

section Items

variable {α : Type} {close : Char} {item : List Char → Read α} {entries : List (List Char × α)}
  (hspace : isSpace close = false) (hword : isWordChar close = false) (hcomma : close ≠ ',')
  (hentries : ∀ x ∈ entries, ReadsItem item x.1 x.2)

include hspace hword hcomma hentries

theorem items_intercalate (hne : entries ≠ []) {limit : ℕ} (hlimit : entries.length ≤ limit)
    (rest : List Char) :
    items close item limit (List.intercalate [','] (entries.map Prod.fst) ++ close :: rest) =
      some (entries.map Prod.snd, rest) := by
  induction entries generalizing limit with
  | nil => exact absurd rfl hne
  | cons x xs ih =>
    obtain ⟨limit, rfl⟩ := Nat.exists_eq_add_of_le' (Nat.one_le_of_lt hlimit)
    obtain ⟨⟨c, cs, htext, hc, -⟩, hitem⟩ := hentries x (by simp)
    have hskip : ∀ after, skipSpace (x.1 ++ after) = x.1 ++ after := fun after => by
      rw [htext, List.cons_append, skipSpace_cons hc]
    cases xs with
    | nil =>
      have hended : Ended (close :: rest) := fun d hd => by
        obtain rfl := Option.some.inj hd
        exact hword
      rw [List.map_singleton, List.intercalate_singleton, items, hskip, hitem _ hended,
        Option.bind_some]
      dsimp only
      rw [skipSpace_cons hspace]
      dsimp only
      rw [if_pos rfl]
      rfl
    | cons y ys =>
      have hended : ∀ after, Ended (',' :: after) := fun after d hd => by
        obtain rfl := Option.some.inj hd
        decide
      have hlimit' : (y :: ys).length ≤ limit := by simpa using hlimit
      have hrest := ih (fun z hz => hentries z (List.mem_cons_of_mem x hz)) (List.cons_ne_nil y ys)
        hlimit'
      rw [List.map_cons, List.map_cons, List.intercalate_cons_cons, ← List.map_cons (f := Prod.fst),
        List.append_assoc, List.append_assoc, List.singleton_append, items, hskip,
        hitem _ (hended _), Option.bind_some]
      dsimp only
      rw [skipSpace_cons (by decide)]
      dsimp only
      rw [if_neg hcomma.symm, if_pos rfl, hrest]
      rfl

theorem itemsOrNone_intercalate (hclose : close = ']' ∨ close = '\x7d') (rest : List Char) :
    itemsOrNone close item (List.intercalate [','] (entries.map Prod.fst) ++ close :: rest) =
      some (entries.map Prod.snd, rest) := by
  cases hentries' : entries with
  | nil =>
    rw [List.map_nil, List.intercalate_nil, List.nil_append, itemsOrNone, skipSpace_cons hspace]
    dsimp only
    rw [if_pos rfl]
    rfl
  | cons x xs =>
    have hne : entries ≠ [] := hentries' ▸ List.cons_ne_nil x xs
    obtain ⟨⟨c, cs, htext, hc, hbracket, hbrace⟩, -⟩ := hentries x (by simp [hentries'])
    have hcloses : c ≠ close := by
      rcases hclose with rfl | rfl
      · exact hbracket
      · exact hbrace
    obtain ⟨ds, hfront⟩ : ∃ ds, List.intercalate [','] (entries.map Prod.fst) = c :: ds := by
      rw [hentries', List.map_cons, htext, List.intercalate_cons_cons_left]
      exact ⟨_, rfl⟩
    have hlimit : entries.length ≤
        (List.intercalate [','] (entries.map Prod.fst) ++ close :: rest).length + 1 := by
      have := Text.length_le_length_intercalate ',' (entries.map Prod.fst)
      rw [List.length_map] at this
      rw [List.length_append]
      omega
    have hall := items_intercalate hspace hword hcomma hentries hne hlimit rest
    rw [← hentries', itemsOrNone]
    rw [hfront, List.cons_append] at hall ⊢
    rw [skipSpace_cons hc]
    dsimp only
    rw [if_neg hcloses]
    exact hall

end Items

theorem encoded_intercalate (texts : List (List Char)) :
    encoded (List.intercalate [','] texts) = List.intercalate [','] (texts.map encoded) := by
  induction texts with
  | nil => rfl
  | cons text texts ih =>
    cases texts with
    | nil => simp
    | cons next texts =>
      rw [List.intercalate_cons_cons, encoded_append, encoded_append, ih, List.map_cons,
        List.map_cons, List.map_cons, List.intercalate_cons_cons]
      rfl

theorem encoded_write_array (vs : List Json) : encoded (write (.array vs)) =
    '[' :: (List.intercalate [','] (vs.map fun v => encoded (write v)) ++ [']']) := by
  rw [write, writeElements_eq, encoded_cons, encoded_append, encoded_intercalate, List.map_map]
  rfl

theorem encoded_write_object (ms : List (String × Json)) : encoded (write (.ofMembers ms)) =
    '\x7b' :: (List.intercalate [','] (ms.map fun m =>
      encoded (writeText m.1) ++ ':' :: encoded (write m.2)) ++ ['\x7d']) := by
  have hmembers : ((ms.map fun m => writeText m.1 ++ ':' :: write m.2).map encoded) =
      ms.map fun m => encoded (writeText m.1) ++ ':' :: encoded (write m.2) := by
    rw [List.map_map]
    refine List.map_congr_left fun m _ => ?_
    rw [Function.comp_apply, encoded_append, encoded_cons]
    rfl
  rw [ofMembers, write, writeMembers_eq, encoded_cons, encoded_append, encoded_intercalate,
    hmembers]
  rfl

theorem Reads.item {text : List Char} {v : Json} (h : Reads text v) {depth : ℕ}
    (hdepth : text.length ≤ depth) : ReadsItem (Json.value textOfBytes? depth) text v :=
  ⟨h.start, fun _ hrest => h.value hdepth hrest⟩

theorem reads_array {vs : List Json} (h : ∀ v ∈ vs, Reads (encoded (write v)) v) :
    Reads (encoded (write (.array vs))) (.array vs) := by
  rw [encoded_write_array]
  refine ⟨⟨'[', _, rfl, by decide, by decide, by decide⟩, fun depth rest hdepth _ => ?_⟩
  have hentries : ∀ x ∈ vs.map fun v => (encoded (write v), v),
      ReadsItem (Json.value textOfBytes? depth) x.1 x.2 := by
    intro x hx
    obtain ⟨v, hv, rfl⟩ := List.mem_map.1 hx
    have hlength := (Text.infix_intercalate ','
      (List.mem_map_of_mem (f := fun v => encoded (write v)) hv)).length_le
    refine (h v hv).item ?_
    simp only [List.length_cons, List.length_append] at hdepth
    omega
  have hall :=
    itemsOrNone_intercalate (by decide) (by decide) (by decide) hentries (Or.inl rfl) rest
  rw [List.map_map, List.map_map] at hall
  rw [List.cons_append, Json.value.eq_2, List.append_assoc]
  refine (congrArg _ hall).trans ?_
  simp [Function.comp_def]

theorem reads_member {key : String} {v : Json} (h : Reads (encoded (write v)) v) {depth : ℕ}
    (hdepth : (encoded (write v)).length ≤ depth) :
    ReadsItem (member textOfBytes? (Json.value textOfBytes? depth))
      (encoded (writeText key) ++ ':' :: encoded (write v)) (some key, v) := by
  obtain ⟨c, cs, htext, hc, -⟩ := h.start
  rw [encoded_writeText]
  refine ⟨⟨'"', _, rfl, by decide, by decide, by decide⟩, fun rest hrest => ?_⟩
  have hskip : skipSpace (encoded (write v) ++ rest) = encoded (write v) ++ rest := by
    rw [htext, List.cons_append, skipSpace_cons hc]
  rw [List.cons_append, List.cons_append, member, List.append_assoc, List.append_assoc,
    List.singleton_append, stringBody_text, Option.bind_some]
  dsimp only
  rw [List.cons_append, skipSpace_cons (by decide)]
  change Option.map _ (Json.value textOfBytes? depth (skipSpace _)) = _
  rw [hskip, h.value hdepth hrest]
  rfl

theorem reads_object {ms : List (String × Json)}
    (h : ∀ m ∈ ms, Reads (encoded (write m.2)) m.2) :
    Reads (encoded (write (.ofMembers ms))) (.ofMembers ms) := by
  rw [encoded_write_object]
  refine ⟨⟨'\x7b', _, rfl, by decide, by decide, by decide⟩, fun depth rest hdepth _ => ?_⟩
  have hentries : ∀ x ∈ ms.map fun m =>
      (encoded (writeText m.1) ++ ':' :: encoded (write m.2), (some m.1, m.2)),
      ReadsItem (member textOfBytes? (Json.value textOfBytes? depth)) x.1 x.2 := by
    intro x hx
    obtain ⟨m, hm, rfl⟩ := List.mem_map.1 hx
    have hlength := (Text.infix_intercalate ',' (List.mem_map_of_mem
      (f := fun m : String × Json => encoded (writeText m.1) ++ ':' :: encoded (write m.2))
      hm)).length_le
    refine reads_member (h m hm) ?_
    simp only [List.length_cons, List.length_append] at hdepth hlength
    omega
  have hall :=
    itemsOrNone_intercalate (by decide) (by decide) (by decide) hentries (Or.inr rfl) rest
  rw [List.map_map, List.map_map] at hall
  rw [List.cons_append, Json.value.eq_3, List.append_assoc]
  refine (congrArg _ hall).trans ?_
  simp [Function.comp_def, ofMembers]

/-! ## Documents -/

theorem reads_write {j : Json} (h : Writable j) : Reads (encoded (write j)) j := by
  induction h with
  | null =>
    rw [write]
    exact reads_word (by decide) (by decide) (by simp [ofWord?])
  | bool b =>
    cases b with
    | true =>
      rw [write]
      exact reads_word (by decide) (by decide) (by simp [ofWord?])
    | false =>
      rw [write]
      exact reads_word (by decide) (by decide) (by simp [ofWord?])
  | natural n => exact reads_natural n
  | text text => exact reads_text text
  | array _ ih => exact reads_array ih
  | object _ ih => exact reads_object ih

/-- **A written document is read back.** -/
theorem readBytes_bytes {j : Json} (h : Writable j) : readBytes j.bytes = some j := by
  have hreads := reads_write h
  obtain ⟨c, cs, htext, hc, -⟩ := hreads.start
  have hskip : skipSpace (encoded (write j)) = encoded (write j) := by
    rw [htext, skipSpace_cons hc]
  have hended : Ended [] := fun c hc => by cases hc
  have hvalue := hreads.value (Nat.le_succ _) hended
  rw [List.append_nil] at hvalue
  rw [readBytes, bytes, byteChars_toUTF8, String.toList_ofList, document, hskip, hvalue]
  rfl

end ReleaseFlow.Json
