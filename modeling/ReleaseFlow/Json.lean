/-!
# JSON values

The values of JSON documents, as far as records are read from them or written to them.

* `Json`: the values;
* `Json.member?`: a member of a record, which may be written as an object or as an array;
* `Json.required`, `Json.optional`: members read as values of a type.
-/

namespace ReleaseFlow

/-- A value of a document. A text is `none` when its escapes leave half of a surrogate pair, or its
bytes are no text: it may be skipped but not used. -/
inductive Json where
  | null
  | bool (value : Bool)
  /-- A number without sign, fraction and exponent. -/
  | natural (value : Nat)
  /-- Any other number, as it is written. -/
  | number (literal : String)
  | string (text : Option String)
  | array (elements : List Json)
  | object (members : List (Option String × Json))
  deriving Inhabited, BEq, Repr

namespace Json

/-- The value is an object whose keys can be used, or an array of at most `size` elements. -/
def isRecord (size : Nat) : Json → Bool
  | object members => members.all fun m => m.1.isSome
  | array elements => elements.length ≤ size
  | _ => false

/-- The member of a record with this name and place. The outer `none` stands for a value that is
no record or names the member twice. -/
def member? (name : String) (place : Nat) : Json → Option (Option Json)
  | object members =>
    match members.filter fun m => m.1 == some name with
    | [] => some none
    | [m] => some (some m.2)
    | _ => none
  | array elements => some elements[place]?
  | _ => none

/-- A member that must be there. -/
def required {α : Type} (read? : Json → Option α) (name : String) (place : Nat) (record : Json) :
    Option α :=
  (record.member? name place).bind fun value? => value?.bind read?

/-- A member that has a default. -/
def optional {α : Type} (read? : Json → Option α) (default : α) (name : String) (place : Nat)
    (record : Json) : Option α :=
  (record.member? name place).bind fun value? =>
    match value? with
    | some v => read? v
    | none => some default

def text? : Json → Option String
  | string text => text
  | _ => none

/-- The text of a string, or nothing for `null`. -/
def nullableText? : Json → Option (Option String)
  | null => some none
  | v => v.text?.map some

/-- A number of 64 bits. -/
def word? : Json → Option UInt64
  | natural n => if n < UInt64.size then some (UInt64.ofNat n) else none
  | _ => none

def list? {α : Type} (read? : Json → Option α) : Json → Option (List α)
  | array elements => elements.mapM read?
  | _ => none

/-- An object with the given members. -/
def ofMembers (members : List (String × Json)) : Json :=
  object (members.map fun m => (some m.1, m.2))

def ofText (text : String) : Json :=
  string (some text)

end Json

end ReleaseFlow
