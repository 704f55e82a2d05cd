/-!
# TOML values

The values of a TOML document, and how tables grow while a document is read. A table remembers how
it was introduced, since that decides what may still be added to it.

* `Toml`: the values;
* `Toml.assign`: a value put at a dotted key;
* `Toml.openTable`, `Toml.openElement`: the effect of the headers `[a.b]` and `[[a.b]]`;
* `Toml.field?`: a field of a record, which may be written as a table or as an array.
-/

namespace ReleaseFlow

/-- How a table was introduced. -/
inductive Toml.Origin where
  /-- Between braces, as a value: nothing can be added. -/
  | inline
  /-- By a header of its own. -/
  | header
  /-- On the way to the table of a longer header. -/
  | path
  /-- On the way of a dotted key. -/
  | dotted
  deriving DecidableEq, Repr

/-- A value of a document. Numbers with a fraction and dates are kept as they are written. -/
inductive Toml where
  | string (text : String)
  | integer (value : Int)
  | float (literal : String)
  | boolean (value : Bool)
  | moment (literal : String)
  | array (elements : List Toml)
  | table (origin : Toml.Origin) (entries : List (String × Toml))
  /-- An array made of tables by headers. -/
  | tables (elements : List (List (String × Toml)))

namespace Toml

/-- The keys of a table with their values, in the order of their introduction. -/
abbrev Entries := List (String × Toml)

def replace (key : String) (value : Toml) (entries : Entries) : Entries :=
  entries.map fun e => if e.1 = key then (key, value) else e

/-- Changes the last element of a non-empty list. -/
def changeLast {α : Type} (f : α → Option α) : List α → Option (List α)
  | [] => none
  | [x] => (f x).map ([·])
  | x :: y :: xs => (changeLast f (y :: xs)).map (x :: ·)

/-- Puts a value at a dotted key. The last table on the way must be one made by dotted keys, the
others must not have a header, and the key itself must be new. -/
def assign : List String → Toml → Entries → Option Entries
  | [], _, _ => none
  | [key], value, entries =>
    if (entries.lookup key).isNone then some (entries ++ [(key, value)]) else none
  | key :: next :: path, value, entries =>
    match entries.lookup key with
    | none =>
      (assign (next :: path) value []).map fun inner => entries ++ [(key, .table .dotted inner)]
    | some (.table origin inner) =>
      if origin = .dotted || (origin = .path && path ≠ []) then
        (assign (next :: path) value inner).map fun inner =>
          replace key (.table origin inner) entries
      else none
    | some (.tables elements) =>
      if path = [] then none
      else
        (changeLast (assign (next :: path) value) elements).map fun elements =>
          replace key (.tables elements) entries
    | some _ => none

/-- Changes the table at the end of a header's path. Tables on the way are made as needed, and an
array of tables stands for its last element. -/
def changeAt (change : Entries → Option Entries) : List String → Entries → Option Entries
  | [], entries => change entries
  | key :: path, entries =>
    match entries.lookup key with
    | none =>
      (changeAt change path []).map fun inner => entries ++ [(key, .table .path inner)]
    | some (.table origin inner) =>
      if origin = .inline then none
      else
        (changeAt change path inner).map fun inner => replace key (.table origin inner) entries
    | some (.tables elements) =>
      (changeLast (changeAt change path) elements).map fun elements =>
        replace key (.tables elements) entries
    | some _ => none

/-- Opens the table of a header: a new one, or one that was only passed through. -/
def openTable (key : String) (entries : Entries) : Option Entries :=
  match entries.lookup key with
  | none => some (entries ++ [(key, .table .header [])])
  | some (.table .path inner) => some (replace key (.table .header inner) entries)
  | some _ => none

/-- Opens a new element of an array of tables. -/
def openElement (key : String) (entries : Entries) : Option Entries :=
  match entries.lookup key with
  | none => some (entries ++ [(key, .tables [[]])])
  | some (.tables elements) => some (replace key (.tables (elements ++ [[]])) entries)
  | some _ => none

/-- The field of a record with this name and place. A record is written as a table, or as an array
in the order of its fields; a date is a record without fields. The outer `none` stands for a value
that is no record. -/
def field? (name : String) (place : Nat) : Toml → Option (Option Toml)
  | table _ entries => some (entries.lookup name)
  | array elements => some elements[place]?
  | tables elements => some ((elements[place]?).map (table .header))
  | moment _ => some none
  | _ => none

end Toml

end ReleaseFlow
