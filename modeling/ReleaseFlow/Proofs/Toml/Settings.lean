import ReleaseFlow.Config

/-!
# Settings of a document

* `Toml.Reads`: a reader that takes the values of a writer and no others;
* `reads_text`, `reads_texts`, `reads_boolean`, `reads_number`, `reads_optional`: the readers of
  settings;
* `setting_eq_some_iff`: **a setting is the value of its name, or else its default**;
* `exists_gives`, `exists_gives_optional`: what fits its reader is a setting;
* `setting_under_iff`: a section that is missing comes to what an empty one does.
-/

namespace ReleaseFlow

namespace Toml

variable {α : Type} {read? : Toml → Option α} {write : α → Option Toml} {default a : α}
  {name : String} {place : Nat} {origin : Origin} {entries : Entries} {v : Toml}

/-! ## Readers and writers -/

/-- The reader takes the values that the writer gives, and no others. The writer gives none for what
only a default can be. -/
structure Reads (read? : Toml → Option α) (write : α → Option Toml) : Prop where
  read_iff : ∀ v a, read? v = some a ↔ write a = some v
  injective : Function.Injective write

/-- The value of several texts. -/
def ofTexts (texts : List String) : Toml :=
  .array (texts.map .string)

/-- The value of a number. -/
def ofNumber (n : UInt64) : Toml :=
  .integer n.toNat

theorem text?_eq_some_iff {s : String} : text? v = some s ↔ .string s = v := by
  cases v <;> simp [text?, eq_comm]

theorem boolean?_eq_some_iff {b : Bool} : boolean? v = some b ↔ .boolean b = v := by
  cases v <;> simp [boolean?, eq_comm]

theorem natural?_eq_some_iff {n : UInt64} : natural? v = some n ↔ ofNumber n = v := by
  cases v with
  | integer m =>
    have hn := n.toNat_lt_size
    simp only [natural?, ofNumber, Toml.integer.injEq]
    split
    · next hm =>
      rw [Option.some_inj, ← UInt64.toNat_inj, UInt64.toNat_ofNat_of_lt' (by omega)]
      omega
    · next hm =>
      refine iff_of_false (by simp) ?_
      omega
  | _ => simp [natural?, ofNumber]

theorem mapM_text?_eq_some_iff {vs : List Toml} {ts : List String} :
    vs.mapM text? = some ts ↔ ts.map .string = vs := by
  induction vs generalizing ts with
  | nil => simp [eq_comm]
  | cons v vs ih =>
    rw [List.mapM_cons]
    simp only [Option.bind_eq_bind, Option.bind_eq_some_iff, text?_eq_some_iff, ih]
    constructor
    · rintro ⟨s, rfl, ss, rfl, h⟩
      cases h
      rfl
    · intro h
      cases ts with
      | nil => cases h
      | cons s ss =>
        cases h
        exact ⟨s, rfl, ss, rfl, rfl⟩

theorem texts?_eq_some_iff {ts : List String} : texts? v = some ts ↔ ofTexts ts = v := by
  cases v with
  | array vs => simp [texts?, ofTexts, mapM_text?_eq_some_iff]
  | _ => simp [texts?, ofTexts]

theorem reads_some {f : α → Toml} (h : ∀ v a, read? v = some a ↔ f a = v) :
    Reads read? fun a => some (f a) where
  read_iff v a := by rw [h, Option.some_inj]
  injective a b hab :=
    Option.some.inj (((h _ a).2 rfl).symm.trans ((h _ b).2 (Option.some.inj hab).symm))

theorem reads_text : Reads text? fun s => some (.string s) :=
  reads_some fun _ _ => text?_eq_some_iff

theorem reads_texts : Reads texts? fun ts => some (ofTexts ts) :=
  reads_some fun _ _ => texts?_eq_some_iff

theorem reads_boolean : Reads boolean? fun b => some (.boolean b) :=
  reads_some fun _ _ => boolean?_eq_some_iff

theorem reads_number : Reads natural? fun n => some (ofNumber n) :=
  reads_some fun _ _ => natural?_eq_some_iff

theorem reads_optional : Reads (Option.map some ∘ text?) (Option.map string) where
  read_iff v a := by
    cases a with
    | none => simp
    | some s => simp [text?_eq_some_iff]
  injective := Option.map_injective fun s t h => by cases h; rfl

/-! ## Settings and sections -/

/-- The value is what the entries have at the name, or else the default. -/
def Gives (entries : Entries) (name : String) (default value : Option Toml) : Prop :=
  value = (entries.lookup name).or default

theorem setting_of_absent (h : entries.lookup name = none) :
    (table origin entries).setting read? default name place = some default := by
  simp only [setting, field?, h, Option.bind_some]

theorem setting_of_present (h : entries.lookup name = some v) :
    (table origin entries).setting read? default name place = read? v := by
  simp only [setting, field?, h, Option.bind_some]

theorem setting_eq_some_iff (h : Reads read? write) :
    (table origin entries).setting read? default name place = some a ↔
      Gives entries name (write default) (write a) := by
  unfold Gives
  cases hlookup : entries.lookup name with
  | none =>
    rw [setting_of_absent hlookup]
    exact ⟨fun he => by cases he; rfl, fun he => congrArg some (h.injective he).symm⟩
  | some v =>
    rw [setting_of_present hlookup]
    exact h.read_iff v a

theorem exists_gives {f : α → Toml} (h : ∀ v, entries.lookup name = some v → ∃ a, f a = v)
    (default : α) : ∃ a, Gives entries name (some (f default)) (some (f a)) := by
  unfold Gives
  cases hlookup : entries.lookup name with
  | none => exact ⟨default, rfl⟩
  | some v =>
    obtain ⟨a, ha⟩ := h v hlookup
    exact ⟨a, congrArg some ha⟩

theorem exists_gives_optional (h : ∀ v, entries.lookup name = some v → ∃ s, string s = v) :
    ∃ a : Option String, Gives entries name none (a.map string) := by
  unfold Gives
  cases hlookup : entries.lookup name with
  | none => exact ⟨none, rfl⟩
  | some v =>
    obtain ⟨s, hs⟩ := h v hlookup
    exact ⟨some s, congrArg some hs⟩

/-- The entries of a section. A section that is missing has none. -/
def under (name : String) (entries : Entries) : Entries :=
  match entries.lookup name with
  | some (.table _ inner) => inner
  | _ => []

/-- A section that is missing comes to what an empty one does. -/
theorem setting_under_iff {P : Entries → α → Prop}
    (h : ∀ origin entries a, read? (.table origin entries) = some a ↔ P entries a)
    (hempty : read? (.table .header []) = some default)
    (htable : ∀ v, entries.lookup name = some v → ∃ o inner, v = .table o inner) :
    (table origin entries).setting read? default name place = some a ↔
      P (under name entries) a := by
  unfold under
  cases hlookup : entries.lookup name with
  | none =>
    rw [setting_of_absent hlookup, ← hempty]
    exact h .header [] a
  | some v =>
    obtain ⟨o, inner, rfl⟩ := htable v hlookup
    rw [setting_of_present hlookup]
    exact h o inner a

end Toml

end ReleaseFlow
