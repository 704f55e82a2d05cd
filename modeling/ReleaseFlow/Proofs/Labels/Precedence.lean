import ReleaseFlow.Labels

/-!
# The label that chooses

A label of the major class wins over one of the patch class, and where neither is met the release is
a minor one. Of the class that wins, the label that comes first has chosen.

* `LabelClasses.Belongs`: the labels that can choose a kind;
* `classify_outcomes`: the three things that labels can come to;
* `kind_eq_major_iff`, `kind_eq_patch_iff`, `kind_eq_minor_iff`: when each kind is chosen;
* `chosen_eq_some_iff`, `chosen_eq_none_iff`: the label that has chosen;
* `kind_congr`, `classify_congr`: the order of entries and their number do not matter;
* `classify_by_precedence`: **all of this together**.
-/

namespace ReleaseFlow.LabelClasses

variable {classes classes' : LabelClasses} {labels labels' : List String} {label : String}

/-- The label can choose the kind. Every label can choose a minor release. -/
def Belongs (classes : LabelClasses) : Bump → String → Prop
  | .major, label => label ∈ classes.major
  | .patch, label => label ∈ classes.patch
  | .minor, _ => True

/-! ## The outcomes -/

theorem find?_contains_eq_none_iff {entries : List String} :
    labels.find? (entries.contains ·) = none ↔ ∀ l ∈ labels, l ∉ entries := by
  simp [List.find?_eq_none]

/-- What labels can come to: a label of the major class, or none of it but one of the patch class,
or none of both. -/
theorem classify_outcomes (classes : LabelClasses) (labels : List String) :
    (∃ label ∈ labels, label ∈ classes.major ∧
      labels.find? (classes.major.contains ·) = some label ∧
      classes.classify labels = (.major, some label)) ∨
    ((∀ l ∈ labels, l ∉ classes.major) ∧ ∃ label ∈ labels, label ∈ classes.patch ∧
      labels.find? (classes.patch.contains ·) = some label ∧
      classes.classify labels = (.patch, some label)) ∨
    ((∀ l ∈ labels, l ∉ classes.major) ∧ (∀ l ∈ labels, l ∉ classes.patch) ∧
      classes.classify labels = (.minor, labels.head?)) := by
  unfold classify
  cases hmajor : labels.find? (classes.major.contains ·) with
  | some label =>
    have hin : label ∈ classes.major := by simpa using List.find?_some hmajor
    exact Or.inl ⟨label, List.mem_of_find?_eq_some hmajor, hin, rfl, rfl⟩
  | none =>
    have hno := find?_contains_eq_none_iff.1 hmajor
    cases hpatch : labels.find? (classes.patch.contains ·) with
    | some label =>
      have hin : label ∈ classes.patch := by simpa using List.find?_some hpatch
      exact Or.inr (Or.inl ⟨hno, label, List.mem_of_find?_eq_some hpatch, hin, rfl, rfl⟩)
    | none => exact Or.inr (Or.inr ⟨hno, find?_contains_eq_none_iff.1 hpatch, rfl⟩)

theorem kind_eq_major_iff :
    (classes.classify labels).1 = .major ↔ ∃ l ∈ labels, l ∈ classes.major := by
  rcases classify_outcomes classes labels with ⟨l, hl, hin, -, h⟩ | ⟨hno, l, -, -, -, h⟩ |
    ⟨hno, -, h⟩
  · exact iff_of_true (by rw [h]) ⟨l, hl, hin⟩
  · exact iff_of_false (by simp [h]) fun ⟨l, hl, hin⟩ => hno l hl hin
  · exact iff_of_false (by simp [h]) fun ⟨l, hl, hin⟩ => hno l hl hin

theorem kind_eq_patch_iff : (classes.classify labels).1 = .patch ↔
    (∀ l ∈ labels, l ∉ classes.major) ∧ ∃ l ∈ labels, l ∈ classes.patch := by
  rcases classify_outcomes classes labels with ⟨l, hl, hin, -, h⟩ | ⟨hno, l, hl, hin, -, h⟩ |
    ⟨-, hno, h⟩
  · exact iff_of_false (by simp [h]) fun ⟨hno, _⟩ => hno l hl hin
  · exact iff_of_true (by rw [h]) ⟨hno, l, hl, hin⟩
  · exact iff_of_false (by simp [h]) fun ⟨_, l, hl, hin⟩ => hno l hl hin

theorem kind_eq_minor_iff : (classes.classify labels).1 = .minor ↔
    (∀ l ∈ labels, l ∉ classes.major) ∧ ∀ l ∈ labels, l ∉ classes.patch := by
  rcases classify_outcomes classes labels with ⟨l, hl, hin, -, h⟩ | ⟨-, l, hl, hin, -, h⟩ |
    ⟨hmajor, hpatch, h⟩
  · exact iff_of_false (by simp [h]) fun ⟨hno, _⟩ => hno l hl hin
  · exact iff_of_false (by simp [h]) fun ⟨_, hno⟩ => hno l hl hin
  · exact iff_of_true (by rw [h]) ⟨hmajor, hpatch⟩

/-! ## The label -/

/-- A label has chosen if and only if it can choose the kind and none in front of it can. -/
theorem chosen_eq_some_iff : (classes.classify labels).2 = some label ↔
    classes.Belongs (classes.classify labels).1 label ∧
      ∃ front rest, labels = front ++ label :: rest ∧
        ∀ l ∈ front, ¬ classes.Belongs (classes.classify labels).1 l := by
  rcases classify_outcomes classes labels with ⟨l, -, -, hfind, h⟩ | ⟨-, l, -, -, hfind, h⟩ |
    ⟨-, -, h⟩
  · rw [h, ← hfind, List.find?_eq_some_iff_append]
    simp [Belongs]
  · rw [h, ← hfind, List.find?_eq_some_iff_append]
    simp [Belongs]
  · rw [h, List.head?_eq_some_iff]
    constructor
    · rintro ⟨rest, rfl⟩
      exact ⟨trivial, [], rest, rfl, by simp⟩
    · rintro ⟨-, front, rest, rfl, hfront⟩
      cases front with
      | nil => exact ⟨rest, rfl⟩
      | cons l front => exact absurd trivial (hfront l List.mem_cons_self)

theorem chosen_eq_none_iff : (classes.classify labels).2 = none ↔ labels = [] := by
  rcases classify_outcomes classes labels with ⟨l, hl, -, -, h⟩ | ⟨-, l, hl, -, -, h⟩ | ⟨-, -, h⟩
  · rw [h]
    exact iff_of_false (by simp) (List.ne_nil_of_mem hl)
  · rw [h]
    exact iff_of_false (by simp) (List.ne_nil_of_mem hl)
  · rw [h]
    exact List.head?_eq_none_iff

/-! ## What does not matter -/

theorem kind_congr (hlabels : ∀ l, l ∈ labels ↔ l ∈ labels')
    (hmajor : ∀ l, l ∈ classes.major ↔ l ∈ classes'.major)
    (hpatch : ∀ l, l ∈ classes.patch ↔ l ∈ classes'.patch) :
    (classes.classify labels).1 = (classes'.classify labels').1 := by
  have hkind : ∀ kind, (classes.classify labels).1 = kind ↔
      (classes'.classify labels').1 = kind := by
    intro kind
    cases kind with
    | major => simp only [kind_eq_major_iff, hlabels, hmajor]
    | minor => simp only [kind_eq_minor_iff, hlabels, hmajor, hpatch]
    | patch => simp only [kind_eq_patch_iff, hlabels, hmajor, hpatch]
  exact (hkind _).2 rfl

theorem belongs_congr (hmajor : ∀ l, l ∈ classes.major ↔ l ∈ classes'.major)
    (hpatch : ∀ l, l ∈ classes.patch ↔ l ∈ classes'.patch) (kind : Bump) (label : String) :
    classes.Belongs kind label ↔ classes'.Belongs kind label := by
  cases kind with
  | major => exact hmajor label
  | minor => exact Iff.rfl
  | patch => exact hpatch label

theorem classify_congr (hmajor : ∀ l, l ∈ classes.major ↔ l ∈ classes'.major)
    (hpatch : ∀ l, l ∈ classes.patch ↔ l ∈ classes'.patch) :
    classes.classify labels = classes'.classify labels := by
  have hkind : (classes.classify labels).1 = (classes'.classify labels).1 :=
    kind_congr (fun _ => Iff.rfl) hmajor hpatch
  refine Prod.ext hkind (Option.ext fun label => ?_)
  simp only [chosen_eq_some_iff, hkind, belongs_congr hmajor hpatch]

/-- **Labels choose by precedence.** The kind is major if and only if some label is of the major
class, patch if and only if none is and some label is of the patch class, and minor otherwise. The
label that has chosen is the first one of the class that has won, for a minor release the first of
all, and there is none if and only if there are no labels. So neither the order of the labels nor
their number matters for the kind, nor does that of the classes for the kind and the label, and a
major release stays one whatever labels are added. -/
theorem classify_by_precedence :
    (∀ (classes : LabelClasses) (labels : List String),
      ((classes.classify labels).1 = .major ↔ ∃ l ∈ labels, l ∈ classes.major) ∧
      ((classes.classify labels).1 = .patch ↔
        (∀ l ∈ labels, l ∉ classes.major) ∧ ∃ l ∈ labels, l ∈ classes.patch) ∧
      ((classes.classify labels).1 = .minor ↔
        (∀ l ∈ labels, l ∉ classes.major) ∧ ∀ l ∈ labels, l ∉ classes.patch) ∧
      (∀ label, (classes.classify labels).2 = some label ↔
        classes.Belongs (classes.classify labels).1 label ∧
          ∃ front rest, labels = front ++ label :: rest ∧
            ∀ l ∈ front, ¬ classes.Belongs (classes.classify labels).1 l) ∧
      ((classes.classify labels).2 = none ↔ labels = [])) ∧
    (∀ (classes classes' : LabelClasses) (labels labels' : List String),
      (∀ l, l ∈ labels ↔ l ∈ labels') → (∀ l, l ∈ classes.major ↔ l ∈ classes'.major) →
      (∀ l, l ∈ classes.patch ↔ l ∈ classes'.patch) →
      (classes.classify labels).1 = (classes'.classify labels').1) ∧
    (∀ (classes classes' : LabelClasses) (labels : List String),
      (∀ l, l ∈ classes.major ↔ l ∈ classes'.major) →
      (∀ l, l ∈ classes.patch ↔ l ∈ classes'.patch) →
      classes.classify labels = classes'.classify labels) ∧
    ∀ (classes : LabelClasses) (labels labels' : List String), labels ⊆ labels' →
      (classes.classify labels).1 = .major → (classes.classify labels').1 = .major := by
  refine ⟨fun classes labels => ⟨kind_eq_major_iff, kind_eq_patch_iff, kind_eq_minor_iff,
    fun label => chosen_eq_some_iff, chosen_eq_none_iff⟩, ?_, ?_, ?_⟩
  · intro classes classes' labels labels' hlabels hmajor hpatch
    exact kind_congr hlabels hmajor hpatch
  · intro classes classes' labels hmajor hpatch
    exact classify_congr hmajor hpatch
  · intro classes labels labels' hsub hkind
    obtain ⟨l, hl, hin⟩ := kind_eq_major_iff.1 hkind
    exact kind_eq_major_iff.2 ⟨l, hsub hl, hin⟩

/-- A label of both classes makes a major release, in whatever order all of them are given. -/
theorem classify_by_precedence_shuffled :
    let classes : LabelClasses := ⟨["api", "breaking"], ["bug", "api", "bug"]⟩
    let classes' : LabelClasses := ⟨["breaking", "api", "api"], ["api", "bug"]⟩
    classes.classify ["docs", "bug", "api", "breaking"] = (.major, some "api") ∧
    (classes'.classify ["breaking", "api", "bug", "docs", "bug"]).1 = .major ∧
    classes'.classify ["docs", "bug", "api", "breaking"] = (.major, some "api") ∧
    (classes.classify ["docs", "bug", "api", "breaking", "other"]).1 = .major := by
  intro classes classes'
  obtain ⟨-, hkind, hboth, hmore⟩ := classify_by_precedence
  have hmajor : ∀ l, l ∈ classes.major ↔ l ∈ classes'.major := by
    simp [classes, classes', or_comm]
  have hpatch : ∀ l, l ∈ classes.patch ↔ l ∈ classes'.patch := by
    simp only [classes, classes', List.mem_cons, List.not_mem_nil]
    grind
  have hlabels : ∀ l, l ∈ ["docs", "bug", "api", "breaking"] ↔
      l ∈ ["breaking", "api", "bug", "docs", "bug"] := by
    simp only [List.mem_cons, List.not_mem_nil]
    grind
  have h : classes.classify ["docs", "bug", "api", "breaking"] = (.major, some "api") := by decide
  refine ⟨h, ?_, ?_, ?_⟩
  · rw [← hkind _ _ _ _ hlabels hmajor hpatch, h]
  · rw [← hboth _ _ _ hmajor hpatch, h]
  · exact hmore _ _ _ (List.subset_append_left _ ["other"]) (by rw [h])

end ReleaseFlow.LabelClasses
