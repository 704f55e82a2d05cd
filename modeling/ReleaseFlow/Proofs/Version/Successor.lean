import ReleaseFlow.Labels
import ReleaseFlow.Proofs.Version.Order

/-!
# The least later release

A bump leaves a whole family of versions behind: all that agree with the current one on the numbers
down to the one that it raises.

* `Version.raised`, `Version.Agrees`: the number that a bump raises, and the family;
* `bump_eq_ok_iff`, `bump_error_iff`: when there is a next release of a kind, and which it is;
* `lt_of_agrees`, `le_of_above`: it comes after the family, and no version before it does;
* `bump_mono`: later versions have later releases of the same kind;
* `bump_least`: **a bump never wraps, and gives the least version after the family**.
-/

namespace ReleaseFlow.Version

variable {u v w x : Version} {b : Bump}

/-- The number that a bump raises. -/
def raised (v : Version) : Bump → UInt64
  | .major => v.major
  | .minor => v.minor
  | .patch => v.patch

/-- The versions agree on the numbers down to the one that the bump raises. -/
def Agrees : Bump → Version → Version → Prop
  | .major, u, v => u.major = v.major
  | .minor, u, v => u.major = v.major ∧ u.minor = v.minor
  | .patch, u, v => u = v

/-! ## When there is a next release -/

theorem succ?_eq_none_iff {m : UInt64} : succ? m = none ↔ m.toNat = UInt64.size - 1 := by
  have hm := m.toNat_lt
  unfold succ? UInt64.size
  split_ifs with h
  · simp only [false_iff]
    omega
  · simp only [true_iff]
    omega

theorem next?_eq_none_iff : v.next? b = none ↔ (v.raised b).toNat = UInt64.size - 1 := by
  cases b <;> exact Option.map_eq_none_iff.trans succ?_eq_none_iff

theorem bump_eq_ok_iff : v.bump b = .ok w ↔ v.next? b = some w := by
  refine ⟨next_of_bump, fun h => ?_⟩
  rw [bump, h]

theorem bump_error_iff : (∃ detail, v.bump b = .error (.version detail)) ↔
    (v.raised b).toNat = UInt64.size - 1 := by
  rw [← next?_eq_none_iff, bump]
  cases v.next? b with
  | none => exact iff_of_true ⟨_, rfl⟩ rfl
  | some w => simp

theorem bump_ok_iff : (∃ w, v.bump b = .ok w) ↔ (v.raised b).toNat < UInt64.size - 1 := by
  have hlt := (v.raised b).toNat_lt_size
  have hnone : v.next? b ≠ none ↔ (v.raised b).toNat < UInt64.size - 1 := by
    rw [Ne, next?_eq_none_iff]
    omega
  rw [← hnone, Option.ne_none_iff_exists']
  exact exists_congr fun w => bump_eq_ok_iff

/-! ## The least version after a family -/

theorem lt_of_agrees (h : v.bump b = .ok w) (hu : Agrees b u v) : u < w := by
  have hnext := next_of_bump h
  cases b with
  | major =>
    obtain ⟨n, hn, rfl⟩ := Option.map_eq_some_iff.1 hnext
    exact lt_iff.2 (Or.inl (hu ▸ lt_of_succ hn))
  | minor =>
    obtain ⟨n, hn, rfl⟩ := Option.map_eq_some_iff.1 hnext
    exact lt_iff.2 (Or.inr ⟨hu.1, Or.inl (hu.2 ▸ lt_of_succ hn)⟩)
  | patch =>
    obtain rfl : u = v := hu
    exact lt_of_bump h

/-- The greatest number. -/
def top : UInt64 := 0xFFFFFFFFFFFFFFFF

/-- The last version of a family. -/
def last (v : Version) : Bump → Version
  | .major => ⟨v.major, top, top⟩
  | .minor => ⟨v.major, v.minor, top⟩
  | .patch => v

theorem agrees_last (v : Version) (b : Bump) : Agrees b (v.last b) v := by
  cases b with
  | major => rfl
  | minor => exact ⟨rfl, rfl⟩
  | patch => rfl

/-- No version before the next release comes after the last one of the family. -/
theorem le_of_last_lt (h : v.bump b = .ok w) (hx : v.last b < x) : w ≤ x := by
  have htop : top.toNat = UInt64.size - 1 := rfl
  have hminor := x.minor.toNat_lt_size
  have hpatch := x.patch.toNat_lt_size
  have hnext := next_of_bump h
  rw [le_iff_not_lt]
  rw [lt_iff] at hx ⊢
  simp only [UInt64.lt_iff_toNat_lt, ← UInt64.toNat_inj] at hx ⊢
  cases b with
  | major =>
    obtain ⟨n, hn, rfl⟩ := Option.map_eq_some_iff.1 hnext
    rw [succ?_eq_some_iff] at hn
    simp only [last, UInt64.toNat_zero] at *
    omega
  | minor =>
    obtain ⟨n, hn, rfl⟩ := Option.map_eq_some_iff.1 hnext
    rw [succ?_eq_some_iff] at hn
    simp only [last, UInt64.toNat_zero] at *
    omega
  | patch =>
    obtain ⟨n, hn, rfl⟩ := Option.map_eq_some_iff.1 hnext
    rw [succ?_eq_some_iff] at hn
    simp only [last] at *
    omega

theorem le_of_above (h : v.bump b = .ok w) (hx : ∀ u, Agrees b u v → u < x) : w ≤ x :=
  le_of_last_lt h (hx _ (agrees_last v b))

/-- What agrees with a version agrees with a later one, too, or comes before it. -/
theorem agrees_or_lt (hu : Agrees b u v) (hle : v ≤ x) : Agrees b u x ∨ u < x := by
  cases b with
  | patch =>
    obtain rfl : u = v := hu
    exact (le_iff.1 hle).symm
  | major =>
    rw [le_iff_not_lt, lt_iff] at hle
    rw [lt_iff]
    simp only [Agrees, UInt64.lt_iff_toNat_lt, ← UInt64.toNat_inj] at *
    omega
  | minor =>
    rw [le_iff_not_lt, lt_iff] at hle
    rw [lt_iff]
    simp only [Agrees, UInt64.lt_iff_toNat_lt, ← UInt64.toNat_inj] at *
    omega

theorem bump_mono (hle : v ≤ x) {w' : Version} (h : v.bump b = .ok w) (h' : x.bump b = .ok w') :
    w ≤ w' := by
  refine le_of_above h fun u hu => ?_
  rcases agrees_or_lt hu hle with hx | hx
  · exact lt_of_agrees h' hx
  · exact lt_trans hx (lt_of_bump h')

theorem lt_of_decide {classes : LabelClasses} {labels : List String} {d : Decision}
    (h : classes.decide v labels = .ok d) : d.previous = v ∧ d.previous < d.next := by
  change (v.bump (classes.classify labels).1).map _ = .ok d at h
  cases hbump : v.bump (classes.classify labels).1 with
  | error e =>
    rw [hbump] at h
    cases h
  | ok next =>
    rw [hbump] at h
    cases h
    exact ⟨rfl, lt_of_bump hbump⟩

/-- **A bump gives the least later release of its kind.** It fails when the number that it raises is
the greatest one of 64 bits, and only then. Otherwise the next release comes after all versions that
agree with the current one down to that number, and no version before it does. So a decision always
leads to a later version, and later versions have later releases of the same kind. -/
theorem bump_least :
    (∀ (v : Version) (b : Bump),
      ((∃ detail, v.bump b = .error (.version detail)) ↔ (v.raised b).toNat = UInt64.size - 1) ∧
      ((∃ w, v.bump b = .ok w) ↔ (v.raised b).toNat < UInt64.size - 1)) ∧
    (∀ (v : Version) (b : Bump) (w : Version), v.bump b = .ok w →
      (∀ u, Agrees b u v → u < w) ∧ ∀ x, (∀ u, Agrees b u v → u < x) → w ≤ x) ∧
    (∀ (classes : LabelClasses) (v : Version) (labels : List String) (d : Decision),
      classes.decide v labels = .ok d → d.previous = v ∧ d.previous < d.next) ∧
    ∀ (b : Bump) (v v' w w' : Version),
      v ≤ v' → v.bump b = .ok w → v'.bump b = .ok w' → w ≤ w' := by
  refine ⟨fun v b => ⟨bump_error_iff, bump_ok_iff⟩, fun v b w h => ⟨?_, ?_⟩, ?_, ?_⟩
  · intro u hu
    exact lt_of_agrees h hu
  · intro x hx
    exact le_of_above h hx
  · intro classes v labels d h
    exact lt_of_decide h
  · intro b v v' w w' hle h h'
    exact bump_mono hle h h'

/-- The minor release after a version with the greatest patch number. -/
theorem bump_least_minor : Version.bump ⟨1, 2, top⟩ .minor = .ok ⟨1, 3, 0⟩ ∧
    (∀ u : Version, u.major = 1 ∧ u.minor = 2 → u < ⟨1, 3, 0⟩) ∧
    (∀ x : Version, (∀ u : Version, u.major = 1 ∧ u.minor = 2 → u < x) → ⟨1, 3, 0⟩ ≤ x) ∧
    ∃ detail, Version.bump ⟨1, 2, top⟩ .patch = .error (.version detail) := by
  obtain ⟨hends, hleast, -, -⟩ := bump_least
  have hminor : Version.bump ⟨1, 2, top⟩ .minor = .ok ⟨1, 3, 0⟩ := rfl
  obtain ⟨habove, hbelow⟩ := hleast _ _ _ hminor
  exact ⟨hminor, habove, hbelow, (hends ⟨1, 2, top⟩ .patch).1.2 rfl⟩

end ReleaseFlow.Version
