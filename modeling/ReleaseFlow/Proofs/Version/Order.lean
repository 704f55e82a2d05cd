import Mathlib.Logic.Function.Basic
import Mathlib.Tactic.ByContra
import Mathlib.Tactic.SplitIfs
import Mathlib.Tactic.Tauto
import ReleaseFlow.Version

/-!
# The order of versions

* `lt_iff`: the first number that differs decides;
* `lt_irrefl`, `lt_trans`, `lt_trichotomy`: the order is strict and total; `le_iff_not_lt`;
* `lt_of_next`, `lt_of_bump`: **every release comes after the one before**;
* `bump_lt_iff`, `bump_eq_iff`: two releases of the same version are ordered as their kinds are.
-/

namespace ReleaseFlow

/-- The kinds of release in order, the least first. -/
def Bump.rank : Bump → Nat
  | patch => 0
  | minor => 1
  | major => 2

theorem Bump.rank_injective : Function.Injective Bump.rank := by
  intro b b' h
  cases b <;> cases b' <;> first | rfl | cases h

namespace Version

variable {u v w : Version}

theorem lt_iff : v < w ↔ v.major < w.major ∨ v.major = w.major ∧
    (v.minor < w.minor ∨ v.minor = w.minor ∧ v.patch < w.patch) := by
  change compare v w = .lt ↔ _
  simp only [compare, Ordering.then_eq_lt, Ordering.then_eq_eq, Std.compare_eq_lt,
    Std.LawfulEqOrd.compare_eq_iff_eq]
  tauto

theorem lt_irrefl (v : Version) : ¬ v < v := by
  rw [lt_iff]
  simp

theorem lt_trans (h : u < v) (h' : v < w) : u < w := by
  rw [lt_iff] at h h' ⊢
  simp only [UInt64.lt_iff_toNat_lt, ← UInt64.toNat_inj] at h h' ⊢
  omega

theorem ne_of_lt (h : v < w) : v ≠ w := by
  rintro rfl
  exact lt_irrefl v h

instance : LE Version := ⟨fun v w => (compare v w).isLE⟩

theorem le_iff : v ≤ w ↔ v < w ∨ v = w := by
  have heq : compare v w = .eq ↔ v = w := by
    obtain ⟨major, minor, patch⟩ := v
    obtain ⟨major', minor', patch'⟩ := w
    simp only [compare, Ordering.then_eq_eq, Std.LawfulEqOrd.compare_eq_iff_eq, mk.injEq, and_assoc]
  rw [← heq]
  exact Ordering.isLE_iff_eq_lt_or_eq_eq

theorem lt_trichotomy (v w : Version) : v < w ∨ v = w ∨ w < v := by
  obtain ⟨major, minor, patch⟩ := v
  obtain ⟨major', minor', patch'⟩ := w
  simp only [lt_iff, mk.injEq, UInt64.lt_iff_toNat_lt, ← UInt64.toNat_inj]
  omega

theorem le_iff_not_lt : v ≤ w ↔ ¬ w < v := by
  rw [le_iff]
  constructor
  · rintro (h | rfl) h'
    · exact lt_irrefl v (lt_trans h h')
    · exact lt_irrefl v h'
  · intro h
    rcases lt_trichotomy v w with hlt | rfl | hgt
    · exact Or.inl hlt
    · exact Or.inr rfl
    · exact absurd hgt h

/-! ## Bumps -/

theorem succ?_eq_some_iff {m n : UInt64} : succ? m = some n ↔ n.toNat = m.toNat + 1 := by
  have hn := n.toNat_lt
  unfold succ? UInt64.size
  split_ifs with hm
  · have hadd : (m + 1).toNat = m.toNat + 1 := (UInt64.toNat_add m 1).trans (Nat.mod_eq_of_lt hm)
    rw [Option.some_inj, ← UInt64.toNat_inj, hadd, eq_comm]
  · simp only [false_iff]
    omega

theorem lt_of_succ {m n : UInt64} (h : succ? m = some n) : m < n := by
  rw [UInt64.lt_iff_toNat_lt, succ?_eq_some_iff.1 h]
  exact Nat.lt_succ_self _

theorem lt_of_next {b : Bump} (h : v.next? b = some w) : v < w := by
  cases b with
  | major =>
    obtain ⟨n, hn, rfl⟩ := Option.map_eq_some_iff.1 h
    exact lt_iff.2 (Or.inl (lt_of_succ hn))
  | minor =>
    obtain ⟨n, hn, rfl⟩ := Option.map_eq_some_iff.1 h
    exact lt_iff.2 (Or.inr ⟨rfl, Or.inl (lt_of_succ hn)⟩)
  | patch =>
    obtain ⟨n, hn, rfl⟩ := Option.map_eq_some_iff.1 h
    exact lt_iff.2 (Or.inr ⟨rfl, Or.inr ⟨rfl, lt_of_succ hn⟩⟩)

/-- **Every release comes after the one before.** -/
theorem lt_of_bump {b : Bump} (h : v.bump b = .ok w) : v < w := by
  unfold bump at h
  split at h
  · next hn => cases h; exact lt_of_next hn
  · cases h

theorem of_bump_error {b : Bump} {e : Failure} (h : v.bump b = .error e) :
    ∃ detail, e = .version detail := by
  unfold bump at h
  split at h
  · cases h
  · exact ⟨_, (Except.error.inj h).symm⟩

/-! ## Two releases of the same version -/

theorem lt_of_rank_lt {b b' : Bump} (hu : v.next? b = some u) (hw : v.next? b' = some w)
    (h : b.rank < b'.rank) : u < w := by
  cases b' with
  | patch => exact absurd h (Nat.not_lt_zero _)
  | major =>
    obtain ⟨n, hn, rfl⟩ := Option.map_eq_some_iff.1 hw
    have hmajor : u.major = v.major := by
      cases b with
      | major => exact absurd h (Nat.lt_irrefl _)
      | minor => obtain ⟨k, -, rfl⟩ := Option.map_eq_some_iff.1 hu; rfl
      | patch => obtain ⟨k, -, rfl⟩ := Option.map_eq_some_iff.1 hu; rfl
    exact lt_iff.2 (Or.inl (hmajor ▸ lt_of_succ hn))
  | minor =>
    obtain ⟨n, hn, rfl⟩ := Option.map_eq_some_iff.1 hw
    cases b with
    | major => exact absurd h (by decide)
    | minor => exact absurd h (Nat.lt_irrefl _)
    | patch =>
      obtain ⟨k, -, rfl⟩ := Option.map_eq_some_iff.1 hu
      exact lt_iff.2 (Or.inr ⟨rfl, Or.inl (lt_of_succ hn)⟩)

theorem next_of_bump {b : Bump} (h : v.bump b = .ok w) : v.next? b = some w := by
  unfold bump at h
  split at h
  · next hn => cases h; exact hn
  · cases h

theorem bump_eq_iff {b b' : Bump} (hu : v.bump b = .ok u) (hw : v.bump b' = .ok w) :
    u = w ↔ b = b' := by
  constructor
  · rintro rfl
    by_contra hne
    rcases Nat.lt_or_gt_of_ne fun h => hne (Bump.rank_injective h) with h | h
    · exact lt_irrefl u (lt_of_rank_lt (next_of_bump hu) (next_of_bump hw) h)
    · exact lt_irrefl u (lt_of_rank_lt (next_of_bump hw) (next_of_bump hu) h)
  · rintro rfl
    exact Except.ok.inj (hu.symm.trans hw)

theorem bump_lt_iff {b b' : Bump} (hu : v.bump b = .ok u) (hw : v.bump b' = .ok w) :
    u < w ↔ b.rank < b'.rank := by
  refine ⟨fun hlt => ?_, lt_of_rank_lt (next_of_bump hu) (next_of_bump hw)⟩
  by_contra hrank
  rcases Nat.eq_or_lt_of_not_lt hrank with h | h
  · exact ne_of_lt hlt ((bump_eq_iff hu hw).2 (Bump.rank_injective h))
  · exact lt_irrefl u (lt_trans hlt (lt_of_rank_lt (next_of_bump hw) (next_of_bump hu) h))

end Version

end ReleaseFlow
