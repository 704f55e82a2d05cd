import Mathlib.Tactic.SplitIfs
import ReleaseFlow.Files

/-!
# Files that collect text

* `node?_put`, `follow_put`: what a new file changes, and the paths that it does not move;
* `append_elsewhere`: appending changes the file at one place and nothing else;
* `FileTree.Holds`: a path to which text can be appended, and the text that is there;
* `append_of_holds`: **appending a text puts it after the one that is there**.
-/

namespace ReleaseFlow.FileTree

variable {t : FileTree} {path text : String} {place : Place} {node : Node}

/-! ## Nodes and places -/

theorem lookup_replace (entries : List (Place × Node)) (place : Place) (node : Node) (p : Place) :
    (entries.map fun e => if e.1 = place then (place, node) else e).lookup p =
      if p = place then (entries.lookup p).map fun _ => node else entries.lookup p := by
  induction entries with
  | nil => simp
  | cons e entries ih =>
    obtain ⟨q, n⟩ := e
    rw [List.map_cons, List.lookup_cons]
    by_cases hp : p = q
    · subst hp
      by_cases hplace : p = place
      · simp [hplace]
      · simp [hplace]
    · have hpq : (p == q) = false := beq_eq_false_iff_ne.2 hp
      by_cases hq : q = place
      · rw [if_pos hq, ← hq, List.lookup_cons, hpq, hq, ih]
      · rw [if_neg hq, List.lookup_cons, hpq, ih]

theorem node?_put (hplace : place ≠ []) (p : Place) :
    (t.put place node).node? p = if p = place then some node else t.node? p := by
  unfold put node?
  by_cases hp : p = []
  · rw [if_pos hp, if_pos hp, if_neg (hp ▸ hplace.symm)]
  rw [if_neg hp, if_neg hp]
  by_cases hnew : (t.nodes.lookup place).isSome = true
  · rw [if_pos hnew, lookup_replace]
    by_cases hpp : p = place
    · subst hpp
      rw [if_pos rfl, if_pos rfl]
      obtain ⟨n, hn⟩ := Option.isSome_iff_exists.1 hnew
      rw [hn, Option.map_some]
    · rw [if_neg hpp, if_neg hpp]
  · have hnone : t.nodes.lookup place = none := Option.not_isSome_iff_eq_none.1 hnew
    rw [if_neg hnew, List.lookup_append]
    by_cases hpp : p = place
    · subst hpp
      simp [hnone]
    · have hlast : List.lookup p [(place, node)] = none := by simp [hpp]
      rw [hlast, Option.or_none, if_neg hpp]

theorem home_put : (t.put place node).home = t.home := by
  unfold put
  split <;> rfl

/-- A new node where no directory was stands in the way of no path: all names of a path but the
last lead through directories. -/
theorem follow_put (hdir : t.node? place ≠ some .directory) {names : List String} {start q : Place}
    (h : t.follow names start = .ok q) : (t.put place node).follow names start = .ok q := by
  have hplace : place ≠ [] := fun hnil => hdir (by rw [hnil, node?, if_pos rfl])
  induction names generalizing start with
  | nil => exact h
  | cons name names ih =>
    rw [follow] at h ⊢
    cases hstart : t.node? start with
    | none =>
      rw [hstart] at h
      cases h
    | some n =>
      rw [hstart] at h
      cases n with
      | file content => cases h
      | directory =>
        have hne : start ≠ place := fun he => hdir (he ▸ hstart)
        rw [node?_put hplace, if_neg hne, hstart]
        dsimp only at h ⊢
        split_ifs at h ⊢
        · exact ih h
        · exact ih h
        · exact ih h

theorem resolve_put (hdir : t.node? place ≠ some .directory) {q : Place}
    (h : t.resolve path = .ok q) : (t.put place node).resolve path = .ok q := by
  unfold resolve at h ⊢
  cases hfault : pathFault? path with
  | some fault =>
    rw [hfault] at h
    cases h
  | none =>
    rw [hfault] at h
    dsimp only at h ⊢
    rw [home_put]
    split at h
    · exact follow_put hdir h
    · exact follow_put hdir h

/-- A new file leads to no place that was not there: names are looked up in directories alone. -/
theorem follow_of_put {content : Content} (hplace : place ≠ []) {names : List String}
    {start q : Place} (h : (t.put place (.file content)).follow names start = .ok q) :
    t.follow names start = .ok q := by
  induction names generalizing start with
  | nil => exact h
  | cons name names ih =>
    rw [follow, node?_put hplace] at h
    rw [follow]
    by_cases hstart : start = place
    · rw [if_pos hstart] at h
      cases h
    · rw [if_neg hstart] at h
      cases hnode : t.node? start with
      | none =>
        rw [hnode] at h
        cases h
      | some n =>
        rw [hnode] at h
        cases n with
        | file content => cases h
        | directory =>
          dsimp only at h ⊢
          split_ifs at h ⊢
          · exact ih h
          · exact ih h
          · exact ih h

theorem resolve_put_iff {content : Content} (hdir : t.node? place ≠ some .directory) {q : Place} :
    (t.put place (.file content)).resolve path = .ok q ↔ t.resolve path = .ok q := by
  refine ⟨fun h => ?_, resolve_put hdir⟩
  have hplace : place ≠ [] := fun hnil => hdir (by rw [hnil, node?, if_pos rfl])
  unfold resolve at h ⊢
  cases hfault : pathFault? path with
  | some fault =>
    rw [hfault] at h
    cases h
  | none =>
    rw [hfault] at h
    dsimp only at h ⊢
    rw [home_put] at h
    split at h
    · exact follow_of_put hplace h
    · exact follow_of_put hplace h

/-- A path that can be written to has no slash at its end, and leads where it leads for reading. -/
theorem resolveForWriting_eq_ok_iff :
    t.resolveForWriting path = .ok place ↔
      path.toList.getLast? ≠ some '/' ∧ t.resolve path = .ok place := by
  rw [List.getLast?_eq_head?_reverse]
  unfold resolveForWriting
  split
  · next cs hcs =>
    rw [hcs]
    simp only [List.head?_cons, ne_eq, not_true_eq_false, false_and, iff_false]
    split
    · exact fun h => by cases h
    · exact fun h => by cases h
    · exact fun h => by cases hr : t.resolve _ <;> rw [hr] at h <;> cases h
  · next hne =>
    have hlast : path.toList.reverse.head? ≠ some '/' := by
      intro hhead
      obtain ⟨cs, hcs⟩ := List.head?_eq_some_iff.1 hhead
      exact hne cs hcs
    exact ⟨fun h => ⟨hlast, h⟩, fun h => h.2⟩

theorem of_append {t' : FileTree} (h : t.append path text = .ok t') :
    ∃ place content, t.resolve path = .ok place ∧ t.node? place ≠ some .directory ∧
      t' = t.put place (.file content) := by
  unfold append at h
  split at h
  · cases h
  · next place hp =>
    have hresolve := (resolveForWriting_eq_ok_iff.1 hp).2
    split at h
    · next hnode =>
      cases h
      exact ⟨place, _, hresolve, by simp [hnode], rfl⟩
    · cases h
    · next hnode =>
      cases h
      exact ⟨place, _, hresolve, by simp [hnode], rfl⟩

theorem append_elsewhere {t' : FileTree} (h : t.append path text = .ok t') :
    (∀ other q, t'.resolve other = .ok q ↔ t.resolve other = .ok q) ∧
      ∀ p, t.resolve path ≠ .ok p → t'.node? p = t.node? p := by
  obtain ⟨place, content, hresolve, hdir, rfl⟩ := of_append h
  have hplace : place ≠ [] := fun hnil => hdir (by rw [hnil, node?, if_pos rfl])
  refine ⟨fun other q => resolve_put_iff hdir, fun p hp => ?_⟩
  have hne : p ≠ place := by
    rintro rfl
    exact hp hresolve
  rw [node?_put hplace, if_neg hne]

/-! ## Text that is collected -/

/-- Text can be appended to the file at the path, which holds the given text. A file that is not
there yet holds none. -/
def Holds (t : FileTree) (path text : String) : Prop :=
  ∃ place, t.resolveForWriting path = .ok place ∧
    (t.node? place = some (.file (.text text)) ∨ t.node? place = none ∧ text = "")

theorem Holds.put {t : FileTree} (hp : t.resolveForWriting path = .ok place)
    (hdir : t.node? place ≠ some .directory) :
    (t.put place (.file (.text text))).Holds path text := by
  have hplace : place ≠ [] := fun hnil => hdir (by rw [hnil, node?, if_pos rfl])
  obtain ⟨hslash, hresolve⟩ := resolveForWriting_eq_ok_iff.1 hp
  refine ⟨place, resolveForWriting_eq_ok_iff.2 ⟨hslash, resolve_put hdir hresolve⟩, Or.inl ?_⟩
  rw [node?_put hplace, if_pos rfl]

/-- **Appending a text puts it after the one that is there.** -/
theorem append_of_holds (h : t.Holds path text) (more : String) :
    ∃ t', t.append path more = .ok t' ∧ t'.Holds path (text ++ more) := by
  obtain ⟨place, hp, hnode | ⟨hnode, rfl⟩⟩ := h
  · refine ⟨t.put place (.file (.text (text ++ more))), ?_, .put hp (by simp [hnode])⟩
    rw [append, hp]
    dsimp only
    rw [hnode]
    rfl
  · refine ⟨t.put place (.file (.text more)), ?_, ?_⟩
    · rw [append, hp]
      dsimp only
      rw [hnode]
    · rw [String.empty_append]
      exact .put hp (by simp [hnode])

end ReleaseFlow.FileTree
