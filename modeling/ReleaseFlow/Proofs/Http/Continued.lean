import ReleaseFlow.Proofs.Http.Under

/-!
# Texts behind an address

What a request names is the address up to its fragment. A text behind an address and a slash goes
on with whatever the address ends with: a fragment, a query or a path.

* `Url.sent`, `Url.target_complete`: what stands behind a number sign is not sent;
* `Url.complete_append_query`: a query that goes on;
* `Url.walk_forall`, `Url.path_eq_of_pathText`: the names of a path, which its text tells apart;
* `Url.SameBelow`, `Url.target_eq_iff`: **when two texts behind an address name the same**;
* `Url.IsLiteral`, `Url.sameBelow_iff_eq`: texts that no rule shortens or reads as another one.
-/

namespace ReleaseFlow.Url

variable {u : Url} {cs ds : List Char}

/-! ## Fragments -/

/-- The text up to its first number sign. -/
def sent (cs : List Char) : List Char :=
  (cut (· == '#') cs).1

theorem sent_of_not_mem (h : '#' ∉ cs) : sent cs = cs := by
  rw [sent, cut_of_not_mem h]

theorem hash_not_mem_sent (cs : List Char) : '#' ∉ sent cs := fun h => by
  simpa using List.mem_takeWhile_imp h

theorem sent_append_hash (h : '#' ∉ cs) (ds : List Char) : sent (cs ++ '#' :: ds) = cs := by
  rw [sent, cut_append_mark ds h]

theorem sent_append_of_mem (h : '#' ∈ cs) (ds : List Char) : sent (cs ++ ds) = sent cs := by
  obtain ⟨front, rest, rfl, hfront⟩ := List.eq_append_cons_of_mem h
  rw [List.append_assoc, List.cons_append, sent_append_hash hfront, sent_append_hash hfront]

theorem sent_append_of_not_mem (h : '#' ∉ cs) (ds : List Char) :
    sent (cs ++ ds) = cs ++ sent ds := by
  have hall : ∀ c ∈ cs, (!(c == '#')) = true := by
    intro c hc
    rw [Bool.not_eq_true', beq_eq_false_iff_ne]
    rintro rfl
    exact h hc
  exact List.takeWhile_append_of_pos hall

theorem hash_not_mem_behind (h : '#' ∉ cs) : '#' ∉ (cut endsPath cs).2 := fun hmem =>
  h ((List.dropWhile_suffix _).subset hmem)

theorem complete_append_hash (u : Url) (h : '#' ∉ cs) (ds : List Char) :
    complete u (cs ++ '#' :: ds) =
      { complete u cs with fragment := some (encode fragmentSet ds) } := by
  have hends : endsPath '#' = true := rfl
  have hbehind := hash_not_mem_behind h
  simp only [complete, cut_append_cons ds hends, cut_append_mark ds hbehind, cut_of_not_mem hbehind]
  rfl

theorem fragment_complete : (complete u cs).fragment = none ↔ '#' ∉ cs := by
  constructor
  · intro h hmem
    obtain ⟨front, rest, rfl, hfront⟩ := List.eq_append_cons_of_mem hmem
    rw [complete_append_hash u hfront] at h
    cases h
  · intro h
    simp only [complete, cut_of_not_mem (hash_not_mem_behind h)]
    rfl

theorem target_complete (u : Url) (cs : List Char) :
    (complete u cs).target = (complete u (sent cs)).target := by
  by_cases h : '#' ∈ cs
  · obtain ⟨front, rest, rfl, hfront⟩ := List.eq_append_cons_of_mem h
    rw [complete_append_hash u hfront, sent_append_hash hfront]
    rfl
  · rw [sent_of_not_mem h]

/-! ## Queries -/

theorem complete_append_query {query : List Char} (hquery : (complete u cs).query = some query)
    (hcs : '#' ∉ cs) (hds : '#' ∉ ds) : complete u (cs ++ ds) =
      { complete u cs with query := some (query ++ encode querySet ds) } := by
  have hbehind := hash_not_mem_behind hcs
  have hne : (cut endsPath cs).2 ≠ [] := by
    intro h
    simp only [complete, h] at hquery
    cases hquery
  have hbehind' : '#' ∉ (cut endsPath cs).2 ++ ds := List.not_mem_append hbehind hds
  simp only [complete, cut_of_not_mem hbehind, if_neg hne, Option.some.injEq] at hquery
  subst hquery
  simp only [complete, cut_append_of_ne_nil ds hne, cut_of_not_mem hbehind', cut_of_not_mem hbehind,
    if_neg (List.append_ne_nil_of_left_ne_nil hne ds), List.tail_append_of_ne_nil hne,
    encode_append]

/-! ## Paths -/

/-- What holds of the names before a walk, of the names that it keeps and of the empty one holds of
the names after it. -/
theorem walk_forall {P : List Char → Prop} {done names : List (List Char)} (hnil : P [])
    (hdone : ∀ name ∈ done, P name)
    (hnames : ∀ name ∈ names, isSingleDot name = false → isDoubleDot name = false → P name) :
    ∀ name ∈ walk done names, P name := by
  have hlast : ∀ {done : List (List Char)} {last : List Char}, (∀ name ∈ done, P name) → P last →
      ∀ name ∈ done ++ [last], P name := by
    intro done last hdone hlast name h
    rcases List.mem_append.1 h with h | h
    · exact hdone name h
    · exact List.mem_singleton.1 h ▸ hlast
  fun_induction walk done names with
  | case1 done => exact hdone
  | case2 done last hdouble =>
    exact hlast (fun name h => hdone name (List.dropLast_subset _ h)) hnil
  | case3 done last hdouble hsingle => exact hlast hdone hnil
  | case4 done last hdouble hsingle =>
    exact hlast hdone (hnames last List.mem_cons_self (Bool.eq_false_iff.2 hsingle)
      (Bool.eq_false_iff.2 hdouble))
  | case5 done segment next rest hdouble ih =>
    exact ih (fun name h => hdone name (List.dropLast_subset _ h))
      fun name h => hnames name (List.mem_cons_of_mem _ h)
  | case6 done segment next rest hdouble hsingle ih =>
    exact ih hdone fun name h => hnames name (List.mem_cons_of_mem _ h)
  | case7 done segment next rest hdouble hsingle ih =>
    refine ih (hlast hdone ?_) fun name h => hnames name (List.mem_cons_of_mem _ h)
    exact hnames segment List.mem_cons_self (Bool.eq_false_iff.2 hsingle)
      (Bool.eq_false_iff.2 hdouble)

theorem walk_ne_nil {names : List (List Char)} (h : names ≠ []) (done : List (List Char)) :
    walk done names ≠ [] := by
  fun_induction walk done names with
  | case1 => exact absurd rfl h
  | case2 | case3 | case4 => simp
  | case5 _ _ _ _ _ ih | case6 _ _ _ _ _ _ ih | case7 _ _ _ _ _ _ ih =>
    exact ih (List.cons_ne_nil _ _)

theorem path_complete_ne_nil (u : Url) (cs : List Char) : (complete u cs).path ≠ [] := by
  refine walk_ne_nil ?_ []
  simp

theorem slash_not_mem_path {name : List Char} (h : name ∈ (complete u cs).path) : '/' ∉ name := by
  refine walk_forall (P := ('/' ∉ ·)) List.not_mem_nil (fun _ h => by cases h) ?_ name h
  intro name hname _ _
  obtain ⟨piece, hpiece, rfl⟩ := List.mem_map.1 hname
  exact not_mem_encode pathSet (Or.inl rfl) (Text.not_mem_of_mem_splitOn hpiece)

theorem path_eq_of_pathText {v : Url} (h : (complete u cs).pathText = (complete v ds).pathText) :
    (complete u cs).path = (complete v ds).path := by
  have hjoin := congrArg (List.splitOn '/') (List.cons.inj h).2
  rwa [List.splitOn_intercalate '/' (fun _ => slash_not_mem_path) (path_complete_ne_nil u cs),
    List.splitOn_intercalate '/' (fun _ => slash_not_mem_path) (path_complete_ne_nil v ds)] at hjoin

/-! ## Texts that name the same -/

/-- The names of a path in a text, as they are sent. -/
def names (cs : List Char) : List (List Char) :=
  (List.splitOn '/' (sent cs)).map (encode pathSet)

/-- Two texts behind an address and a slash name the same: behind a fragment whatever they are,
behind a query if they are encoded alike, and behind a path if they lead to the same place. -/
def SameBelow (root : Url) (cs ds : List Char) : Prop :=
  match root.fragment, root.query with
  | some _, _ => True
  | none, some _ => encode querySet (sent cs) = encode querySet (sent ds)
  | none, none => walk (opened root.path) (names cs) = walk (opened root.path) (names ds)

/-- A text without question marks and backslashes. -/
def IsLevel (cs : List Char) : Prop :=
  '?' ∉ cs ∧ '\\' ∉ cs

theorem target_eq_iff_targetChars {u v : Url} :
    u.target = v.target ↔ u.targetChars = v.targetChars :=
  ⟨fun h => String.ofList_injective h, fun h => congrArg String.ofList h⟩

theorem target_behind_fragment (h : '#' ∈ cs) (ds : List Char) :
    (complete u (cs ++ ds)).target = (complete u cs).target := by
  rw [target_complete u (cs ++ ds), target_complete u cs, sent_append_of_mem h]

theorem target_behind_hash (h : '#' ∉ cs) (ds : List Char) :
    (complete u (cs ++ '/' :: ds)).target = (complete u (cs ++ '/' :: sent ds)).target := by
  rw [target_complete u (cs ++ '/' :: ds), sent_append_of_not_mem h]
  rfl

theorem target_behind_query {query : List Char} (hquery : (complete u cs).query = some query)
    (hcs : '#' ∉ cs) (ds es : List Char) :
    (complete u (cs ++ '/' :: ds)).target = (complete u (cs ++ '/' :: es)).target ↔
      encode querySet (sent ds) = encode querySet (sent es) := by
  have happend : ∀ more, complete u (cs ++ '/' :: sent more) =
      { complete u cs with query := some (query ++ encode querySet ('/' :: sent more)) } :=
    fun more => complete_append_query hquery hcs (by simpa using hash_not_mem_sent more)
  rw [target_behind_hash hcs ds, target_behind_hash hcs es, target_eq_iff_targetChars, happend,
    happend]
  simp [targetChars, pathText, encode_cons]

section Path

variable (hquery : (complete u cs).query = none) (hfragment : (complete u cs).fragment = none)
  (hhead : ∀ c ∈ cs.head?, endsOrigin c = true) (hlast : ∀ c ∈ cs.getLast?, isSlash c = false)

include hquery hfragment hhead hlast

theorem complete_append_sent (h : IsLevel ds) : complete u (cs ++ '/' :: sent ds) =
    { complete u cs with path := walk (opened (complete u cs).path) (names ds) } := by
  have hmem : ∀ c ∈ sent ds, c ∈ ds := fun c hc => (List.takeWhile_prefix _).subset hc
  have hends : ∀ c ∈ sent ds, endsPath c = false := by
    intro c hc
    rw [endsPath, Bool.or_eq_false_iff, beq_eq_false_iff_ne, beq_eq_false_iff_ne]
    refine ⟨?_, ?_⟩
    · rintro rfl
      exact h.1 (hmem _ hc)
    · rintro rfl
      exact hash_not_mem_sent ds hc
  rw [complete_append hquery hfragment hhead hlast hends,
    slashed_of_not_mem fun hback => h.2 (hmem _ hback)]
  rfl

theorem target_behind_path {es : List Char} (hds : IsLevel ds) (hes : IsLevel es) :
    (complete u (cs ++ '/' :: ds)).target = (complete u (cs ++ '/' :: es)).target ↔
      walk (opened (complete u cs).path) (names ds) =
        walk (opened (complete u cs).path) (names es) := by
  have happend : ∀ {more}, IsLevel more → complete u (cs ++ '/' :: sent more) = _ :=
    complete_append_sent hquery hfragment hhead hlast
  have hcs := fragment_complete.1 hfragment
  rw [target_behind_hash hcs ds, target_behind_hash hcs es, target_eq_iff_targetChars]
  constructor
  · intro h
    have hchars : ∀ {more}, IsLevel more → (complete u (cs ++ '/' :: sent more)).targetChars =
        (complete u (cs ++ '/' :: sent more)).pathText := by
      intro more hmore
      rw [targetChars, happend hmore]
      simp [hquery]
    rw [hchars hds, hchars hes] at h
    have hpath := path_eq_of_pathText h
    rwa [happend hds, happend hes] at hpath
  · intro h
    rw [happend hds, happend hes, h]

end Path

/-- **When two texts behind an address name the same.** -/
theorem target_eq_iff (hhead : ∀ c ∈ cs.head?, endsOrigin c = true)
    (hlast : ∀ c ∈ cs.getLast?, isSlash c = false) {es : List Char} (hds : IsLevel ds)
    (hes : IsLevel es) :
    (complete u (cs ++ '/' :: ds)).target = (complete u (cs ++ '/' :: es)).target ↔
      (complete u cs).SameBelow ds es := by
  cases hfragment : (complete u cs).fragment with
  | some fragment =>
    have hcs : '#' ∈ cs := by
      by_contra h
      rw [fragment_complete.2 h] at hfragment
      cases hfragment
    simp only [SameBelow, hfragment, target_behind_fragment hcs]
  | none =>
    cases hquery : (complete u cs).query with
    | some query =>
      simp only [SameBelow, hfragment, hquery]
      exact target_behind_query hquery (fragment_complete.1 hfragment) ds es
    | none =>
      simp only [SameBelow, hfragment, hquery]
      exact target_behind_path hquery hfragment hhead hlast hds hes

/-! ## Texts that are sent as they are -/

/-- A text that no rule for addresses shortens, and that holds no character by its number. -/
structure IsLiteral (cs : List Char) : Prop where
  unread : ∀ c ∈ cs, IsUnread c
  hash : '#' ∉ cs
  parts : ∀ part ∈ List.splitOn '/' cs, part ≠ [] ∧ part.head? ≠ some '.'

theorem encode_intercalate {inSet : Char → Bool} {sep : Char} (hsep : inSet sep = false)
    (parts : List (List Char)) : encode inSet (List.intercalate [sep] parts) =
      List.intercalate [sep] (parts.map (encode inSet)) := by
  have hmark : encode inSet [sep] = [sep] := by
    rw [encode_cons, hsep]
    rfl
  induction parts with
  | nil => rfl
  | cons part parts ih =>
    cases parts with
    | nil => simp
    | cons next parts =>
      rw [List.intercalate_cons_cons, encode_append, encode_append, hmark, ih, List.map_cons,
        List.map_cons, List.map_cons, List.intercalate_cons_cons]

theorem IsLiteral.names_not_dot (h : IsLiteral cs) {name : List Char} (hname : name ∈ names cs) :
    isSingleDot name = false ∧ isDoubleDot name = false := by
  rw [names, sent_of_not_mem h.hash] at hname
  obtain ⟨part, hpart, rfl⟩ := List.mem_map.1 hname
  obtain ⟨hne, hdot⟩ := h.parts part hpart
  obtain ⟨c, rest, rfl⟩ := List.exists_cons_of_ne_nil hne
  have hc : c ∈ cs := (Text.infix_of_mem_splitOn hpart).subset List.mem_cons_self
  exact not_dot_of_encode pathSet (h.unread c hc) (fun heq => hdot (congrArg some heq)) rest

/-- Texts that are sent as they are name the same only if they are equal. -/
theorem sameBelow_iff_eq (root : Url) (hcs : IsLiteral cs) (hds : IsLiteral ds) :
    root.SameBelow cs ds ↔ root.fragment.isSome ∨ cs = ds := by
  cases hfragment : root.fragment with
  | some fragment => simp [SameBelow, hfragment]
  | none =>
    rw [Option.isSome_none, Bool.false_eq_true, false_or]
    constructor
    · intro h
      cases hquery : root.query with
      | some query =>
        simp only [SameBelow, hfragment, hquery] at h
        rw [sent_of_not_mem hcs.hash, sent_of_not_mem hds.hash] at h
        exact encode_injective hcs.unread hds.unread h
      | none =>
        simp only [SameBelow, hfragment, hquery] at h
        rw [walk_of_not_dot fun _ => hcs.names_not_dot, walk_of_not_dot fun _ => hds.names_not_dot]
          at h
        have hnames := congrArg (List.intercalate ['/']) (List.append_cancel_left h)
        rw [names, names, ← encode_intercalate (by rfl), ← encode_intercalate (by rfl),
          List.intercalate_splitOn, List.intercalate_splitOn, sent_of_not_mem hcs.hash,
          sent_of_not_mem hds.hash] at hnames
        exact encode_injective hcs.unread hds.unread hnames
    · rintro rfl
      cases hquery : root.query with
      | some query => simp only [SameBelow, hfragment, hquery]
      | none => simp only [SameBelow, hfragment, hquery]

end ReleaseFlow.Url
