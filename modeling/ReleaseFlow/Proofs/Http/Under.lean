import Mathlib.Data.List.TakeWhile
import Mathlib.Data.Option.Basic
import ReleaseFlow.Proofs.Http.Encoding
import ReleaseFlow.Proofs.Text.Pieces

/-!
# Addresses below an address

* `Url.origin?`, `Url.complete`, `Url.parse_eq`: an address is read in two parts;
* `Url.walk_append`, `Url.segments_append`: the names of a path that is continued;
* `Url.parse_continued`: an address and the texts that continue it are read alike;
* `Url.IsBase`, `Url.parse_append`: a text that names an address and can be continued;
* `Url.isSome_parse_append`: behind the slash after an address may stand anything;
* `Url.IsName`, `Url.under`: names that mean themselves, and the address below an address;
* `Url.parse_under`: **a continued text names the address below**;
* `Url.isPlain`, `Url.IsDotted`: letters, digits and few signs, of which such names can be made.
-/

namespace ReleaseFlow.Url

/-! ## The two parts of an address -/

def isSlash (c : Char) : Bool :=
  c == '/' || c == '\\'

/-- A character that ends what stands before the path. -/
def endsOrigin (c : Char) : Bool :=
  isSlash c || c == '?' || c == '#'

def endsPath (c : Char) : Bool :=
  c == '?' || c == '#'

def slashed (cs : List Char) : List Char :=
  cs.map fun c => if c == '\\' then '/' else c

theorem slashed_of_not_mem {cs : List Char} (h : '\\' ∉ cs) : slashed cs = cs := by
  refine (List.map_congr_left fun c hc => ?_).trans (List.map_id _)
  have hback : (c == '\\') = false := beq_false_of_ne fun heq => h (heq ▸ hc)
  rw [hback]
  rfl

/-- The address without path, query and fragment. -/
def origin? (hosts : HostReader) (secure : Bool) (authority : List Char) : Option Url := do
  let (user, place) := splitUser authority
  let (host, port) := splitPort place
  guard (host ≠ [])
  let host ← hosts host
  guard (port.head?.all (· == ':'))
  let port ← port? secure port.tail
  return { secure, host, port, user := user.bind encodeUser, path := [] }

/-- The address with the path, the query and the fragment of a text. -/
def complete (u : Url) (cs : List Char) : Url :=
  let (path, cs) := cut endsPath cs
  let (query, cs) := cut (· == '#') cs
  { u with
    path := segments (slashed path).tail
    query := if query = [] then none else some (encode querySet query.tail)
    fragment := if cs = [] then none else some (encode fragmentSet cs.tail) }

variable {hosts : HostReader}

theorem parse_eq (text : String) : parse hosts text = (scheme? (tidy text.toList)).bind fun s =>
    let parts := cut endsOrigin (s.2.dropWhile isSlash)
    (origin? hosts s.1 parts.1).map (complete · parts.2) := by
  unfold parse
  cases scheme? (tidy text.toList) with
  | none => rfl
  | some s =>
  obtain ⟨secure, cs⟩ := s
  simp only [Option.bind_some, Option.bind_eq_bind, origin?, Option.map_bind, Function.comp_def]
  rfl

/-! ## Texts that are continued -/

section Cut

variable {p : Char → Bool} {cs : List Char} (ds : List Char)

theorem takeWhile_append_of_ne_nil (h : cs.dropWhile p ≠ []) :
    (cs ++ ds).takeWhile p = cs.takeWhile p := by
  rw [List.takeWhile_append, if_neg]
  intro hlength
  have hall : cs.takeWhile p = cs := (List.takeWhile_prefix p).eq_of_length hlength
  exact h (List.dropWhile_eq_nil_iff.2 (List.takeWhile_eq_self_iff.1 hall))

theorem dropWhile_append_of_ne_nil (h : cs.dropWhile p ≠ []) :
    (cs ++ ds).dropWhile p = cs.dropWhile p ++ ds := by
  rw [List.dropWhile_append, if_neg (by simpa using h)]

theorem cut_append_of_ne_nil (h : (cut p cs).2 ≠ []) :
    cut p (cs ++ ds) = ((cut p cs).1, (cut p cs).2 ++ ds) := by
  rw [cut, takeWhile_append_of_ne_nil ds h, dropWhile_append_of_ne_nil ds h]
  rfl

/-- A text that goes on with a character at which it is cut is cut there at the latest. -/
theorem cut_append_cons {d : Char} (hd : p d = true) :
    cut p (cs ++ d :: ds) = ((cut p cs).1, (cut p cs).2 ++ d :: ds) := by
  by_cases h : (cut p cs).2 = []
  · have hall : ∀ c ∈ cs, (!p c) = true := List.dropWhile_eq_nil_iff.1 h
    rw [h, cut, cut, List.takeWhile_append_of_pos hall, List.dropWhile_append_of_pos hall,
      List.takeWhile_eq_self_iff.2 hall]
    simp [hd]
  · exact cut_append_of_ne_nil _ h

theorem cut_of_all (h : ∀ c ∈ cs, p c = false) : cut p cs = (cs, []) := by
  have hall : ∀ c ∈ cs, (!p c) = true := fun c hc => by rw [h c hc]; rfl
  rw [cut, List.takeWhile_eq_self_iff.2 hall, List.dropWhile_eq_nil_iff.2 hall]

theorem cut_append {front rest : List Char} (hfront : ∀ c ∈ front, p c = false)
    (hrest : ∀ c ∈ rest.head?, p c = true) : cut p (front ++ rest) = (front, rest) := by
  cases rest with
  | nil => rw [List.append_nil, cut_of_all hfront]
  | cons c rest =>
    rw [cut_append_cons rest (hrest c rfl), cut_of_all hfront]
    rfl

theorem cut_of_not_mem {mark : Char} (h : mark ∉ cs) : cut (· == mark) cs = (cs, []) :=
  cut_of_all fun c hc => beq_false_of_ne fun (heq : c = mark) => h (heq ▸ hc)

theorem cut_append_mark {mark : Char} (h : mark ∉ cs) :
    cut (· == mark) (cs ++ mark :: ds) = (cs, mark :: ds) := by
  refine cut_append (fun c hc => beq_false_of_ne fun (heq : c = mark) => h (heq ▸ hc)) ?_
  simp

theorem all_of_cut (h : (cut p cs).2 = []) : ∀ c ∈ cs, p c = false := fun c hc => by
  simpa using List.dropWhile_eq_nil_iff.1 h c hc

end Cut

/-- Characters at the ends of a text that do not belong to it. -/
def isEdge (c : Char) : Bool :=
  c.toNat ≤ 0x20

/-- Characters that are not skipped inside of a text. -/
def isKept (c : Char) : Bool :=
  !(c == '\t' || c == '\n' || c == '\r')

theorem dropWhile_concat {cs : List Char} {last : Char} (hedge : isEdge last = false) :
    (cs ++ [last]).dropWhile isEdge = cs.dropWhile isEdge ++ [last] := by
  rw [List.dropWhile_append]
  split
  · next h => simp_all
  · rfl

theorem tidy_eq {cs : List Char} {last : Char} (hlast : cs.getLast? = some last)
    (hedge : isEdge last = false) :
    tidy cs = (cs.dropWhile isEdge).filter isKept := by
  obtain ⟨front, rfl⟩ := List.getLast?_eq_some_iff.1 hlast
  have htidy : tidy (front ++ [last]) =
      (((front ++ [last]).dropWhile isEdge).reverse.dropWhile isEdge).reverse.filter isKept := rfl
  rw [htidy, dropWhile_concat hedge, List.reverse_append, List.reverse_singleton,
    List.singleton_append, List.dropWhile_cons, if_neg (by simp [hedge]), List.reverse_cons,
    List.reverse_reverse]

theorem isKept_of_not_edge {c : Char} (h : isEdge c = false) : isKept c = true := by
  by_contra hblank
  simp only [isKept, Bool.not_eq_true, Bool.not_eq_false', Bool.or_eq_true, beq_iff_eq] at hblank
  rcases hblank with (rfl | rfl) | rfl <;> exact absurd h (by decide)

theorem getLast?_tidy {cs : List Char} {last : Char} (hlast : cs.getLast? = some last)
    (hedge : isEdge last = false) : (tidy cs).getLast? = some last := by
  rw [tidy_eq hlast hedge]
  obtain ⟨front, rfl⟩ := List.getLast?_eq_some_iff.1 hlast
  have hkept : [last].filter isKept = [last] := by simp [isKept_of_not_edge hedge]
  rw [dropWhile_concat hedge, List.filter_append, List.getLast?_append, hkept]
  rfl

theorem tidy_append {cs ds : List Char} {last : Char} (hlast : cs.getLast? = some last)
    (hedge : isEdge last = false) (hds : ∀ c ∈ ds, isEdge c = false) :
    tidy (cs ++ ds) = tidy cs ++ ds := by
  have hend : ∃ c, (cs ++ ds).getLast? = some c ∧ isEdge c = false := by
    cases hds' : ds.getLast? with
    | none => exact ⟨last, by rw [List.getLast?_append, hds', hlast]; rfl, hedge⟩
    | some c =>
      exact ⟨c, by rw [List.getLast?_append, hds']; rfl, hds c (List.mem_of_getLast? hds')⟩
  obtain ⟨c, hc, hcedge⟩ := hend
  have hdrop : cs.dropWhile isEdge ≠ [] := fun h => by
    have hlast' := List.dropWhile_eq_nil_iff.1 h last (List.mem_of_getLast? hlast)
    rw [hedge] at hlast'
    cases hlast'
  have hkept : ds.filter isKept = ds :=
    List.filter_eq_self.2 fun c hc => isKept_of_not_edge (hds c hc)
  rw [tidy_eq hc hcedge, tidy_eq hlast hedge, dropWhile_append_of_ne_nil ds hdrop,
    List.filter_append, hkept]

theorem tidy_of_not_edge {cs : List Char} (h : ∀ c ∈ cs, isEdge c = false) : tidy cs = cs := by
  cases cs with
  | nil => rfl
  | cons c cs =>
    have hlast := List.getLast?_eq_some_getLast (List.cons_ne_nil c cs)
    rw [tidy_eq hlast (h _ (List.getLast_mem _)), List.dropWhile_cons,
      if_neg (by rw [h c List.mem_cons_self]; decide)]
    exact List.filter_eq_self.2 fun d hd => isKept_of_not_edge (h d hd)

theorem tidy_append_slash (cs ds : List Char) :
    ∃ es, tidy (cs ++ '/' :: ds) = tidy (cs ++ ['/']) ++ es := by
  have hlast : (cs ++ ['/']).getLast? = some '/' := List.getLast?_concat
  have hfront : (cs ++ ['/']).dropWhile isEdge = cs.dropWhile isEdge ++ ['/'] :=
    dropWhile_concat (by decide)
  have hsplit : cs ++ '/' :: ds = (cs ++ ['/']) ++ ds := by simp
  have htidy : tidy (cs ++ '/' :: ds) =
      (((cs ++ '/' :: ds).dropWhile isEdge).reverse.dropWhile isEdge).reverse.filter isKept := rfl
  rw [htidy, tidy_eq hlast (by decide), hsplit,
    dropWhile_append_of_ne_nil ds (by rw [hfront]; simp), List.reverse_append,
    List.dropWhile_append]
  split
  -- what follows has only edges
  · refine ⟨[], ?_⟩
    rw [hfront, List.reverse_append, List.reverse_singleton, List.singleton_append,
      List.dropWhile_cons, if_neg (by decide), List.append_nil, List.reverse_cons,
      List.reverse_reverse]
  · refine ⟨(ds.reverse.dropWhile isEdge).reverse.filter isKept, ?_⟩
    rw [List.reverse_append, List.reverse_reverse, List.filter_append]

theorem scheme?_append {cs rest : List Char} {secure : Bool} (h : scheme? cs = some (secure, rest))
    (ds : List Char) : scheme? (cs ++ ds) = some (secure, rest ++ ds) := by
  rw [scheme?] at h ⊢
  by_cases hcolon : (cut (· == ':') cs).2 = []
  · simp [hcolon] at h
  rw [cut_append_of_ne_nil ds hcolon]
  obtain ⟨colon, rest', hrest⟩ := List.exists_cons_of_ne_nil hcolon
  simp only [hrest, List.cons_append] at h ⊢
  split at h
  · next hname =>
    rw [if_pos hname]
    cases h
    rfl
  split at h
  · next hnot hname =>
    rw [if_neg hnot, if_pos hname]
    cases h
    rfl
  · cases h

theorem scheme?_append_of_none {cs : List Char} (h : scheme? cs = none) (ds : List Char) :
    scheme? (cs ++ '/' :: ds) = none := by
  rw [scheme?] at h ⊢
  by_cases hcolon : (cut (· == ':') cs).2 = []
  -- the name would have a slash
  · have hall : ∀ c ∈ cs, (!(c == ':')) = true := List.dropWhile_eq_nil_iff.1 hcolon
    have hslash : '/' ∈ ((cut (· == ':') (cs ++ '/' :: ds)).1).map Char.toLower := by
      rw [cut, List.takeWhile_append_of_pos hall]
      simp
    have hhttp : ((cut (· == ':') (cs ++ '/' :: ds)).1).map Char.toLower ≠ "http".toList :=
      fun heq => absurd (heq ▸ hslash) (by decide)
    have hhttps : ((cut (· == ':') (cs ++ '/' :: ds)).1).map Char.toLower ≠ "https".toList :=
      fun heq => absurd (heq ▸ hslash) (by decide)
    dsimp only
    split
    · rfl
    · rw [if_neg hhttp, if_neg hhttps]
  · rw [cut_append_of_ne_nil _ hcolon]
    obtain ⟨colon, rest, hrest⟩ := List.exists_cons_of_ne_nil hcolon
    simp only [hrest, List.cons_append] at h ⊢
    split at h
    · cases h
    next hhttp =>
    split at h
    · cases h
    next hhttps =>
    rw [if_neg hhttp, if_neg hhttps]

/-! ## Paths -/

/-- The path without an empty name at its end. -/
def opened (path : List (List Char)) : List (List Char) :=
  if path.getLast? = some [] then path.dropLast else path

theorem walk_append {names more : List (List Char)} (hnames : names ≠ []) (hmore : more ≠ [])
    (hlast : names.getLast? ≠ some []) (done : List (List Char)) :
    walk done (names ++ more) = walk (opened (walk done names)) more := by
  induction names generalizing done with
  | nil => exact absurd rfl hnames
  | cons name names ih =>
    cases names with
    | nil =>
      obtain ⟨next, rest, rfl⟩ := List.exists_cons_of_ne_nil hmore
      have hname : name ≠ [] := by simpa using hlast
      rw [List.singleton_append, walk, walk]
      split
      · simp [opened]
      split
      · simp [opened]
      · simp [opened, hname]
    | cons next names =>
      have hlast' : (next :: names).getLast? ≠ some [] := by simpa using hlast
      rw [List.cons_append, List.cons_append, walk, walk]
      split
      · exact ih (List.cons_ne_nil _ _) hlast' _
      split
      · exact ih (List.cons_ne_nil _ _) hlast' _
      · exact ih (List.cons_ne_nil _ _) hlast' _

theorem walk_of_not_dot {names : List (List Char)}
    (h : ∀ name ∈ names, isSingleDot name = false ∧ isDoubleDot name = false)
    (done : List (List Char)) : walk done names = done ++ names := by
  induction names generalizing done with
  | nil => simp [walk]
  | cons name names ih =>
    obtain ⟨hsingle, hdouble⟩ := h name List.mem_cons_self
    cases names with
    | nil => simp [walk, hsingle, hdouble]
    | cons next names =>
      have htail := ih (fun n hn => h n (List.mem_cons_of_mem _ hn)) (done ++ [name])
      simpa [walk, hsingle, hdouble] using htail

theorem getLast?_splitOn_ne {cs : List Char} (hne : cs ≠ []) (hlast : cs.getLast? ≠ some '/') :
    (List.splitOn '/' cs).getLast? ≠ some [] := by
  induction cs with
  | nil => exact absurd rfl hne
  | cons c cs ih =>
    by_cases hcs : cs = []
    · subst hcs
      have hc : c ≠ '/' := by simpa using hlast
      simp [List.splitOn_eq_singleton (List.mem_singleton.not.2 hc.symm)]
    have hlast' : cs.getLast? ≠ some '/' := by rwa [List.getLast?_cons_of_ne_nil hcs] at hlast
    replace ih := ih hcs hlast'
    cases hsplit : List.splitOn '/' cs with
    | nil => exact absurd hsplit (List.splitOn_ne_nil '/' cs)
    | cons p ps =>
      rw [hsplit] at ih
      rw [List.splitOn_cons_eq_if_modifyHead, hsplit]
      split
      · rwa [List.getLast?_cons_cons]
      · rw [List.modifyHead_cons]
        cases ps with
        | nil => simp
        | cons q qs => rwa [List.getLast?_cons_cons] at ih ⊢

theorem segments_append {cs : List Char} (hne : cs ≠ []) (hlast : cs.getLast? ≠ some '/')
    (rest : List Char) : segments (cs ++ '/' :: rest) = walk (opened (segments cs))
      ((List.splitOn '/' rest).map (encode pathSet)) := by
  have hends : ((List.splitOn '/' cs).map (encode pathSet)).getLast? ≠ some [] := by
    rw [List.getLast?_map]
    intro h
    obtain ⟨name, hname, hempty⟩ := Option.map_eq_some_iff.1 h
    have hname' : name ≠ [] := fun h => getLast?_splitOn_ne hne hlast (h ▸ hname)
    exact encode_ne_nil hname' hempty
  rw [segments, List.splitOn_append_cons_self, List.map_append, walk_append _ _ hends, segments]
  · simp
  · simp

/-! ## Continued addresses -/

theorem complete_of_all (u : Url) {cs : List Char} (h : ∀ c ∈ cs, endsPath c = false) :
    complete u cs =
      { u with path := segments (slashed cs).tail, query := none, fragment := none } := by
  rw [complete, cut_of_all h]
  rfl

theorem all_of_complete {u : Url} {cs : List Char} (hquery : (complete u cs).query = none)
    (hfragment : (complete u cs).fragment = none) : ∀ c ∈ cs, endsPath c = false := by
  have hnoQuery : (cut (· == '#') (cut endsPath cs).2).1 = [] := by
    by_contra h
    rw [complete] at hquery
    dsimp only at hquery
    rw [if_neg h] at hquery
    cases hquery
  have hnoFragment : (cut (· == '#') (cut endsPath cs).2).2 = [] := by
    by_contra h
    rw [complete] at hfragment
    dsimp only at hfragment
    rw [if_neg h] at hfragment
    cases hfragment
  refine all_of_cut ?_
  rw [← List.takeWhile_append_dropWhile (p := fun c => !(c == '#')) (l := (cut endsPath cs).2)]
  exact List.append_eq_nil_iff.2 ⟨hnoQuery, hnoFragment⟩

theorem complete_append {u : Url} {cs rest : List Char} (hquery : (complete u cs).query = none)
    (hfragment : (complete u cs).fragment = none) (hhead : ∀ c ∈ cs.head?, endsOrigin c = true)
    (hlast : ∀ c ∈ cs.getLast?, isSlash c = false) (hrest : ∀ c ∈ rest, endsPath c = false) :
    complete u (cs ++ '/' :: rest) = { complete u cs with
      path := walk (opened (complete u cs).path)
        ((List.splitOn '/' (slashed rest)).map (encode pathSet)) } := by
  have hall := all_of_complete hquery hfragment
  have hall' : ∀ c ∈ cs ++ '/' :: rest, endsPath c = false := by
    intro c hc
    rcases List.mem_append.1 hc with h | h
    · exact hall c h
    rcases List.mem_cons.1 h with rfl | h
    · rfl
    · exact hrest c h
  rw [complete_of_all u hall, complete_of_all u hall']
  cases cs with
  | nil => rfl
  | cons c cs =>
    have hne : slashed cs ≠ [] := by
      intro h
      obtain rfl : cs = [] := by simpa [slashed] using h
      have hnotPath : (c == '?' || c == '#') = false := hall c List.mem_cons_self
      have hends := hhead c rfl
      rw [endsOrigin, hlast c rfl, Bool.false_or, hnotPath] at hends
      cases hends
    have hlast' : (slashed cs).getLast? ≠ some '/' := by
      rw [slashed, List.getLast?_map]
      intro h
      obtain ⟨d, hd, hslash⟩ := Option.map_eq_some_iff.1 h
      have hnot : isSlash d = false := by
        refine hlast d ?_
        rw [List.getLast?_cons_of_ne_nil (List.ne_nil_of_mem (List.mem_of_getLast? hd))]
        exact hd
      split at hslash
      · next hback => simp [isSlash, hback] at hnot
      · subst hslash
        cases hnot
    have htail : (slashed (c :: cs ++ '/' :: rest)).tail = slashed cs ++ '/' :: slashed rest := by
      simp [slashed]
    rw [htail, segments_append hne hlast']
    rfl

/-- A text that names an address and can be continued: nothing stands behind its path, which does
not end in a slash. -/
structure IsBase (hosts : HostReader) (text : String) (root : Url) : Prop where
  parse : parse hosts text = some root
  query : root.query = none
  fragment : root.fragment = none
  last : ∃ c, text.toList.getLast? = some c ∧ isSlash c = false ∧ isEdge c = false

/-- The colon of a scheme and what follows it are the end of the text. -/
theorem scheme?_suffix {cs rest : List Char} {secure : Bool}
    (h : scheme? cs = some (secure, rest)) : ':' :: rest <:+ cs := by
  rw [scheme?] at h
  cases hcolon : (cut (· == ':') cs).2 with
  | nil => simp [hcolon] at h
  | cons colon after =>
    have hafter : colon :: after <:+ cs := hcolon ▸ List.dropWhile_suffix _
    obtain rfl : colon = ':' := by
      have hhead := List.head?_dropWhile_not (fun c => !(c == ':')) cs
      have hcut : (cs.dropWhile fun c => !(c == ':')) = colon :: after := hcolon
      rw [hcut] at hhead
      simpa using hhead
    simp only [hcolon] at h
    split at h
    · cases h
      exact hafter
    split at h
    · cases h
      exact hafter
    · cases h

/-- There is something between a scheme and the end of the text, unless the text ends with the
colon or with slashes. -/
theorem dropWhile_ne_nil_of_scheme? {cs rest : List Char} {secure : Bool} {last : Char}
    (h : scheme? cs = some (secure, rest)) (hlast : cs.getLast? = some last)
    (hslash : isSlash last = false) (hcolon : last ≠ ':') : rest.dropWhile isSlash ≠ [] := by
  intro hempty
  obtain ⟨front, rfl⟩ := scheme?_suffix h
  rw [List.getLast?_append, List.getLast?_cons] at hlast
  cases Option.some.inj hlast
  cases hrest : rest.getLast? with
  | none =>
    rw [hrest] at hcolon
    exact hcolon rfl
  | some c =>
    rw [hrest] at hslash
    have hall := List.dropWhile_eq_nil_iff.1 hempty c (List.mem_of_getLast? hrest)
    exact absurd (hall.symm.trans hslash) (by decide)

/-- An address and the texts that continue it are read alike, up to where the path begins, if
there is something between the scheme and the place where they go on. -/
theorem parse_continued {base : String} {last : Char} (hlast : base.toList.getLast? = some last)
    (hslash : isSlash last = false) (hedge : isEdge last = false)
    (hne : ∀ s, scheme? (tidy base.toList) = some s → s.2.dropWhile isSlash ≠ []) :
    ∃ o : Option (Url × List Char), parse hosts base = o.map (fun p => complete p.1 p.2) ∧
      (∀ p ∈ o, (∀ c ∈ p.2.head?, endsOrigin c = true) ∧ ∀ c ∈ p.2.getLast?, isSlash c = false) ∧
      ∀ rest : List Char, (∀ c ∈ rest, isEdge c = false) → ∀ text : String,
        text.toList = base.toList ++ '/' :: rest →
        parse hosts text = o.map fun p => complete p.1 (p.2 ++ '/' :: rest) := by
  have htidy : ∀ rest : List Char, (∀ c ∈ rest, isEdge c = false) →
      tidy (base.toList ++ '/' :: rest) = tidy base.toList ++ '/' :: rest := by
    intro rest hrest
    refine tidy_append hlast hedge fun c hc => ?_
    rcases List.mem_cons.1 hc with rfl | hc
    · rfl
    · exact hrest c hc
  cases hscheme : scheme? (tidy base.toList) with
  | none =>
    refine ⟨none, by rw [parse_eq, hscheme]; rfl, by simp, fun rest hrest text htext => ?_⟩
    rw [parse_eq, htext, htidy rest hrest, scheme?_append_of_none hscheme]
    rfl
  | some s =>
    obtain ⟨secure, after⟩ := s
    have hafter : after.dropWhile isSlash ≠ [] := hne _ hscheme
    generalize hcs : after.dropWhile isSlash = cs at hafter
    refine ⟨(origin? hosts secure (cut endsOrigin cs).1).map (·, (cut endsOrigin cs).2), ?_, ?_, ?_⟩
    · rw [parse_eq, hscheme, Option.bind_some, Option.map_map, hcs]
      rfl
    · rintro p hp
      obtain ⟨u, -, rfl⟩ := Option.map_eq_some_iff.1 hp
      refine ⟨fun c hc => ?_, fun c hc => ?_⟩
      · have hhead := List.head?_dropWhile_not (fun c => !endsOrigin c) cs
        have hcut : (cs.dropWhile fun c => !endsOrigin c).head? = some c := hc
        rw [hcut] at hhead
        simpa using hhead
      -- what stands behind the host is the end of the text, so it does not end in a slash either
      · obtain ⟨front, hfront⟩ : (cut endsOrigin cs).2 <:+ tidy base.toList :=
          ((List.dropWhile_suffix _).trans (hcs ▸ List.dropWhile_suffix _)).trans
            ((List.suffix_cons _ _).trans (scheme?_suffix hscheme))
        have hend := getLast?_tidy hlast hedge
        rw [← hfront, List.getLast?_append, hc] at hend
        cases hend
        exact hslash
    · intro rest hrest text htext
      rw [parse_eq, htext, htidy rest hrest, scheme?_append hscheme, Option.bind_some,
        Option.map_map]
      dsimp only
      rw [dropWhile_append_of_ne_nil _ (hcs ▸ hafter), hcs, cut_append_cons rest (by rfl)]
      rfl

theorem parse_append {base : String} {root : Url} (hbase : IsBase hosts base root)
    {rest : List Char} (hrest : ∀ c ∈ rest, isEdge c = false ∧ endsPath c = false) {text : String}
    (htext : text.toList = base.toList ++ '/' :: rest) :
    parse hosts text = some { root with
      path := walk (opened root.path)
        ((List.splitOn '/' (slashed rest)).map (encode pathSet)) } := by
  obtain ⟨last, hlast, hslash, hedge⟩ := hbase.last
  have hne : ∀ s, scheme? (tidy base.toList) = some s → s.2.dropWhile isSlash ≠ [] := by
    intro s hs hempty
    have hparse := hbase.parse
    rw [parse_eq, hs, Option.bind_some, hempty] at hparse
    cases hparse
  obtain ⟨o, hparse, hends, htexts⟩ := parse_continued hlast hslash hedge hne
  obtain ⟨p, rfl, hroot⟩ := Option.map_eq_some_iff.1 (hparse.symm.trans hbase.parse)
  obtain ⟨hhead, hlast'⟩ := hends p rfl
  subst hroot
  rw [htexts rest (fun c hc => (hrest c hc).1) text htext]
  exact congrArg some (complete_append hbase.query hbase.fragment hhead hlast'
    fun c hc => (hrest c hc).2)

/-- A text that names an address with a slash behind it names one whatever follows the slash. -/
theorem isSome_parse_append {base : String} (hbase : (parse hosts (base ++ "/")).isSome = true)
    {rest : List Char} {text : String} (htext : text.toList = base.toList ++ '/' :: rest) :
    (parse hosts text).isSome = true := by
  have hslash : (base ++ "/").toList = base.toList ++ ['/'] := String.toList_append
  have hlast : (base.toList ++ ['/']).getLast? = some '/' := List.getLast?_concat
  obtain ⟨root, hroot⟩ := Option.isSome_iff_exists.1 hbase
  rw [parse_eq, hslash] at hroot
  obtain ⟨⟨secure, after⟩, hscheme, h⟩ := Option.bind_eq_some_iff.1 hroot
  obtain ⟨u, horigin, -⟩ := Option.map_eq_some_iff.1 h
  dsimp only at horigin
  have hne : after.dropWhile isSlash ≠ [] := by
    intro hempty
    rw [hempty] at horigin
    cases horigin
  -- the slash ends what stands before the path, if nothing before it does
  have hcut : (cut endsOrigin (after.dropWhile isSlash)).2 ≠ [] := by
    intro hempty
    obtain ⟨front, hfront⟩ := (List.dropWhile_suffix isSlash).trans
      ((List.suffix_cons _ _).trans (scheme?_suffix hscheme))
    have hend := getLast?_tidy hlast (by decide)
    rw [← hfront, List.getLast?_append, List.getLast?_eq_some_getLast hne] at hend
    have hmem : '/' ∈ after.dropWhile isSlash := Option.some.inj hend ▸ List.getLast_mem hne
    exact absurd (all_of_cut hempty '/' hmem) (by decide)
  obtain ⟨es, htidy⟩ := tidy_append_slash base.toList rest
  rw [parse_eq, htext, htidy, scheme?_append hscheme, Option.bind_some]
  dsimp only
  rw [dropWhile_append_of_ne_nil _ hne, cut_append_of_ne_nil _ hcut, horigin]
  rfl

/-! ## Names in paths -/

/-- The address of names below an address. -/
def under (root : Url) (names : List String) : Url :=
  { root with path := opened root.path ++ names.map String.toList }

/-- A name that means itself in a path. -/
structure IsName (name : List Char) : Prop where
  chars : ∀ c ∈ name, pathSet c = false ∧ isSlash c = false
  single : isSingleDot name = false
  double : isDoubleDot name = false

section Sets

variable {c : Char}

theorem not_edge_of_not_control (hcontrol : isControl c = false) (hspace : (c == ' ') = false) :
    isEdge c = false := by
  simp only [isControl, Bool.or_eq_false_iff, decide_eq_false_iff_not] at hcontrol
  have hne : c.toNat ≠ 32 := fun h => beq_eq_false_iff_ne.1 hspace (Char.toNat_inj.1 h)
  simp only [isEdge, decide_eq_false_iff_not]
  omega

theorem not_edge_of_fragmentSet (h : fragmentSet c = false) : isEdge c = false := by
  simp only [fragmentSet, Bool.or_eq_false_iff] at h
  exact not_edge_of_not_control h.1.1.1.1.1 h.1.1.1.1.2

theorem fragmentSet_of_pathSet (h : pathSet c = false) : fragmentSet c = false := by
  simp only [pathSet, Bool.or_eq_false_iff] at h
  exact h.1.1.1.1

theorem not_endsPath_of_pathSet (h : pathSet c = false) : endsPath c = false := by
  simp only [pathSet, Bool.or_eq_false_iff] at h
  rw [endsPath, h.1.1.2, h.1.1.1.2]
  rfl

end Sets

theorem mem_intercalate {sep c : Char} {names : List (List Char)}
    (h : c ∈ List.intercalate [sep] names) : c = sep ∨ ∃ name ∈ names, c ∈ name := by
  induction names with
  | nil => cases h
  | cons name names ih =>
    cases names with
    | nil => exact Or.inr ⟨name, List.mem_cons_self, by rwa [List.intercalate_singleton] at h⟩
    | cons next names =>
      rw [List.intercalate_cons_cons, List.append_assoc] at h
      rcases List.mem_append.1 h with h | h
      · exact Or.inr ⟨name, List.mem_cons_self, h⟩
      rcases List.mem_cons.1 h with h | h
      · exact Or.inl h
      rcases ih h with h | ⟨n, hn, hc⟩
      · exact Or.inl h
      · exact Or.inr ⟨n, List.mem_cons_of_mem _ hn, hc⟩

section Names

variable {names : List (List Char)} (hnames : ∀ name ∈ names, IsName name)

include hnames

theorem mem_intercalate_names {c : Char} (h : c ∈ List.intercalate ['/'] names) :
    isEdge c = false ∧ endsPath c = false ∧ c ≠ '\\' := by
  rcases mem_intercalate h with rfl | ⟨name, hname, hc⟩
  · decide
  · obtain ⟨hset, hslash⟩ := (hnames name hname).chars c hc
    exact ⟨not_edge_of_fragmentSet (fragmentSet_of_pathSet hset), not_endsPath_of_pathSet hset,
      fun heq => absurd (heq ▸ hslash) (by decide)⟩

theorem walk_splitOn_intercalate (hne : names ≠ []) (done : List (List Char)) :
    walk done ((List.splitOn '/' (slashed (List.intercalate ['/'] names))).map (encode pathSet)) =
      done ++ names := by
  have hback : '\\' ∉ List.intercalate ['/'] names :=
    fun h => (mem_intercalate_names hnames h).2.2 rfl
  have hsplit : List.splitOn '/' (List.intercalate ['/'] names) = names :=
    List.splitOn_intercalate '/' (fun name hname hslash =>
      absurd ((hnames name hname).chars '/' hslash).2 (by decide)) hne
  have hencode : names.map (encode pathSet) = names :=
    (List.map_congr_left fun name hname => encode_of_not_inSet fun c hc =>
      ((hnames name hname).chars c hc).1).trans (List.map_id _)
  rw [slashed_of_not_mem hback, hsplit, hencode,
    walk_of_not_dot fun name hname => ⟨(hnames name hname).single, (hnames name hname).double⟩]

end Names

/-- **A text that is continued by names names the address below.** -/
theorem parse_under {base : String} {root : Url} (hbase : IsBase hosts base root)
    {names : List String} (hne : names ≠ []) (hnames : ∀ name ∈ names, IsName name.toList)
    {text : String}
    (htext : text.toList = base.toList ++ '/' :: List.intercalate ['/'] (names.map String.toList)) :
    parse hosts text = some (root.under names) := by
  have hnames' : ∀ name ∈ names.map String.toList, IsName name := by
    intro name hname
    obtain ⟨n, hn, rfl⟩ := List.mem_map.1 hname
    exact hnames n hn
  have hrest : ∀ c ∈ List.intercalate ['/'] (names.map String.toList),
      isEdge c = false ∧ endsPath c = false := fun c hc =>
    ⟨(mem_intercalate_names hnames' hc).1, (mem_intercalate_names hnames' hc).2.1⟩
  rw [parse_append hbase hrest htext, walk_splitOn_intercalate hnames' (by simpa using hne)]
  rfl

/-! ## Plain names -/

/-- A character that means itself in every part of an address: a letter, a digit, `-` or `_`. -/
def isPlain (c : Char) : Bool :=
  Text.isAsciiDigit c || ('a' ≤ c && c ≤ 'z') || ('A' ≤ c && c ≤ 'Z') || c == '-' || c == '_'

theorem isPlain_iff {c : Char} : isPlain c = true ↔ 48 ≤ c.toNat ∧ c.toNat ≤ 57 ∨
    97 ≤ c.toNat ∧ c.toNat ≤ 122 ∨ 65 ≤ c.toNat ∧ c.toNat ≤ 90 ∨ c = '-' ∨ c = '_' := by
  have hle : ∀ c d : Char, c ≤ d ↔ c.toNat ≤ d.toNat := fun _ _ => Iff.rfl
  simp [isPlain, Text.isAsciiDigit, hle, or_assoc]

section Plain

variable {c : Char} (h : isPlain c = true)

include h

theorem ne_of_isPlain {d : Char} (hd : isPlain d = false) : c ≠ d := by
  rintro rfl
  rw [hd] at h
  cases h

theorem visible_of_isPlain : 0x20 < c.toNat ∧ c.toNat < 0x7F := by
  rcases isPlain_iff.1 h with h | h | h | rfl | rfl
  · omega
  · omega
  · omega
  · decide
  · decide

theorem pathSet_of_isPlain : pathSet c = false := by
  obtain ⟨hlow, hhigh⟩ := visible_of_isPlain h
  have hcontrol : isControl c = false := by
    simp only [isControl, Bool.or_eq_false_iff, decide_eq_false_iff_not]
    omega
  rw [pathSet, fragmentSet, hcontrol]
  simp (disch := decide) [ne_of_isPlain h]

theorem not_isSlash_of_isPlain : isSlash c = false := by
  simp (disch := decide) [isSlash, ne_of_isPlain h]

end Plain

/-- A name of plain characters and dots that does not stand for a directory. -/
structure IsDotted (name : String) : Prop where
  chars : ∀ c ∈ name.toList, isPlain c = true ∨ c = '.'
  single : name ≠ "."
  double : name ≠ ".."

theorem IsDotted.isName {name : String} (h : IsDotted name) : IsName name.toList := by
  have hpercent : '%' ∉ name.toList.map Char.toLower := by
    intro hmem
    obtain ⟨c, hc, heq⟩ := List.mem_map.1 hmem
    rcases h.chars c hc with hplain | rfl
    · exact toLower_ne (ne_of_isPlain hplain rfl) (by decide) heq
    · cases heq
  have hnumber : ∀ dots : List Char, '%' ∈ dots → name.toList.map Char.toLower ≠ dots :=
    fun dots hmem heq => hpercent (heq ▸ hmem)
  have hdot : ∀ c : Char, c.toLower = '.' → c = '.' := fun c hc => by
    by_contra hne
    exact toLower_ne hne (by decide) hc
  have hdots : name.toList.map Char.toLower ≠ ['.', '.'] := by
    intro heq
    obtain ⟨a, rest, hname, ha, heq⟩ := List.map_eq_cons_iff.1 heq
    obtain ⟨b, rest, rfl, hb, heq⟩ := List.map_eq_cons_iff.1 heq
    rw [List.map_eq_nil_iff.1 heq, hdot a ha, hdot b hb] at hname
    exact h.double (String.toList_inj.1 hname)
  refine ⟨fun c hc => ?_, ?_, ?_⟩
  · rcases h.chars c hc with hplain | rfl
    · exact ⟨pathSet_of_isPlain hplain, not_isSlash_of_isPlain hplain⟩
    · decide
  · have hone : name.toList ≠ ['.'] := fun heq => h.single (String.toList_inj.1 heq)
    simp [isSingleDot, hone, hnumber]
  · simp [isDoubleDot, hdots, hnumber]

theorem isDotted_of_plain {name : String} (h : name.toList.all isPlain = true) : IsDotted name where
  chars c hc := Or.inl (List.all_eq_true.1 h c hc)
  single := by
    rintro rfl
    cases h
  double := by
    rintro rfl
    cases h

end ReleaseFlow.Url
