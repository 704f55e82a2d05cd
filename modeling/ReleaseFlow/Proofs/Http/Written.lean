import ReleaseFlow.Proofs.Http.Continued
import ReleaseFlow.Proofs.Text.Decimal

/-!
# Written addresses

* `Url.IsNormal`: what can be said of every address that was read;
* `Url.IsHostReader`: readers of hosts that read what they return, as it is;
* `Url.authority`, `Url.behindPath`, `Url.toList_text`: the parts of a written address;
* `Url.origin?_authority`, `Url.complete_behindPath`: each part is read back;
* `Url.parse_text`: **a written address is read back**;
* `Url.isNormal_of_parse`: **every address that is read is one that can be read back**;
* `Url.IsNormal.under`: so is the address of names below it.
-/

namespace ReleaseFlow.Url

/-! ## Encoded parts -/

theorem isEncodeSet_pathSet : IsEncodeSet pathSet := by
  unfold IsEncodeSet
  decide

theorem isEncodeSet_querySet : IsEncodeSet querySet := by
  unfold IsEncodeSet
  decide

theorem isEncodeSet_fragmentSet : IsEncodeSet fragmentSet := by
  unfold IsEncodeSet
  decide

theorem isEncodeSet_userSet : IsEncodeSet userSet := by
  unfold IsEncodeSet
  decide

/-- A character between the brackets of an address. -/
def isNumberChar (c : Char) : Bool :=
  Text.isHexDigit c || c == ':' || c == '.'

/-- A host: a name, or an address between brackets. -/
inductive IsHost : List Char → Prop
  | name {cs : List Char} : cs ≠ [] → (∀ c ∈ cs, isHostChar c = true) → IsHost cs
  | address {inner : List Char} : (∀ c ∈ inner, isNumberChar c = true) →
    IsHost ('[' :: (inner ++ [']']))

/-- What is read of a host is a host, and it is read again as it is. -/
def IsHostReader (hosts : HostReader) : Prop :=
  ∀ cs host, hosts cs = some host → IsHost host ∧ hosts host = some host

/-- The parts of an address that are written as they are read. -/
structure IsNormal (hosts : HostReader) (u : Url) : Prop where
  user : ∀ user ∈ u.user, encodeUser user = some user
  host : IsHost u.host
  read : hosts u.host = some u.host
  port : ∀ n ∈ u.port, port? u.secure (Text.decimal n).toList = some (some n)
  path : u.path ≠ [] ∧ ∀ name ∈ u.path, IsName name
  query : ∀ query ∈ u.query, ∀ c ∈ query, querySet c = false
  fragment : ∀ fragment ∈ u.fragment, ∀ c ∈ fragment, fragmentSet c = false

/-- A character that can stand between a scheme and a path, and is not the sign behind a user. -/
def IsAuthorityChar (c : Char) : Prop :=
  isEdge c = false ∧ endsOrigin c = false ∧ c ≠ '@'

/-! ## Users -/

theorem isAuthorityChar_of_userSet {c : Char} (h : userSet c = false) : IsAuthorityChar c := by
  simp only [userSet, Bool.or_eq_false_iff, beq_eq_false_iff_ne] at h
  obtain ⟨⟨⟨⟨⟨⟨⟨⟨⟨⟨hpath, hslash⟩, -⟩, -⟩, -⟩, hat⟩, -⟩, hback⟩, -⟩, -⟩, -⟩ := h
  have hends := not_endsPath_of_pathSet hpath
  simp only [endsPath, Bool.or_eq_false_iff, beq_eq_false_iff_ne] at hends
  refine ⟨not_edge_of_fragmentSet (fragmentSet_of_pathSet hpath), ?_, hat⟩
  simp [endsOrigin, isSlash, hslash, hback, hends]

theorem exists_of_encodeUser {cs user : List Char} (h : encodeUser cs = some user) :
    ∃ name password : List Char, (∀ c ∈ name, userSet c = false) ∧
      (∀ c ∈ password, userSet c = false) ∧ ¬ (name = [] ∧ password = []) ∧
      user = if password = [] then name else name ++ ':' :: password := by
  have hset : ∀ ds : List Char, ∀ c ∈ encode userSet ds, userSet c = false :=
    fun _ _ hc => not_inSet_of_mem_encode isEncodeSet_userSet hc
  refine ⟨encode userSet (cut (· == ':') cs).1, encode userSet (cut (· == ':') cs).2.tail,
    hset _, hset _, ?_, ?_⟩
  · rintro ⟨hname, hpassword⟩
    have hempty : (cut (· == ':') cs).1 = [] := by
      by_contra hne
      exact encode_ne_nil hne hname
    simp [encodeUser, hempty, hpassword] at h
  · simp only [encodeUser] at h
    split at h
    · cases h
    split at h
    · next hpassword =>
      rw [if_pos hpassword]
      exact (Option.some.inj h).symm
    · next hpassword =>
      rw [if_neg hpassword]
      exact (Option.some.inj h).symm

theorem mem_encodeUser {cs user : List Char} (h : encodeUser cs = some user) {c : Char}
    (hc : c ∈ user) : IsAuthorityChar c := by
  obtain ⟨name, password, hname, hpassword, -, rfl⟩ := exists_of_encodeUser h
  split at hc
  · exact isAuthorityChar_of_userSet (hname c hc)
  rcases List.mem_append.1 hc with hc | hc
  · exact isAuthorityChar_of_userSet (hname c hc)
  rcases List.mem_cons.1 hc with rfl | hc
  · unfold IsAuthorityChar
    decide
  · exact isAuthorityChar_of_userSet (hpassword c hc)

theorem encodeUser_encodeUser {cs user : List Char} (h : encodeUser cs = some user) :
    encodeUser user = some user := by
  obtain ⟨name, password, hname, hpassword, hne, rfl⟩ := exists_of_encodeUser h
  have hcolon : ':' ∉ name := fun hmem => absurd (hname ':' hmem) (by decide)
  split
  · next hnone =>
    have hname' : name ≠ [] := fun h => hne ⟨h, hnone⟩
    simp only [encodeUser, cut_of_not_mem hcolon, List.tail_nil, encode_of_not_inSet hname]
    simp [hname', encode]
  · next hsome =>
    simp only [encodeUser, cut_append_mark password hcolon, List.tail_cons,
      encode_of_not_inSet hname, encode_of_not_inSet hpassword]
    simp [hsome]

theorem splitUser_of_not_mem {place : List Char} (h : '@' ∉ place) :
    splitUser place = (none, place) := by
  have hreverse : '@' ∉ place.reverse := fun hmem => h (List.mem_reverse.1 hmem)
  simp only [splitUser, cut_of_not_mem hreverse]

theorem splitUser_append {place : List Char} (h : '@' ∉ place) (user : List Char) :
    splitUser (user ++ '@' :: place) = (some user, place) := by
  have hreverse : '@' ∉ place.reverse := fun hmem => h (List.mem_reverse.1 hmem)
  have hsplit : (user ++ '@' :: place).reverse = place.reverse ++ '@' :: user.reverse := by
    simp
  simp only [splitUser, hsplit, cut_append_mark user.reverse hreverse, List.reverse_reverse]

/-! ## Hosts -/

theorem host?_eq_some_iff {cs host : List Char} :
    host? cs = some host ↔ IsHost cs ∧ host = cs.map Char.toLower := by
  constructor
  · intro h
    unfold host? at h
    split at h
    · cases h
    · next inner =>
      split at h
      · next hinner =>
        rw [Bool.and_eq_true, decide_eq_true_eq, List.getLast?_eq_some_iff] at hinner
        obtain ⟨⟨front, rfl⟩, hall⟩ := hinner
        rw [List.dropLast_concat] at hall
        exact ⟨.address (List.all_eq_true.1 hall), (Option.some.inj h).symm⟩
      · cases h
    · next hne hbracket =>
      split at h
      · next hall =>
        exact ⟨.name (fun h => hne h) (List.all_eq_true.1 hall), (Option.some.inj h).symm⟩
      · cases h
  · rintro ⟨h, rfl⟩
    cases h with
    | name hne hall =>
      obtain ⟨c, rest, rfl⟩ := List.exists_cons_of_ne_nil hne
      have hbracket : c ≠ '[' := fun h => absurd (h ▸ hall c List.mem_cons_self) (by decide)
      unfold host?
      split
      · next heq => cases heq
      · next heq => exact absurd (List.cons.inj heq).1 hbracket
      · rw [if_pos (List.all_eq_true.2 hall)]
    | @address inner hall =>
      have hlast : (inner ++ [']']).getLast? = some ']' := List.getLast?_concat
      rw [host?, hlast, List.dropLast_concat, if_pos]
      rw [Bool.and_eq_true]
      exact ⟨by simp, List.all_eq_true.2 hall⟩

theorem isHostChar_spec {c : Char} (h : isHostChar c = true) : IsAuthorityChar c ∧ c ≠ ':' ∧
    isHostChar c.toLower = true ∧ c.toLower.toLower = c.toLower := by
  have hascii : c.toNat < 0x80 := by
    simp only [isHostChar, Bool.and_eq_true, decide_eq_true_eq] at h
    omega
  unfold IsAuthorityChar
  exact ascii_forall (P := fun c => isHostChar c = true →
    (isEdge c = false ∧ endsOrigin c = false ∧ c ≠ '@') ∧ c ≠ ':' ∧
      isHostChar c.toLower = true ∧ c.toLower.toLower = c.toLower) (by decide +kernel) hascii h

theorem isNumberChar_spec {c : Char} (h : isNumberChar c = true) : IsAuthorityChar c ∧ c ≠ ']' ∧
    isNumberChar c.toLower = true ∧ c.toLower.toLower = c.toLower := by
  have hle : ∀ c d : Char, c ≤ d ↔ c.toNat ≤ d.toNat := fun _ _ => Iff.rfl
  have hascii : c.toNat < 0x80 := by
    simp only [isNumberChar, Text.isHexDigit, Text.isAsciiDigit, Bool.or_eq_true, Bool.and_eq_true,
      decide_eq_true_eq, beq_iff_eq, hle] at h
    rcases h with (((h | h) | h) | rfl) | rfl
    · exact Nat.lt_of_le_of_lt h.2 (by decide)
    · exact Nat.lt_of_le_of_lt h.2 (by decide)
    · exact Nat.lt_of_le_of_lt h.2 (by decide)
    · decide
    · decide
  unfold IsAuthorityChar
  exact ascii_forall (P := fun c => isNumberChar c = true →
    (isEdge c = false ∧ endsOrigin c = false ∧ c ≠ '@') ∧ c ≠ ']' ∧
      isNumberChar c.toLower = true ∧ c.toLower.toLower = c.toLower) (by decide +kernel) hascii h

theorem IsHost.lower {cs : List Char} (h : IsHost cs) : IsHost (cs.map Char.toLower) := by
  cases h with
  | name hne hall =>
    refine .name (by simpa using hne) fun c hc => ?_
    obtain ⟨d, hd, rfl⟩ := List.mem_map.1 hc
    exact (isHostChar_spec (hall d hd)).2.2.1
  | @address inner hall =>
    have hbrackets : ('[' :: (inner ++ [']'])).map Char.toLower =
        '[' :: (inner.map Char.toLower ++ [']']) := by
      rw [List.map_cons, List.map_append]
      rfl
    rw [hbrackets]
    refine .address fun c hc => ?_
    obtain ⟨d, hd, rfl⟩ := List.mem_map.1 hc
    exact (isNumberChar_spec (hall d hd)).2.2.1

theorem IsHost.ne_nil {cs : List Char} (h : IsHost cs) : cs ≠ [] := by
  cases h with
  | name hne _ => exact hne
  | address _ => exact List.cons_ne_nil _ _

theorem IsHost.mem {cs : List Char} (h : IsHost cs) {c : Char} (hc : c ∈ cs) :
    IsAuthorityChar c ∧ c.toLower.toLower = c.toLower := by
  cases h with
  | name hne hall =>
    have hspec := isHostChar_spec (hall c hc)
    exact ⟨hspec.1, hspec.2.2.2⟩
  | address hall =>
    rcases List.mem_cons.1 hc with rfl | hc
    · unfold IsAuthorityChar
      decide
    rcases List.mem_append.1 hc with hc | hc
    · have hspec := isNumberChar_spec (hall c hc)
      exact ⟨hspec.1, hspec.2.2.2⟩
    · rw [List.mem_singleton.1 hc]
      unfold IsAuthorityChar
      decide

theorem isHostReader_host? : IsHostReader host? := by
  intro cs host h
  obtain ⟨hhost, rfl⟩ := host?_eq_some_iff.1 h
  refine ⟨hhost.lower, host?_eq_some_iff.2 ⟨hhost.lower, ?_⟩⟩
  rw [List.map_map]
  exact List.map_congr_left fun c hc => (hhost.mem hc).2.symm

theorem splitPort_append {cs : List Char} (h : IsHost cs) {port : List Char}
    (hport : ∀ c ∈ port.head?, c = ':') : splitPort (cs ++ port) = (cs, port) := by
  cases h with
  | name hne hall =>
    obtain ⟨c, rest, rfl⟩ := List.exists_cons_of_ne_nil hne
    have hbracket : c ≠ '[' := fun h => absurd (h ▸ hall c List.mem_cons_self) (by decide)
    have hcut : cut (· == ':') (c :: rest ++ port) = (c :: rest, port) :=
      cut_append (fun d hd => beq_false_of_ne (isHostChar_spec (hall d hd)).2.1)
        fun d hd => beq_iff_eq.2 (hport d hd)
    unfold splitPort
    split
    · next heq => exact absurd (List.cons.inj heq).1 hbracket
    · exact hcut
  | @address inner hall =>
    have hclose : ']' ∉ '[' :: inner := by
      rintro (_ | ⟨_, hmem⟩)
      exact (isNumberChar_spec (hall ']' hmem)).2.1 rfl
    have hcut := cut_append_mark port hclose
    have hshape : '[' :: (inner ++ [']']) ++ port = '[' :: inner ++ ']' :: port := by simp
    rw [hshape]
    simp only [splitPort, List.cons_append] at hcut ⊢
    rw [hcut]
    simp

/-! ## Ports -/

theorem port?_decimal {secure : Bool} {cs : List Char} {n : ℕ}
    (h : port? secure cs = some (some n)) :
    port? secure (Text.decimal n).toList = some (some n) := by
  have hdigits : (Text.decimal n).toList.all Text.isAsciiDigit = true :=
    List.all_eq_true.2 fun c => Text.isAsciiDigit_of_mem_decimal
  rw [port?, if_neg (Text.decimal_ne_nil n), if_pos hdigits, Text.digitsValue_decimal]
  unfold port? at h
  generalize (if secure = true then 443 else 80) = usual at h ⊢
  split at h
  · cases h
  split at h
  · dsimp only at h ⊢
    split at h
    · cases h
    next hsmall =>
    split at h
    · cases h
    next hother =>
    obtain rfl : Text.digitsValue cs = n := by simpa using h
    rw [if_neg hsmall, if_neg hother]
  · cases h

/-! ## Paths -/

theorem backslash_not_mem_slashed (cs : List Char) : '\\' ∉ slashed cs := by
  intro h
  obtain ⟨c, -, hc⟩ := List.mem_map.1 h
  split at hc
  · cases hc
  · next hne => exact hne (beq_iff_eq.2 hc)

theorem isName_of_mem_segments {cs : List Char} (hcs : '\\' ∉ cs) :
    ∀ name ∈ segments cs, IsName name := by
  refine walk_forall ⟨by simp, rfl, rfl⟩ (fun _ h => by cases h)
    fun name hname hsingle hdouble => ?_
  obtain ⟨piece, hpiece, rfl⟩ := List.mem_map.1 hname
  refine ⟨fun c hc => ⟨not_inSet_of_mem_encode isEncodeSet_pathSet hc, ?_⟩, hsingle, hdouble⟩
  have hslash : c ≠ '/' := fun h => not_mem_encode pathSet (Or.inl rfl)
    (Text.not_mem_of_mem_splitOn hpiece) (h ▸ hc)
  have hback : c ≠ '\\' := fun h => not_mem_encode pathSet (Or.inr rfl)
    (fun hmem => hcs ((Text.infix_of_mem_splitOn hpiece).subset hmem)) (h ▸ hc)
  simp [isSlash, hslash, hback]

/-! ## Written addresses -/

/-- What stands between the scheme and the path. -/
def authority (u : Url) : List Char :=
  (u.user.map (· ++ ['@'])).getD [] ++
    (u.host ++ (u.port.map fun n => ':' :: (Text.decimal n).toList).getD [])

/-- What stands behind the path. -/
def behindPath (u : Url) : List Char :=
  (u.query.map ('?' :: ·)).getD [] ++ (u.fragment.map ('#' :: ·)).getD []

theorem toList_text (u : Url) : u.text.toList =
    (if u.secure then "https://".toList else "http://".toList) ++
      (u.authority ++ '/' :: (List.intercalate ['/'] u.path ++ u.behindPath)) := by
  rw [text, String.toList_ofList, authority, behindPath, targetChars, pathText]
  simp only [List.append_assoc, List.cons_append]

theorem scheme?_text (secure : Bool) (cs : List Char) :
    scheme? ((if secure then "https://".toList else "http://".toList) ++ cs) =
      some (secure, '/' :: '/' :: cs) := by
  have hschemes : ∀ secure : Bool,
      scheme? (if secure then "https://".toList else "http://".toList) =
        some (secure, ['/', '/']) := by decide
  exact scheme?_append (hschemes secure) cs

theorem mem_part {α : Type} {part : Option α} {written : α → List Char} {c : Char}
    (h : c ∈ (part.map written).getD []) : ∃ a ∈ part, c ∈ written a := by
  cases part with
  | none => cases h
  | some a => exact ⟨a, rfl, h⟩

theorem head?_part {p : Char → Bool} {sign : Char} (hsign : p sign = true)
    {part : Option (List Char)} {c : Char} (h : c ∈ ((part.map (sign :: ·)).getD []).head?) :
    p c = true := by
  cases part with
  | none => cases h
  | some cs =>
    cases h
    exact hsign

/-- A part is read back behind its sign, if nothing of it must be encoded. -/
theorem read_part {inSet : Char → Bool} {part : Option (List Char)}
    (h : ∀ cs ∈ part, ∀ c ∈ cs, inSet c = false) (sign : Char) :
    (if (part.map (sign :: ·)).getD [] = [] then none
      else some (encode inSet ((part.map (sign :: ·)).getD []).tail)) = part := by
  cases part with
  | none => rfl
  | some cs => exact congrArg some (encode_of_not_inSet (h cs rfl))

theorem not_inSet_of_part {inSet : Char → Bool} (hset : IsEncodeSet inSet) {absent : Prop}
    [Decidable absent] {cs : List Char} :
    ∀ part ∈ (if absent then none else some (encode inSet cs)), ∀ c ∈ part, inSet c = false := by
  intro part hpart c hc
  split at hpart
  · cases hpart
  · cases hpart
    exact not_inSet_of_mem_encode hset hc

variable {hosts : HostReader} {u : Url} (h : u.IsNormal hosts)

include h

theorem mem_place {c : Char}
    (hc : c ∈ u.host ++ (u.port.map fun n => ':' :: (Text.decimal n).toList).getD []) :
    IsAuthorityChar c := by
  rcases List.mem_append.1 hc with hc | hc
  · exact (h.host.mem hc).1
  obtain ⟨n, -, hc⟩ := mem_part hc
  have hnumber : isNumberChar c = true := by
    rcases List.mem_cons.1 hc with rfl | hc
    · rfl
    · simp [isNumberChar, Text.isHexDigit, Text.isAsciiDigit_of_mem_decimal hc]
  exact (isNumberChar_spec hnumber).1

theorem mem_authority {c : Char} (hc : c ∈ u.authority) :
    isEdge c = false ∧ endsOrigin c = false := by
  rcases List.mem_append.1 hc with hc | hc
  · obtain ⟨user, huser, hc⟩ := mem_part hc
    rcases List.mem_append.1 hc with hc | hc
    · exact (mem_encodeUser (h.user user huser) hc).imp_right And.left
    · rw [List.mem_singleton.1 hc]
      decide
  · exact (mem_place h hc).imp_right And.left

theorem mem_behindPath {c : Char} (hc : c ∈ u.behindPath) : isEdge c = false := by
  rcases List.mem_append.1 hc with hc | hc
  · obtain ⟨query, hquery, hc⟩ := mem_part hc
    rcases List.mem_cons.1 hc with rfl | hc
    · rfl
    have hset := h.query query hquery c hc
    simp only [querySet, Bool.or_eq_false_iff] at hset
    exact not_edge_of_not_control hset.1.1.1.1.1.1 hset.1.1.1.1.1.2
  · obtain ⟨fragment, hfragment, hc⟩ := mem_part hc
    rcases List.mem_cons.1 hc with rfl | hc
    · rfl
    · exact not_edge_of_fragmentSet (h.fragment fragment hfragment c hc)

theorem origin?_authority :
    origin? hosts u.secure u.authority =
      some { u with path := [], query := none, fragment := none } := by
  let port := (u.port.map fun n => ':' :: (Text.decimal n).toList).getD []
  have hat : '@' ∉ u.host ++ port := fun hmem => (mem_place h hmem).2.2 rfl
  have huser : splitUser u.authority = (u.user, u.host ++ port) := by
    rw [authority]
    cases u.user with
    | none => exact splitUser_of_not_mem hat
    | some user =>
      rw [← splitUser_append hat user]
      simp [port]
  have hread : u.user.bind encodeUser = u.user := by
    cases hsome : u.user with
    | none => rfl
    | some user => exact h.user user hsome
  have hhead : ∀ c ∈ port.head?, c = ':' := by
    intro c hc
    cases hsome : u.port with
    | none => simp [port, hsome] at hc
    | some n => simpa [port, hsome, eq_comm] using hc
  have hguard : port.head?.all (· == ':') = true := by
    cases hc : port.head? with
    | none => rfl
    | some c => exact beq_iff_eq.2 (hhead c hc)
  have hport : port? u.secure port.tail = some u.port := by
    cases hsome : u.port with
    | none => simp [port, hsome, port?]
    | some n => simpa [port, hsome] using h.port n hsome
  have hplace := splitPort_append h.host hhead
  simp only [origin?, huser, hplace, guard, if_pos h.host.ne_nil, h.read, hguard, hport, hread]
  rfl

theorem complete_behindPath (v : Url) :
    complete v ('/' :: (List.intercalate ['/'] u.path ++ u.behindPath)) =
      { v with path := u.path, query := u.query, fragment := u.fragment } := by
  have hpath : cut endsPath ('/' :: List.intercalate ['/'] u.path ++ u.behindPath) =
      ('/' :: List.intercalate ['/'] u.path, u.behindPath) := by
    refine cut_append (fun c hc => ?_) fun c hc => ?_
    · rcases List.mem_cons.1 hc with rfl | hc
      · rfl
      · exact (mem_intercalate_names h.path.2 hc).2.1
    · rw [behindPath] at hc
      cases hquery : u.query with
      | some query =>
        rw [hquery] at hc
        cases hc
        rfl
      | none =>
        rw [hquery] at hc
        exact head?_part (by rfl) hc
  have hquery : cut (· == '#') u.behindPath =
      ((u.query.map ('?' :: ·)).getD [], (u.fragment.map ('#' :: ·)).getD []) := by
    refine cut_append (fun c hc => ?_) fun c hc => ?_
    · obtain ⟨query, hquery, hc⟩ := mem_part hc
      rcases List.mem_cons.1 hc with rfl | hc
      · rfl
      · have hset := h.query query hquery c hc
        simp only [querySet, Bool.or_eq_false_iff] at hset
        exact hset.1.1.1.2
    · exact head?_part (p := (· == '#')) (by rfl) hc
  have hnames : segments (slashed (List.intercalate ['/'] u.path)) = u.path :=
    walk_splitOn_intercalate h.path.2 h.path.1 []
  rw [← List.cons_append]
  simp only [complete, hpath, hquery, read_part h.query, read_part h.fragment]
  exact congrArg (fun path => { v with path, query := u.query, fragment := u.fragment }) hnames

/-- **A written address is read back.** -/
theorem parse_text : parse hosts u.text = some u := by
  have hne : u.authority ≠ [] := by
    simp [authority, h.host.ne_nil]
  have htidy : tidy u.text.toList = u.text.toList := by
    have hscheme : ∀ secure : Bool, (if secure then "https://".toList else "http://".toList).all
        (!isEdge ·) = true := by decide
    refine tidy_of_not_edge fun c hc => ?_
    rw [toList_text] at hc
    rcases List.mem_append.1 hc with hc | hc
    · simpa using List.all_eq_true.1 (hscheme u.secure) c hc
    rcases List.mem_append.1 hc with hc | hc
    · exact (mem_authority h hc).1
    rcases List.mem_cons.1 hc with rfl | hc
    · rfl
    rcases List.mem_append.1 hc with hc | hc
    · exact (mem_intercalate_names h.path.2 hc).1
    · exact mem_behindPath h hc
  generalize hrest : List.intercalate ['/'] u.path ++ u.behindPath = rest
  have hslashes : ('/' :: '/' :: (u.authority ++ '/' :: rest)).dropWhile isSlash =
      u.authority ++ '/' :: rest := by
    obtain ⟨c, cs, hcons⟩ := List.exists_cons_of_ne_nil hne
    have hc := (mem_authority h (hcons ▸ List.mem_cons_self)).2
    rw [endsOrigin, Bool.or_eq_false_iff, Bool.or_eq_false_iff] at hc
    rw [hcons, List.dropWhile_cons, if_pos (by decide), List.dropWhile_cons, if_pos (by decide),
      List.cons_append, List.dropWhile_cons, if_neg (by rw [hc.1.1]; decide)]
  have hcut : cut endsOrigin (u.authority ++ '/' :: rest) = (u.authority, '/' :: rest) :=
    cut_append (fun c hc => (mem_authority h hc).2) (by simp [endsOrigin, isSlash])
  rw [parse_eq, htidy, toList_text, hrest, scheme?_text, Option.bind_some, hslashes, hcut]
  dsimp only
  rw [origin?_authority h, Option.map_some, ← hrest, complete_behindPath h]

omit h

/-- **Every address that is read is one that can be read back.** -/
theorem isNormal_of_parse (hhosts : IsHostReader hosts) {text : String}
    (h : parse hosts text = some u) : u.IsNormal hosts := by
  rw [parse_eq] at h
  obtain ⟨⟨secure, cs⟩, -, h⟩ := Option.bind_eq_some_iff.1 h
  obtain ⟨v, horigin, rfl⟩ := Option.map_eq_some_iff.1 h
  generalize (cut endsOrigin (cs.dropWhile isSlash)).2 = rest
  simp only [origin?, Option.bind_eq_bind, Option.bind_eq_some_iff] at horigin
  obtain ⟨-, -, host, hhost, guarded, hguard, port, hport, horigin⟩ := horigin
  cases horigin
  obtain ⟨hwritten, hread⟩ := hhosts _ _ hhost
  refine ⟨fun user huser => ?_, hwritten, hread, fun n hn => ?_,
    ⟨path_complete_ne_nil _ _, ?_⟩, not_inSet_of_part isEncodeSet_querySet,
    not_inSet_of_part isEncodeSet_fragmentSet⟩
  · obtain ⟨cs, -, hcs⟩ := Option.bind_eq_some_iff.1 huser
    exact encodeUser_encodeUser hcs
  · obtain rfl : port = some n := hn
    exact port?_decimal hport
  · exact isName_of_mem_segments fun hmem =>
      backslash_not_mem_slashed _ (List.mem_of_mem_tail hmem)

theorem opened_subset (path : List (List Char)) : opened path ⊆ path := by
  intro name hname
  unfold opened at hname
  split at hname
  · exact List.dropLast_subset path hname
  · exact hname

theorem IsNormal.under (h : u.IsNormal hosts) {names : List String} (hne : names ≠ [])
    (hnames : ∀ name ∈ names, IsName name.toList) : (u.under names).IsNormal hosts where
  user := h.user
  host := h.host
  read := h.read
  port := h.port
  path := by
    refine ⟨by simp [Url.under, hne], fun name hname => ?_⟩
    rcases List.mem_append.1 hname with hname | hname
    · exact h.path.2 name (opened_subset u.path hname)
    · obtain ⟨n, hn, rfl⟩ := List.mem_map.1 hname
      exact hnames n hn
  query := h.query
  fragment := h.fragment

end ReleaseFlow.Url
