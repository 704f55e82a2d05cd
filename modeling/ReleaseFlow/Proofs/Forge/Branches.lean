import ReleaseFlow.Proofs.Forge.Requests
import ReleaseFlow.Proofs.Http.Continued
import ReleaseFlow.Text.Infix

/-!
# Heads of branches

The name of a branch is the end of the address that its head is looked up at, written there as it
is. So a name is read by the rules for addresses, and two names can be the same address.

* `IsBranchName`: the names that branches can have;
* `Rest.Endpoint.heads?`, `Rest.head_address`: the address that heads are looked up below;
* `Rest.lookUp`: the requests that have been made when a head has been looked up;
* `Rest.branch_targets`: **when two branches are looked up at the same address**.
-/

namespace ReleaseFlow

/-- A visible ASCII character that names of branches can have. -/
def isBranchChar (c : Char) : Bool :=
  0x20 < c.toNat && c.toNat < 0x7F && !("~^:?*[\\".toList.contains c)

/-- A name that a branch can have, made of visible ASCII characters. -/
structure IsBranchName (name : String) : Prop where
  chars : name.toList.all isBranchChar = true
  parts : ∀ part ∈ List.splitOn '/' name.toList, part ≠ [] ∧ part.head? ≠ some '.'
  dots : Text.hasInfix "..".toList name.toList = false

namespace IsBranchName

variable {name : String} (h : IsBranchName name)

include h

theorem visible {c : Char} (hc : c ∈ name.toList) : 0x20 < c.toNat ∧ c.toNat < 0x7F := by
  have hchar := List.all_eq_true.1 h.chars c hc
  rw [isBranchChar, Bool.and_eq_true, Bool.and_eq_true] at hchar
  exact ⟨of_decide_eq_true hchar.1.1, of_decide_eq_true hchar.1.2⟩

theorem not_mem {c : Char} (hc : isBranchChar c = false) : c ∉ name.toList := fun hmem => by
  rw [List.all_eq_true.1 h.chars c hmem] at hc
  cases hc

theorem not_edge {c : Char} (hc : c ∈ name.toList) : Url.isEdge c = false := by
  rw [Url.isEdge, decide_eq_false_iff_not]
  have hlow := (h.visible hc).1
  omega

theorem isLevel : Url.IsLevel name.toList :=
  ⟨h.not_mem (by decide), h.not_mem (by decide)⟩

theorem isLiteral (hhash : '#' ∉ name.toList) (hpercent : '%' ∉ name.toList) :
    Url.IsLiteral name.toList where
  unread _ hc := ⟨Nat.lt_succ_of_lt (h.visible hc).2, fun heq => hpercent (heq ▸ hc)⟩
  hash := hhash
  parts := h.parts

end IsBranchName

namespace Rest

variable (e : Endpoint) (r : Repository)

/-- The address that the heads of branches are looked up below, if requests can be sent there. -/
def Endpoint.heads? : Option Url :=
  if Http.isHeaderValue e.token then Url.parse e.hosts (e.address r "commits/heads") else none

/-- The requests that have been made when the head of a branch has been looked up. -/
def lookUp (name : String) (script : Http.Script) (w : World) : List Http.Request :=
  ((answer e r (.commitSha (branchRef name))).run Http.Script.host script w).2.1.requests

theorem head_text (name : String) : (e.address r ("commits/" ++ branchRef name)).toList =
    (e.address r "commits/heads").toList ++ '/' :: name.toList := by
  have hheads : "heads/".toList = "heads".toList ++ ['/'] := by decide
  have hcommits : "commits/heads".toList = "commits/".toList ++ "heads".toList := by decide
  simp only [Endpoint.address, branchRef, String.toList_append, hheads, hcommits,
    List.append_assoc, List.singleton_append]

theorem head_address : ∃ o : Option (Url × List Char),
    Url.parse e.hosts (e.address r "commits/heads") = o.map (fun p => p.1.complete p.2) ∧
      (∀ p ∈ o, (∀ c ∈ p.2.head?, Url.endsOrigin c = true) ∧
        ∀ c ∈ p.2.getLast?, Url.isSlash c = false) ∧
      ∀ {name : String}, IsBranchName name →
        Url.parse e.hosts (e.address r ("commits/" ++ branchRef name)) =
          o.map fun p => p.1.complete (p.2 ++ '/' :: name.toList) := by
  have hlast : (e.address r "commits/heads").toList.getLast? = some 's' := by
    have hheads : "commits/heads".toList.getLast? = some 's' := by decide
    rw [Endpoint.address, String.toList_append, List.getLast?_append, hheads]
    rfl
  have hne : ∀ s, Url.scheme? (Url.tidy (e.address r "commits/heads").toList) = some s →
      s.2.dropWhile Url.isSlash ≠ [] := fun s hs =>
    Url.dropWhile_ne_nil_of_scheme? hs (Url.getLast?_tidy hlast (by decide)) (by decide)
      (by decide)
  obtain ⟨o, hparse, hends, htexts⟩ := Url.parse_continued hlast (by decide) (by decide) hne
  exact ⟨o, hparse, hends, fun h => htexts _ (fun c hc => h.not_edge hc) _ (head_text e r _)⟩

variable {e r}

/-- Looking up the head of a branch is one request, if there is an address for it. -/
theorem lookUp_eq {name : String} {url : Url} (htoken : Http.isHeaderValue e.token = true)
    (hurl : Url.parse e.hosts (e.address r ("commits/" ++ branchRef name)) = some url)
    (script : Http.Script) (w : World) :
    lookUp e r name script w = script.requests ++ [⟨.get, url, e.headers false, none⟩] := by
  have hrequest : request? e r (.commitSha (branchRef name)) =
      some ⟨.get, url, e.headers false, none⟩ := by
    rw [request?, requestTo?, hurl]
    rfl
  obtain ⟨w', -, hrun⟩ : ∃ w', w.Quiet w' ∧
      (answer e r (.commitSha (branchRef name))).run Http.Script.host script w = _ :=
    answer_run r (.commitSha (branchRef name)) script w
  rw [lookUp, hrun, relay_script hrequest htoken]
  rfl

/-- Without an address that heads are looked up below, nothing is sent. -/
theorem lookUp_of_none {name : String} (hname : IsBranchName name) (h : e.heads? r = none)
    (script : Http.Script) (w : World) : lookUp e r name script w = script.requests := by
  obtain ⟨w', -, hrun⟩ : ∃ w', w.Quiet w' ∧
      (answer e r (.commitSha (branchRef name))).run Http.Script.host script w = _ :=
    answer_run r (.commitSha (branchRef name)) script w
  rw [lookUp, hrun]
  by_cases htoken : Http.isHeaderValue e.token = true
  · obtain ⟨o, hparse, -, hnames⟩ := head_address e r
    rw [Endpoint.heads?, if_pos htoken, hparse] at h
    obtain rfl := Option.map_eq_none_iff.1 h
    have hrequest : request? e r (.commitSha (branchRef name)) = none := by
      rw [request?, requestTo?, hnames hname]
      rfl
    rw [relay_eq, hrequest]
    rfl
  · obtain ⟨failure, hrelay⟩ := relay_unsent Http.Script.host htoken
      (.commitSha (branchRef name)) script (r := r)
    rw [hrelay]

/-- **When two branches are looked up at the same address.** Each is one request, if requests can be
sent at all. Their addresses are the same exactly if the names are the same by the rules for
addresses, which end at a number sign and read percent signs. Names without either are the same
only if they are equal, unless the service's own address ends in a fragment. -/
theorem branch_targets (e : Endpoint) (r : Repository) {n m : String} (hn : IsBranchName n)
    (hm : IsBranchName m) :
    (e.heads? r = none → ∀ script w,
      lookUp e r n script w = script.requests ∧ lookUp e r m script w = script.requests) ∧
    ∀ root, e.heads? r = some root → ∃ u v : Url,
      (∀ script w,
        lookUp e r n script w = script.requests ++ [⟨.get, u, e.headers false, none⟩] ∧
        lookUp e r m script w = script.requests ++ [⟨.get, v, e.headers false, none⟩]) ∧
      (u.target = v.target ↔ root.SameBelow n.toList m.toList) ∧
      (('#' ∉ n.toList ∧ '%' ∉ n.toList) → ('#' ∉ m.toList ∧ '%' ∉ m.toList) →
        (u.target = v.target ↔ root.fragment.isSome ∨ n = m)) := by
  refine ⟨fun h script w => ⟨lookUp_of_none hn h script w, lookUp_of_none hm h script w⟩,
    fun root h => ?_⟩
  have htoken : Http.isHeaderValue e.token = true := by
    by_contra htoken
    rw [Endpoint.heads?, if_neg htoken] at h
    cases h
  obtain ⟨o, hparse, hends, hnames⟩ := head_address e r
  rw [Endpoint.heads?, if_pos htoken, hparse] at h
  obtain ⟨⟨u, cs⟩, rfl, rfl⟩ := Option.map_eq_some_iff.1 h
  obtain ⟨hhead, hlast⟩ := hends _ rfl
  have hsame := Url.target_eq_iff (u := u) hhead hlast hn.isLevel hm.isLevel
  refine ⟨_, _, fun script w => ⟨lookUp_eq htoken (hnames hn) script w,
    lookUp_eq htoken (hnames hm) script w⟩, hsame, fun hn' hm' => ?_⟩
  rw [hsame, Url.sameBelow_iff_eq _ (hn.isLiteral hn'.1 hn'.2) (hm.isLiteral hm'.1 hm'.2),
    String.toList_inj]

/-- Two branches whose heads are looked up at the same address, and two that are not. -/
theorem branch_targets_release :
    let e : Endpoint := ⟨"http://server", "test-token", Url.host?⟩
    let r : Repository := ⟨"acme", "notify-api"⟩
    (∃ u v : Url, (∀ script w,
        lookUp e r "release#1" script w = script.requests ++ [⟨.get, u, e.headers false, none⟩] ∧
        lookUp e r "release#2" script w = script.requests ++ [⟨.get, v, e.headers false, none⟩]) ∧
      u.target = v.target) ∧
    ∃ u v : Url, (∀ script w,
        lookUp e r "release/1" script w = script.requests ++ [⟨.get, u, e.headers false, none⟩] ∧
        lookUp e r "release/2" script w = script.requests ++ [⟨.get, v, e.headers false, none⟩]) ∧
      u.target ≠ v.target := by
  intro e r
  have hroot : e.heads? r = some { secure := false, host := "server".toList, path :=
      ["repos".toList, "acme".toList, "notify-api".toList, "commits".toList, "heads".toList] } := by
    have htoken : Http.isHeaderValue e.token = true := by decide
    have htext : e.address r "commits/heads" =
      "http://server/repos/acme/notify-api/commits/heads" := by decide +kernel
    rw [Endpoint.heads?, if_pos htoken, htext]
    decide +kernel
  have hone : IsBranchName "release#1" := ⟨by decide, by decide, by decide⟩
  have htwo : IsBranchName "release#2" := ⟨by decide, by decide, by decide⟩
  have hone' : IsBranchName "release/1" := ⟨by decide, by decide, by decide⟩
  have htwo' : IsBranchName "release/2" := ⟨by decide, by decide, by decide⟩
  obtain ⟨u, v, hsent, hsame, -⟩ := (branch_targets e r hone htwo).2 _ hroot
  obtain ⟨u', v', hsent', -, hplain⟩ := (branch_targets e r hone' htwo').2 _ hroot
  have hcut : Url.names "release#1".toList = Url.names "release#2".toList := by decide +kernel
  refine ⟨⟨u, v, hsent, hsame.2 (congrArg _ hcut)⟩, u', v', hsent', fun h => ?_⟩
  rcases (hplain (by decide) (by decide)).1 h with h | h
  · cases h
  · exact absurd h (by decide)

end Rest

end ReleaseFlow
