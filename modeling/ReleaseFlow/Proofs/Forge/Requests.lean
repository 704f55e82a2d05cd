import ReleaseFlow.Proofs.Forge.Relay
import ReleaseFlow.Proofs.Http.Under

/-!
# Requests about parts of a repository

* `Rest.Endpoint.Usable`, `Rest.Endpoint.Usable.request`: where requests can be sent to, whatever
  they are about;
* `Rest.partNames`, `Rest.address_text`: the address of a part of a repository, as names;
* `Rest.requestTo?_under`: **a request for a part with plain names goes to the address below the
  service's own**.
-/

namespace ReleaseFlow.Rest

variable {e : Endpoint} {r : Repository} {root : Url}

/-- Requests can be sent to the service: what stands behind its address and a slash is part of an
address, and the token can be sent. -/
structure Endpoint.Usable (e : Endpoint) : Prop where
  address : (Url.parse e.hosts (e.base ++ "/")).isSome = true
  token : Http.isHeaderValue e.token = true

theorem Endpoint.Usable.request (h : e.Usable) (r : Repository) (method : Http.Method)
    (path : String) (body : Option Json) : ∃ url, Url.parse e.hosts (e.address r path) = some url ∧
      requestTo? e method (e.address r path) body =
        some ⟨method, url, e.headers body.isSome, body⟩ := by
  have htext : (e.address r path).toList = e.base.toList ++ '/' ::
      ("repos/" ++ r.owner ++ "/" ++ r.name ++ "/" ++ path).toList := by
    have hrepos : "/repos/".toList = '/' :: "repos/".toList := by decide
    simp only [Endpoint.address, String.toList_append, hrepos, List.append_assoc, List.cons_append]
  obtain ⟨url, hurl⟩ := Option.isSome_iff_exists.1 (Url.isSome_parse_append h.address htext)
  exact ⟨url, hurl, by rw [requestTo?, hurl, Option.map_some]⟩

/-- The names below the address of the service that lead to a part of a repository. -/
def partNames (r : Repository) (names : List String) : List String :=
  "repos" :: r.owner :: r.name :: names

theorem address_text {names : List String} (hne : names ≠ []) {path : String}
    (hpath : path.toList = List.intercalate ['/'] (names.map String.toList)) :
    (e.address r path).toList =
      e.base.toList ++ '/' :: List.intercalate ['/'] ((partNames r names).map String.toList) := by
  obtain ⟨name, names, rfl⟩ := List.exists_cons_of_ne_nil hne
  have hrepos : "/repos/".toList = '/' :: ("repos".toList ++ ['/']) := by decide
  have hslash : "/".toList = ['/'] := by decide
  simp only [Endpoint.address, String.toList_append, hpath, hrepos, hslash, partNames,
    List.map_cons, List.intercalate_cons_cons, List.append_assoc, List.cons_append, List.nil_append]

/-- The request for a part of a repository whose names are plain. -/
theorem requestTo?_under (hbase : Url.IsBase e.hosts e.base root)
    (howner : r.owner.toList.all Url.isPlain = true) (hname : r.name.toList.all Url.isPlain = true)
    {names : List String} (hne : names ≠ [])
    (hplain : ∀ name ∈ names, name.toList.all Url.isPlain = true) {path : String}
    (hpath : path.toList = List.intercalate ['/'] (names.map String.toList)) (method : Http.Method)
    (body : Option Json) : requestTo? e method (e.address r path) body =
      some ⟨method, root.under (partNames r names), e.headers body.isSome, body⟩ := by
  have hall : ∀ name ∈ partNames r names, name.toList.all Url.isPlain = true := by
    intro name hmem
    rcases List.mem_cons.1 hmem with rfl | hmem
    · decide
    rcases List.mem_cons.1 hmem with rfl | hmem
    · exact howner
    rcases List.mem_cons.1 hmem with rfl | hmem
    · exact hname
    · exact hplain name hmem
  rw [requestTo?, Url.parse_under hbase (List.cons_ne_nil _ _)
    (fun name hname => (Url.isDotted_of_plain (hall name hname)).isName) (address_text hne hpath)]
  rfl

end ReleaseFlow.Rest
