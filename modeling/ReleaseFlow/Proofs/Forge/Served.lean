import ReleaseFlow.Proofs.Forge.Records
import ReleaseFlow.Proofs.Json.Written

/-!
# What servers tell

* `Http.Response.ofJson`: a response whose body is a written document;
* `textRecord`, `PullRequest.toJson`: the records of a text and of a pull request;
* `single?_textRecord`, `sha?_textRecord`, `list?_pulls`: **records are read back**;
  `writable_textRecord`, `writable_pulls`: they can be written.
-/

namespace ReleaseFlow

/-- A response whose body is a written document. -/
def Http.Response.ofJson (status : Nat) (j : Json) : Http.Response :=
  ⟨status, .ofText (String.ofList j.write)⟩

theorem Http.Response.readBytes_ofJson {j : Json} (h : j.Writable) (status : Nat) :
    Json.readBytes (Http.Response.ofJson status j).body.bytes = some j :=
  Json.readBytes_bytes h

namespace Json

theorem list?_map {α : Type} {read? : Json → Option α} {write : α → Json}
    (h : ∀ a, read? (write a) = some a) (as : List α) :
    list? read? (.array (as.map write)) = some as := by
  have hreader : IsReader read? fun j a => read? j = some a := fun _ _ => Iff.rfl
  refine (isReader_list? hreader _ as).2 ⟨_, rfl, ?_⟩
  rw [List.forall₂_map_left_iff, List.forall₂_same]
  exact fun a _ => h a

end Json

/-! ## Records of one text -/

/-- A record of one text. -/
def textRecord (name text : String) : Json :=
  .ofMembers [(name, .ofText text)]

theorem isRecord_textRecord (name text : String) : (textRecord name text).isRecord 1 = true := rfl

theorem member?_textRecord (name text : String) (place : Nat) :
    (textRecord name text).member? name place = some (some (.ofText text)) := by
  simp [textRecord, Json.ofMembers, Json.member?]

theorem writable_textRecord (name text : String) : (textRecord name text).Writable :=
  .object (by simpa using .text text)

theorem single?_textRecord (name text : String) :
    Rest.single? Json.text? name (textRecord name text) = some text := by
  rw [Rest.single?, if_pos (isRecord_textRecord name text), Json.required, member?_textRecord]
  rfl

theorem sha?_textRecord (sha : String) : Rest.sha? (textRecord "sha" sha) = some sha := by
  rw [Rest.sha?, if_pos (isRecord_textRecord "sha" sha), Json.optional, member?_textRecord]
  rfl

theorem labelName?_textRecord (name : String) : labelName? (textRecord "name" name) = some name :=
  single?_textRecord "name" name

/-! ## Pull requests -/

/-- The record of a pull request. -/
def PullRequest.toJson (pull : PullRequest) : Json :=
  .ofMembers
    [("number", .natural pull.number.toNat), ("html_url", .ofText pull.url),
      ("labels", .array (pull.labels.map (textRecord "name")))]

theorem PullRequest.ofJson?_toJson (pull : PullRequest) :
    PullRequest.ofJson? pull.toJson = some pull := by
  have hrecord : pull.toJson.isRecord 3 = true := rfl
  have hnumber : pull.toJson.required Json.word? "number" 0 = some pull.number :=
    (Json.isReader_word? _ _).2 rfl
  have hurl : pull.toJson.required Json.text? "html_url" 1 = some pull.url := rfl
  have hlabels : pull.toJson.optional (Json.list? labelName?) [] "labels" 2 = some pull.labels :=
    Json.list?_map labelName?_textRecord pull.labels
  rw [PullRequest.ofJson?, hrecord, hnumber, hurl, hlabels]
  rfl

theorem PullRequest.writable_toJson (pull : PullRequest) : pull.toJson.Writable := by
  refine .object ?_
  simp only [List.forall_mem_cons]
  refine ⟨.natural _, .text _, .array fun v hv => ?_, by simp⟩
  obtain ⟨name, -, rfl⟩ := List.mem_map.1 hv
  exact writable_textRecord "name" name

theorem list?_pulls (pulls : List PullRequest) :
    Json.list? PullRequest.ofJson? (.array (pulls.map PullRequest.toJson)) = some pulls :=
  Json.list?_map PullRequest.ofJson?_toJson pulls

theorem writable_pulls (pulls : List PullRequest) :
    (Json.array (pulls.map PullRequest.toJson)).Writable := by
  refine .array fun v hv => ?_
  obtain ⟨pull, -, rfl⟩ := List.mem_map.1 hv
  exact pull.writable_toJson

end ReleaseFlow
