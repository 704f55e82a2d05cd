import ReleaseFlow.Forge.Service
import ReleaseFlow.Http.Exchange
import ReleaseFlow.Json.Reader

/-!
# The hosting service over HTTP

Every question is one request; the response is either an error of the service, or is decoded to
what the question asks for.

* `Rest.Endpoint`: where the service is and the token that it wants;
* `Rest.send`: one exchange;
* `Rest.answer`: the answer to a question;
* `Rest.connect`: a flow that asks questions as a flow that makes exchanges.
-/

namespace ReleaseFlow.Rest

/-- The address of the service, without slashes at its end, the token that it wants, and how the
hosts of addresses are read. -/
structure Endpoint where
  base : String
  token : String
  hosts : Url.HostReader := Url.host?

def publicAddress : String := "https://api.github.com"

/-- The name and version by which the program is known. -/
def agent : String := "release-tagger/0.1.0"

/-- The service at an address. -/
def Endpoint.of (token address : String) : Endpoint :=
  { base := String.ofList (address.toList.reverse.dropWhile (· == '/')).reverse, token }

/-- The address of a part of a repository. -/
def Endpoint.address (e : Endpoint) (r : Repository) (path : String) : String :=
  e.base ++ "/repos/" ++ r.owner ++ "/" ++ r.name ++ "/" ++ path

def Endpoint.headers (e : Endpoint) (hasBody : Bool) : List (String × String) :=
  [("accept", "application/vnd.github+json"), ("x-github-api-version", "2022-11-28"),
    ("user-agent", agent), ("authorization", "Bearer " ++ e.token)] ++
    if hasBody then [("content-type", "application/json")] else []

/-- A record with one member that must be there. -/
def single? {α : Type} (read? : Json → Option α) (name : String) (j : Json) : Option α :=
  if j.isRecord 1 then j.required read? name 0 else none

/-- The message of an error that the service reports: the one in its record, or else the whole
text. -/
def errorText (text : String) : String :=
  ((Json.read text).bind (single? Json.text? "message")).getD text

/-- One exchange. Statuses outside of 200 to 299 are failures. -/
def send (e : Endpoint) (method : Http.Method) (address : String) (body : Option Json) :
    Flow Http.service Http.Response := do
  Flow.log .debug (method.text ++ " " ++ address)
  match Url.parse e.hosts address with
  | none => Flow.failed (.http "the address is not valid")
  | some url =>
    if Http.isHeaderValue e.token then
      let response ← @Flow.ask Http.service ⟨method, url, e.headers body.isSome, body⟩
      if response.isSuccess then return response
      else Flow.failed (.api response.status (errorText response.body.text))
    else Flow.failed (.http "the token cannot be sent")

/-- The value of a response's body, read by its bytes. -/
def decode {α : Type} (read? : Json → Option α) (response : Http.Response) :
    Flow Http.service α :=
  match (Json.readBytes response.body.bytes).bind read? with
  | some a => return a
  | none => Flow.failed (.http "the response could not be decoded")

/-- The commit or object of a record, empty when it is absent. -/
def sha? (j : Json) : Option String :=
  if j.isRecord 1 then j.optional Json.text? "" "sha" 0 else none

/-- An exchange without a body. -/
def fetch {α : Type} (e : Endpoint) (address : String) (read? : Json → Option α) :
    Flow Http.service α := do
  let response ← send e .get address none
  decode read? response

/-- An exchange with a body. -/
def create {α : Type} (e : Endpoint) (address : String) (body : Json) (read? : Json → Option α) :
    Flow Http.service α := do
  let response ← send e .post address (some body)
  decode read? response

/-- The address of the runs of a workflow that were created at an instant or later. -/
def runsAddress (e : Endpoint) (r : Repository) (workflow : String) (since : Instant) :
    Option String :=
  (Url.parse e.hosts (e.address r ("actions/workflows/" ++ workflow ++ "/runs"))).map fun url =>
    (url.addParameter "created" (">=" ++ since.text)).text

/-- The answer to a question about a repository. -/
def answer (e : Endpoint) (r : Repository) : (q : Forge.Query) → Flow Http.service q.Answer
  | .pullRequests sha => do
    let pulls ← fetch e (e.address r ("commits/" ++ sha ++ "/pulls"))
      (Json.list? PullRequest.ofJson?)
    Flow.log .debug
      ("Found " ++ Text.decimal pulls.length ++ " pull requests for commit " ++ sha)
    return pulls
  | .getVariable name =>
    fetch e (e.address r ("actions/variables/" ++ name)) (single? Json.text? "value")
  | .updateVariable name value => do
    let _ ← send e .patch (e.address r ("actions/variables/" ++ name))
      (some (.ofMembers [("name", .ofText name), ("value", .ofText value)]))
    Flow.log .info ("Updated variable " ++ name ++ " to " ++ value)
  | .commitSha ref => do
    let sha ← fetch e (e.address r ("commits/" ++ ref)) sha?
    if sha = "" then Flow.failed (.missingSha ref) else return sha
  | .createTagObject tag message sha =>
    create e (e.address r "git/tags")
      (.ofMembers [("tag", .ofText tag), ("message", .ofText message), ("object", .ofText sha),
        ("type", .ofText "commit")]) sha?
  | .createRef ref sha => do
    let _ ← send e .post (e.address r "git/refs")
      (some (.ofMembers [("ref", .ofText ref), ("sha", .ofText sha)]))
  | .generateNotes request =>
    create e (e.address r "releases/generate-notes") request.toJson (single? Json.text? "body")
  | .createRelease release =>
    create e (e.address r "releases") release.toJson (single? Json.text? "html_url")
  | .dispatch workflow ref inputs => do
    let _ ← send e .post (e.address r ("actions/workflows/" ++ workflow ++ "/dispatches"))
      (some (.ofMembers [("ref", .ofText ref),
        ("inputs", .ofMembers (inputs.map fun i => (i.1, .ofText i.2)))]))
  | .runs workflow since =>
    match runsAddress e r workflow since with
    | none => Flow.failed (.http "the address is not valid")
    | some address =>
      fetch e address (single? (Json.list? WorkflowRun.ofJson?) "workflow_runs")
  | .run id =>
    fetch e (e.address r ("actions/runs/" ++ Text.decimal id.toNat)) WorkflowRun.ofJson?
  | .jobs runId =>
    fetch e (e.address r ("actions/runs/" ++ Text.decimal runId.toNat ++ "/jobs"))
      (single? (Json.list? Job.ofJson?) "jobs")
  | .logs jobId => do
    let response ← send e .get
      (e.address r ("actions/jobs/" ++ Text.decimal jobId.toNat ++ "/logs")) none
    return response.body.text

/-- A flow that asks questions as a flow that makes exchanges. -/
def connect {α : Type} (e : Endpoint) (flow : Flow Forge.service α) : Flow Http.service α :=
  flow.through fun (c : Forge.Call) => answer e c.repository c.query

end ReleaseFlow.Rest
