import ReleaseFlow.Http.Url
import ReleaseFlow.Json
import ReleaseFlow.World

/-!
# Requests and responses

* `Http.Body`: the body of a response, as text and as bytes;
* `Http.Request`, `Http.Response`: the two halves of an exchange;
* `Http.service`: exchanges as a service of flows;
* `Http.Script`, `Http.Script.host`: a server that gives prepared responses one by one;
* `Http.noServer`: no server at all.
-/

namespace ReleaseFlow.Http

/-- What a request does. -/
inductive Method where
  | get
  | post
  | patch
  deriving DecidableEq, Repr

def Method.text : Method → String
  | get => "GET"
  | post => "POST"
  | patch => "PATCH"

/-- A request; the body is a JSON value. -/
structure Request where
  method : Method
  url : Url
  /-- The headers by their names in lower case. -/
  headers : List (String × String)
  body : Option Json := none

/-- The body of a response. The text is what the content type makes of the bytes: it names the
encoding. -/
structure Body where
  text : String
  bytes : ByteArray

/-- The body that is a text in the usual encoding. -/
def Body.ofText (text : String) : Body :=
  ⟨text, text.toUTF8⟩

instance : Coe String Body :=
  ⟨Body.ofText⟩

structure Response where
  status : Nat
  body : Body := ""

def Response.isSuccess (r : Response) : Bool :=
  200 ≤ r.status && r.status < 300

/-- Exchanges with servers. -/
abbrev service : Service where
  Query := Request
  Answer _ := Response

/-- The text can be the value of a header: no control characters but tabs. -/
def isHeaderValue (text : String) : Bool :=
  text.toList.all fun c => c == '\t' || (0x20 ≤ c.toNat && c.toNat != 0x7F)

/-- A server that gives prepared responses one by one, whatever it is asked, and keeps the
requests. -/
structure Script where
  responses : List Response
  requests : List Request := []

/-- The response when none is prepared. -/
def exhausted : Response :=
  ⟨500, "\x7b\"message\":\"no response scripted\"\x7d"⟩

/-- The scripted server as a service of flows. -/
def Script.host : Host service Script := fun request script =>
  let requests := script.requests ++ [request]
  match script.responses with
  | [] => (.ok exhausted, { responses := [], requests })
  | r :: rs => (.ok r, { responses := rs, requests })

/-- No server: every exchange fails before a request is received. -/
def noServer {σ : Type} : Host service σ := fun _ s =>
  (.error (.http "no connection could be made"), s)

end ReleaseFlow.Http
