import ProxyFleet.Json.Decode
import ProxyFleet.Json.Reader
import ProxyFleet.Text.Letters
import ProxyFleet.Text.Percent

/-!
# Requests to the service and its responses

* `ApiRequest.segments`, `ApiRequest.query?`, `ApiRequest.header?` : the parts of a request;
* `ApiRequest.readBody` : the typed document that a request brings, or the status with which it is
  turned away: 415 if it brings no document, 400 if that is malformed, 422 if it is of another type;
* `ApiResponse` : a status, further headers, and a body.
-/

namespace ProxyFleet

set_option autoImplicit false

/-- A request to the service. -/
structure ApiRequest where
  method : String
  /-- Path and query. -/
  target : String
  headers : List (String × String) := []
  body : String := ""

/-- What a response holds. -/
inductive ApiBody where
  | empty
  | json (v : Json)
  | text (contentType content : String)
  /-- There would be content of this type, but only the head of the response was asked for. -/
  | omitted (contentType : String)

/-- A response of the service. -/
structure ApiResponse where
  status : Nat
  body : ApiBody := .empty
  headers : List (String × String) := []

namespace ApiRequest

/-! ## Path, query and headers -/

/-- The target without a fragment, before and behind its question mark. -/
def pathAndQuery (r : ApiRequest) : List Char × List Char :=
  let target := r.target.toList.takeWhile (· ≠ '#')
  (target.takeWhile (· ≠ '?'), (target.dropWhile (· ≠ '?')).drop 1)

/-- The segments of the path as they are written. -/
def segments (r : ApiRequest) : List String :=
  ((Text.splitChars '/' r.pathAndQuery.1).drop 1).map String.ofList

/-- A name or value of a query: a plus is a blank. A text whose bytes are none becomes the
replacement character. -/
def formText (cs : List Char) : String :=
  (Text.percentDecode? (String.ofList (cs.map fun c => if c = '+' then ' ' else c))).getD "\uFFFD"

/-- The names and values of the query, in order. -/
def query (r : ApiRequest) : List (String × String) :=
  ((Text.splitChars '&' r.pathAndQuery.2).filter (!·.isEmpty)).map fun piece =>
    match Text.splitOnce? '=' piece with
    | some (name, value) => (formText name, formText value)
    | none => (formText piece, "")

/-- The value of a name in the query, which may be there only once. -/
def query? (r : ApiRequest) (name : String) : Except ApiResponse (Option String) :=
  match r.query.filter (·.1 == name) with
  | [] => .ok none
  | [(_, value)] => .ok (some value)
  | _ => .error { status := 400 }

/-- The first value of a header. -/
def header? (r : ApiRequest) (name : String) : Option String :=
  (r.headers.find? fun (n, _) => Text.lower n == name).map (·.2)

/-! ## Body -/

/-- A media type of JSON documents, whatever its parameters. -/
def isJsonType (s : String) : Bool :=
  let essence := Text.lower (String.ofList ((s.toList.takeWhile (· ≠ ';')).filter (· ≠ ' ')))
  match Text.split '/' essence with
  | ["application", kind] => kind == "json" || kind.endsWith "+json"
  | _ => false

/-- The status for a malformed text: a field in front of the fault may be of another type. -/
def malformedStatus {α : Type} (d : Decoder α) (cs : List Char) : Nat :=
  match cs with
  | '{' :: rest =>
    match d (.obj (Json.completeFields rest.length rest)) with
    | .ok _ => 400
    | .error (.missingField _) => 400
    | .error _ => 422
  | _ => 400

/-- The typed document that a request brings. -/
def readBody {α : Type} (r : ApiRequest) (d : Decoder α) : Except ApiResponse α :=
  let turnedAway (status : Nat) : Except ApiResponse α := .error { status }
  if !(r.header? "content-type").any isJsonType then turnedAway 415
  else
    let cs := Json.skipBlank r.body.toList
    match Json.readValue? Json.maxDepth cs with
    | none => turnedAway (malformedStatus d cs)
    | some (v, rest) =>
      match d v with
      | .error (.wrongLength _ expected) => turnedAway (if expected = Fields.tooMany then 400 else 422)
      | .error _ => turnedAway 422
      | .ok a => if Json.skipBlank rest = [] then .ok a else turnedAway 400

end ApiRequest

namespace ApiResponse

/-- A document. -/
def json (v : Json) (status : Nat) : ApiResponse := { status, body := .json v }

/-- The document of an error. -/
def error (status : Nat) (message : String) : ApiResponse :=
  json (.obj [("error", .str message)]) status

/-- The media type of the body. -/
def contentType? (r : ApiResponse) : Option String :=
  match r.body with
  | .empty => none
  | .json _ => some "application/json"
  | .text contentType _ => some contentType
  | .omitted contentType => some contentType

/-- The head of a response: what the body would be of stays, its content does not. -/
def withoutBody (r : ApiResponse) : ApiResponse :=
  { r with body := (r.contentType?.map ApiBody.omitted).getD .empty }

end ApiResponse

end ProxyFleet
