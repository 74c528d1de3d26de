import Catalog.Failure
import Catalog.Text.Blank
import Catalog.Text.LetterCase
import Catalog.Value.Depth
import Catalog.Value.Finite
import Catalog.Value.JsonReader

/-!
# Requests and answers

A request as it comes over the wire, and the answer to it: a status and a value, which may be
missing. A request that fails is answered by an *envelope* that names what went wrong.

Answers hold finite numbers only. In documents null takes the place of any other number, but an
envelope with one is not sent: the request has failed in a way that no rule covers.
-/

namespace Catalog.Http

open Text

/-- A request. -/
structure Request where
  /-- The method. -/
  method : String
  /-- What it is aimed at: a path and a query string. -/
  target : String
  /-- The headers: names and texts. -/
  headers : List (String × String) := []
  /-- The octets of the body; there are none without a body. -/
  body : List UInt8 := []

/-- The text of a header; case does not count in its name. -/
def Request.header? (r : Request) (name : String) : Option String :=
  (r.headers.find? fun h => lower h.1 == lower name).map Prod.snd

/-- An answer. -/
structure Answer where
  /-- The status. -/
  status : Nat
  /-- The value, if there is one. -/
  body : Option Value

/-- Why a request is not answered with what it asks for. -/
inductive Problem where
  /-- The path stands for nothing. -/
  | unknownPath
  /-- The path stands for something without the slashes at its end. -/
  | movedPath
  /-- The path stands for something, but not with this method. -/
  | wrongMethod
  /-- The body is no text, or holds what is not read at all. -/
  | unreadableBody
  /-- The body is no JSON. -/
  | malformedBody
  /-- The body is missing. -/
  | missingBody
  /-- The body is no object. -/
  | bodyNotObject
  /-- The catalogue refuses it, or it meets something that no rule covers. -/
  | failed (f : Failure)

/-- A detail of an envelope as a value. -/
def detailValue (d : Detail) : Value :=
  .object [("code", .text d.code), ("message", .text d.message), ("info", .object d.info)]

/-- The envelope of what went wrong. -/
def envelope (status : Nat) (name code message : String) (details : List Detail) : Answer :=
  let facts : Document :=
    [("statusCode", .int status), ("name", .text name), ("message", .text message),
      ("code", .text code), ("status", .int status)]
  let facts :=
    if details.isEmpty then facts else facts.put "details" (.array (details.map detailValue))
  { status, body := some (.object [("error", .object facts)]) }

/-- The envelope of a body that is not as it should be. -/
def invalidBody (message : String) : Answer :=
  let detail : Detail :=
    { code := "VALIDATION-FAILED", message, info := [("location", .array [.text "body"])] }
  envelope 422 "ValidationError" "VALIDATION-FAILED" "The request is not valid." [detail]

/-- The answer to a request that met something no rule covers. -/
def serverError : Answer :=
  envelope 500 "InternalServerError" "INTERNAL-SERVER-ERROR" "Internal server error." []

/-- The answer that tells a problem. -/
def Problem.told : Problem → Answer
  | .unknownPath => envelope 404 "NotFoundError" "HTTP-ERROR" "Not Found" []
  | .movedPath => { status := 307, body := none }
  | .wrongMethod => envelope 405 "HttpError" "HTTP-ERROR" "Method Not Allowed" []
  | .unreadableBody =>
    envelope 400 "HttpError" "HTTP-ERROR" "There was an error parsing the body" []
  | .malformedBody =>
    envelope 400 "BadRequestError" "MALFORMED-REQUEST-BODY" "Request body is not valid JSON." []
  | .missingBody => invalidBody "Field required"
  | .bodyNotObject => invalidBody "Input should be a valid dictionary"
  | .failed (.refused r) => envelope r.status r.name r.code r.message r.details
  | .failed (.broken _) => serverError

/-- The answer to a request that fails: the one that tells the problem, if it can be sent. -/
def Problem.answer (p : Problem) : Answer :=
  if (Value.orNull p.told.body).isFinite then p.told else serverError

/-! ## Documents -/

/-- How deep the value of a member may be in an answer. -/
def maxMemberDepth : Nat := 255

/-- A document as the value of an answer. -/
def documentValue (doc : Document) : Except Fault Value :=
  if doc.all fun m => decide (m.2.depth ≤ maxMemberDepth) then .ok (Value.object doc).onlyFinite
  else .error .tooDeep

/-- The answer with a value. -/
def value (v : Value) : Answer := { status := 200, body := some v }

/-- The answer with a document. -/
def document (doc : Document) : Except Fault Answer := do return value (← documentValue doc)

/-- The answer with documents. -/
def documents (docs : List Document) : Except Fault Answer := do
  return value (.array (← docs.mapM documentValue))

/-- The answer with a number of records. -/
def number (n : Nat) : Answer := value (.object [("count", .int n)])

/-- The answer without a value. -/
def done : Answer := { status := 204, body := none }

/-! ## Bodies -/

/-- Whether a content type is that of JSON. -/
def isJsonType (contentType : String) : Bool :=
  let kind := lower (trim (String.ofList (contentType.toList.takeWhile (· ≠ ';'))))
  match splitOn '/' kind with
  | [main, sub] => main == "application" && (sub == "json" || "+json".toList.isSuffixOf sub.toList)
  | _ => false

/-- What a body is, before it is known to be an object. -/
inductive BodyContent where
  /-- There is none. -/
  | missing
  /-- It is JSON. -/
  | json (v : Value)
  /-- It is something else. -/
  | other

/-- What the body of a request is. It is read as JSON only if its content type says so. -/
def Request.content (r : Request) : Except Problem BodyContent :=
  if r.body.isEmpty then .ok .missing
  else if isJsonType ((r.header? "content-type").getD "") then
    match (readOctets? r.body).map Json.read with
    | some (.ok v) => .ok (.json v)
    | some (.error .malformed) => .error .malformedBody
    | some (.error _) | none => .error .unreadableBody
  else .ok .other

/-- The object that a body is. -/
def BodyContent.object : BodyContent → Except Problem Document
  | .missing => .error .missingBody
  | .json (.object members) => .ok members
  | _ => .error .bodyNotObject

end Catalog.Http
