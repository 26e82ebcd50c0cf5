import RestClient.Json.Parser
import RestClient.Json.Printer
import RestClient.Text.Basic
import RestClient.Text.Lowercase

namespace RestClient

structure Response where
  code : Nat
  headers : Entries (List String)
  body : Json

namespace Response

/-- A blank text is an empty object, and a text that is not JSON is wrapped in one. -/
def parseBody (text : String) : Json :=
  if (Text.trim text).isEmpty then .emptyObject
  else (Json.parse? text).getD (.object [("raw_body", .string text)])

def isOk (r : Response) : Bool := 200 ≤ r.code && r.code ≤ 299

/-- The first value under the lower-cased name. -/
def header? (r : Response) (name : String) : Option String :=
  (r.headers.lookup (Text.lowercase name)).bind List.head?

def requestId? (r : Response) : Option String := r.header? "x-request-id"

structure Rejection where
  code : Nat
  message : String
  body : Json
  reference : Option String

/-- The fields of a body that describe an error, in the order in which they are quoted. -/
def errorKeys : List String := ["errors", "error", "error_description", "message"]

def referenceText (id : String) : String :=
  s!"If you report this error, please include this id: {id}."

/-- What a failed response says: its error fields and the request's id, or the whole body where
there is no such field. -/
def errorText (r : Response) : String :=
  match errorKeys.filterMap fun key => (r.body.get? key).map (key, ·) with
  | [] => r.body.text
  | fields =>
    let reference := r.requestId?.toList.map fun id =>
      ("error_reference", Json.string (referenceText id))
    (Json.object (fields ++ reference)).text

/-- The response itself when it is a success, which its status tells. -/
def accept (r : Response) : Except Rejection Response :=
  if r.isOk then .ok r else .error ⟨r.code, r.errorText, r.body, r.requestId?⟩

end Response

def Response.Rejection.display (e : Response.Rejection) : String :=
  s!"HTTP {e.code}: {e.message}"

end RestClient
