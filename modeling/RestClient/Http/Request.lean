import RestClient.Encoding
import RestClient.Http.Method
import RestClient.Json.Printer

namespace RestClient

inductive RequestError where
  | missingBodyType
  | bodyNotAllowed (method : Method)
  deriving DecidableEq

def RequestError.message : RequestError → String
  | .missingBodyType => "Cannot set a body without also setting body_type."
  | .bodyNotAllowed method => s!"Cannot send a body with {method.name}."

structure Request where
  method : Method
  path : String
  query : Entries String := []
  body : Option (Entries Json) := none
  bodyType : Option BodyType := none
  headers : Option (Entries String) := none

namespace Request

def verify (r : Request) : Except RequestError Unit :=
  match r.body with
  | none => .ok ()
  | some _ =>
    if r.bodyType = none then .error .missingBodyType
    else if r.method.carriesBody then .ok ()
    else .error (.bodyNotAllowed r.method)

def queryString (r : Request) : String := Encoding.queryText r.query

def pathAndQuery (r : Request) : String :=
  if r.query.isEmpty then r.path else r.path ++ "?" ++ r.queryString

/-- The fields of the body as texts; null has none. -/
def formFields (r : Request) : Entries String :=
  (r.body.getD []).filterMap fun (key, value) => value.paramText?.map (key, ·)

def jsonBody (r : Request) : Json := .object (Entries.ofPairs (r.body.getD []))

/-- One change to a request that is being drafted. -/
inductive Edit where
  | body (fields : Entries Json)
  | bodyParam (key : String) (value : Json)
  | bodyType (type : BodyType)
  | query (fields : Entries String)
  | queryParam (key value : String)
  | header (key value : String)

def apply (r : Request) : Edit → Request
  | .body fields => { r with body := some fields }
  | .bodyParam key value => { r with body := some (r.body.getD [] ++ [(key, value)]) }
  | .bodyType type => { r with bodyType := some type }
  | .query fields => { r with query := fields }
  | .queryParam key value => { r with query := r.query ++ [(key, value)] }
  | .header key value => { r with headers := some (Entries.insert (r.headers.getD []) key value) }

/-- The request after all edits, if it is a legal one. -/
def build (method : Method) (path : String) (edits : List Edit) : Except RequestError Request := do
  let r := edits.foldl apply { method, path }
  r.verify
  return r

end Request
end RestClient
