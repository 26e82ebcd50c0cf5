import RestClient.Http.Method
import RestClient.Path.Template

namespace RestClient

inductive ParamKind where
  | url
  | query
  | payload
  deriving DecidableEq

def ParamKind.name : ParamKind → String
  | .url => "url"
  | .query => "query"
  | .payload => "payload"

inductive DescriptorError where
  | malformedTemplate (e : Path.Malformed)
  | unboundPlaceholder (placeholder template : String)
  | unusedUrlParam (name template : String)
  | parameterCollision (name : String) (first second : ParamKind)
  | duplicateParameter (name : String) (kind : ParamKind)
  deriving DecidableEq

def DescriptorError.message : DescriptorError → String
  | .malformedTemplate e => s!"Malformed path template: {e.message}"
  | .unboundPlaceholder placeholder template =>
    s!"Placeholder '{Path.slot placeholder}' in '{template}' is not a declared URL parameter"
  | .unusedUrlParam name template => s!"URL parameter '{name}' has no placeholder in '{template}'"
  | .parameterCollision name first second =>
    s!"Parameter '{name}' is declared as both a {first.name} and a {second.name} parameter"
  | .duplicateParameter name kind =>
    s!"Parameter '{name}' is declared twice as a {kind.name} parameter"

/-- How an operation is called: its method, its path below the resource, and which arguments go into
the path, the query and the body. -/
structure Descriptor where
  method : Method
  path : Option String := none
  urlParams : List String := []
  queryParams : List String := []
  payloadParams : Option (List String) := none
  bodyType : BodyType := .form
  deriving DecidableEq

/-- The first name that also stands earlier; `seen` is what stands before. -/
def firstRepeat? (seen : List String) : List String → Option String
  | [] => none
  | name :: names =>
    if seen.contains name then some name else firstRepeat? (name :: seen) names

namespace Descriptor

def payload (d : Descriptor) : List String := d.payloadParams.getD []

def params (d : Descriptor) : ParamKind → List String
  | .url => d.urlParams
  | .query => d.queryParams
  | .payload => d.payload

def checkUnique (d : Descriptor) (kind : ParamKind) : Except DescriptorError Unit :=
  match firstRepeat? [] (d.params kind) with
  | some name => .error (.duplicateParameter name kind)
  | none => .ok ()

def checkDisjoint (d : Descriptor) (first second : ParamKind) : Except DescriptorError Unit :=
  match (d.params first).find? (d.params second).contains with
  | some name => .error (.parameterCollision name first second)
  | none => .ok ()

/-- The URL parameters and the placeholders of the template are the same names. -/
def checkBound (d : Descriptor) (t : Path.Template) (text : String) : Except DescriptorError Unit :=
  match t.placeholders.find? (!d.urlParams.contains ·) with
  | some placeholder => .error (.unboundPlaceholder placeholder text)
  | none => match d.urlParams.find? (!t.placeholders.contains ·) with
    | some name => .error (.unusedUrlParam name text)
    | none => .ok ()

/-- The template of the whole path below `basePath`, if the descriptor is sound there. -/
def templateAt (d : Descriptor) (basePath : String) : Except DescriptorError Path.Template := do
  d.checkUnique .url
  d.checkUnique .query
  d.checkUnique .payload
  d.checkDisjoint .url .query
  d.checkDisjoint .url .payload
  d.checkDisjoint .query .payload
  let text := Path.join basePath (d.path.getD "")
  let template ← (Path.Template.parse text).mapError .malformedTemplate
  d.checkBound template text
  return template

def validate (d : Descriptor) : Except DescriptorError Unit := do
  let _ ← d.templateAt "/"

end Descriptor
end RestClient
