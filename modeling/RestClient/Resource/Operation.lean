import RestClient.Http.Request
import RestClient.Resource.Arguments
import RestClient.Resource.Descriptor

namespace RestClient

structure Operation where
  name : String
  basePath : String
  descriptor : Descriptor
  template : Path.Template
  deriving DecidableEq

namespace Operation

def compile (name basePath : String) (d : Descriptor) : Except DescriptorError Operation := do
  return ⟨name, basePath, d, ← d.templateAt basePath⟩

/-- The text that a URL parameter takes from the arguments; an empty one counts as missing. -/
def urlText? (a : Arguments) (name : String) : Option String :=
  ((a.value? name).bind Json.paramText?).filter (!·.isEmpty)

def urlValues (o : Operation) (a : Arguments) : Except PreconditionError (Entries String) :=
  o.descriptor.urlParams.mapM fun name =>
    match urlText? a name with
    | some text => .ok (name, text)
    | none => .error (.missingArgument o.name name)

/-- The declared query parameters that are given, in declared order. -/
def queryFields (d : Descriptor) (a : Arguments) : Entries String :=
  d.queryParams.filterMap fun name => ((a.value? name).bind Json.paramText?).map (name, ·)

/-- The listed payload parameters that are given, in declared order; without a list, every given
argument that goes neither into the path nor into the query, in the order of the arguments. -/
def bodyFields (d : Descriptor) (a : Arguments) : Entries Json :=
  match d.payloadParams with
  | some names => names.filterMap fun name => (a.value? name).map (name, ·)
  | none => a.entries.filter fun (name, value) =>
      !value.isNull && !d.urlParams.contains name && !d.queryParams.contains name

def prepare (o : Operation) (a : Arguments) : Except PreconditionError Request := do
  let d := o.descriptor
  let values ← o.urlValues a
  let path ← (o.template.render (values.lookup ·)).mapError
    fun e => .missingArgument o.name e.placeholder
  return {
    method := d.method
    path
    query := queryFields d a
    body := if d.method.carriesBody then some (bodyFields d a) else none
    bodyType := if d.method.carriesBody then some d.bodyType else none }

end Operation
end RestClient
