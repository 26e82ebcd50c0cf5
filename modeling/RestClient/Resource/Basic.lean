import RestClient.Resource.Operation

namespace RestClient

inductive ResourceError where
  | emptyBasePath
  | duplicateMethod (name basePath : String)
  | emptyMethodName (basePath : String)
  | unknownBasicMethod (name : String)
  | invalidDescriptor (method : String) (source : DescriptorError)
  deriving DecidableEq

def ResourceError.message : ResourceError → String
  | .emptyBasePath => "Resource base path cannot be empty"
  | .duplicateMethod name basePath => s!"Operation '{name}' is defined more than once on {basePath}"
  | .emptyMethodName basePath => s!"Operation names cannot be empty ({basePath})"
  | .unknownBasicMethod name =>
    s!"Unknown basic method '{name}'. Expected one of: list, retrieve, create, update, del"
  | .invalidDescriptor method source => s!"Invalid descriptor for '{method}': {source.message}"

/-- The parameters with which lists are filtered, paged and sorted. -/
def listQueryParams : List String := ["states", "per_page", "page", "sort", "order"]

/-- The operations that most resources share. -/
inductive BasicMethod where
  | list
  | retrieve
  | create
  | update
  | del
  deriving DecidableEq

namespace BasicMethod

def all : List BasicMethod := [.list, .retrieve, .create, .update, .del]

def name : BasicMethod → String
  | .list => "list"
  | .retrieve => "retrieve"
  | .create => "create"
  | .update => "update"
  | .del => "del"

def ofName (s : String) : Except ResourceError BasicMethod :=
  match all.find? (·.name == s) with
  | some m => .ok m
  | none => .error (.unknownBasicMethod s)

def onItem (method : Method) : Descriptor :=
  { method, path := some (Path.slot "id"), urlParams := ["id"] }

def descriptor : BasicMethod → Descriptor
  | .list => { method := .get, queryParams := listQueryParams }
  | .retrieve => onItem .get
  | .create => { method := .post }
  | .update => onItem .patch
  | .del => onItem .delete

end BasicMethod

/-- The operations stand in the order of their names. -/
structure Resource where
  basePath : String
  operations : List Operation
  deriving DecidableEq

namespace Resource

def operation? (r : Resource) (name : String) : Option Operation :=
  r.operations.find? (·.name == name)

def operationNames (r : Resource) : List String := r.operations.map (·.name)

def contains (r : Resource) (name : String) : Bool := (r.operation? name).isSome

/-- The operation of that name, or the error that there is none. -/
def operation (r : Resource) (name : String) : Except PreconditionError Operation :=
  match r.operation? name with
  | some o => .ok o
  | none => .error (.unknownOperation r.basePath name)

def prepare (r : Resource) (name : String) (a : Arguments) : Except PreconditionError Request := do
  (← r.operation name).prepare a

/-- What a resource is to be built from. -/
structure Plan where
  basePath : String
  basics : List BasicMethod := []
  methods : List (String × Descriptor) := []

namespace Plan

/-- Adds those basic methods that are not there yet. -/
def includeBasics (p : Plan) (ms : List BasicMethod) : Plan :=
  ms.foldl (fun p m => if p.basics.contains m then p else { p with basics := p.basics ++ [m] }) p

def method (p : Plan) (name : String) (d : Descriptor) : Plan :=
  { p with methods := p.methods ++ [(name, d)] }

/-- Everything that is to be an operation: the basic methods, then the others. -/
def declared (p : Plan) : List (String × Descriptor) :=
  p.basics.map (fun m => (m.name, m.descriptor)) ++ p.methods

/-- Puts an operation before the first one of a greater name. -/
def insertByName (o : Operation) : List Operation → List Operation
  | [] => [o]
  | o' :: os => if o.name < o'.name then o :: o' :: os else o' :: insertByName o os

/-- Adds one declared operation to those that are compiled. -/
def add (basePath : String) (os : List Operation) (entry : String × Descriptor) :
    Except ResourceError (List Operation) :=
  let (name, d) := entry
  if name.isEmpty then .error (.emptyMethodName basePath)
  else if os.any (·.name == name) then .error (.duplicateMethod name basePath)
  else match Operation.compile name basePath d with
    | .ok o => .ok (insertByName o os)
    | .error e => .error (.invalidDescriptor name e)

def build (p : Plan) : Except ResourceError Resource :=
  if p.basePath.isEmpty then .error .emptyBasePath
  else do
    let operations ← p.declared.foldlM (add p.basePath) []
    return ⟨p.basePath, operations⟩

end Plan
end Resource

structure Call where
  operation : String
  arguments : Arguments

namespace Call

def of (operation : String) (arguments : List (String × Json)) : Call :=
  ⟨operation, Arguments.ofPairs arguments⟩

/-- A text argument that may be absent. -/
def optional (name : String) (value : Option String) : List (String × Json) :=
  value.toList.map fun text => (name, .string text)

def prepare (c : Call) (r : Resource) : Except PreconditionError Request :=
  r.prepare c.operation c.arguments

end Call
end RestClient
