import RestClient.Json.Printer

namespace RestClient

inductive PreconditionError where
  | missingArgument (operation name : String)
  | invalidArgument (operation message : String)
  | unknownOperation (resource name : String)
  deriving DecidableEq

def PreconditionError.message : PreconditionError → String
  | .missingArgument operation name =>
    s!"{operation}(...): You must supply a value for '{name}'."
  | .invalidArgument operation message => s!"{operation}(...): {message}"
  | .unknownOperation resource name => s!"{resource} has no operation named '{name}'."

/-- JSON values in order, each under a name of its own, where null counts as not given. -/
structure Arguments where
  entries : Entries Json
  nodup_keys : entries.keys.Nodup

namespace Arguments

def empty : Arguments := ⟨[], List.nodup_nil⟩

def insert (a : Arguments) (name : String) (value : Json) : Arguments :=
  ⟨Entries.insert a.entries name value, Entries.nodup_keys_insert a.nodup_keys name value⟩

def ofPairs (pairs : List (String × Json)) : Arguments :=
  ⟨Entries.ofPairs pairs, Entries.nodup_keys_ofPairs pairs⟩

def get? (a : Arguments) (name : String) : Option Json := a.entries.lookup name

/-- The argument of that name, if it is given and not null. -/
def value? (a : Arguments) (name : String) : Option Json := (a.get? name).filter (!·.isNull)

theorem value?_eq_some_iff {a : Arguments} {name : String} {v : Json} :
    a.value? name = some v ↔ a.get? name = some v ∧ v ≠ .null := by
  rw [value?, Option.filter_eq_some_iff, Bool.not_eq_true', ← Bool.not_eq_true, Json.isNull_iff]

def contains (a : Arguments) (name : String) : Bool := (a.value? name).isSome

def size (a : Arguments) : Nat := a.entries.length

def refused (message : String) : PreconditionError := .invalidArgument "arguments" message

/-- The fields of a JSON object. -/
def ofJson : Json → Except PreconditionError Arguments
  | .object fields => .ok (ofPairs fields)
  | v => .error (refused s!"Arguments must be a JSON object. You passed {v.text}.")

/-- The arguments of a map whose keys are any JSON values; a key needs a text of its own. -/
def ofKeyed (pairs : List (Json × Json)) : Except PreconditionError Arguments := do
  let named ← pairs.mapM fun (key, value) =>
    match key.scalarText? with
    | some name => .ok (name, value)
    | none => .error (refused "key must be a string")
  return ofPairs named

end Arguments
end RestClient
