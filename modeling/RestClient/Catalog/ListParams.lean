import RestClient.Resource.Basic

namespace RestClient

inductive SortOrder where
  | asc
  | desc
  deriving DecidableEq

namespace SortOrder

def name : SortOrder → String
  | .asc => "asc"
  | .desc => "desc"

def ofName? (s : String) : Option SortOrder :=
  if s = "asc" then some .asc else if s = "desc" then some .desc else none

/-- A sort order is its name, or an object whose one field has that name and no value. -/
def ofJson? : Json → Option SortOrder
  | .string s => ofName? s
  | .object [(key, .null)] => ofName? key
  | _ => none

end SortOrder

structure ListParams where
  states : Option (List String) := none
  perPage : Option UInt32 := none
  page : Option UInt32 := none
  sort : Option String := none
  order : Option SortOrder := none
  deriving DecidableEq

namespace ListParams

/-- The parameters that are set, under their wire names and in the order of `listQueryParams`. -/
def fields (p : ListParams) : List (String × Json) :=
  (p.states.toList.map fun s => ("states", .array (s.map .string))) ++
  (p.perPage.toList.map fun n => ("per_page", .int n.toNat)) ++
  (p.page.toList.map fun n => ("page", .int n.toNat)) ++
  (p.sort.toList.map fun s => ("sort", .string s)) ++
  (p.order.toList.map fun o => ("order", .string o.name))

def toJson (p : ListParams) : Json := .object p.fields

def arguments (p : ListParams) : Arguments := Arguments.ofPairs p.fields

/-- The call that lists a resource by these parameters. -/
def listCall (p : ListParams) : Call := ⟨BasicMethod.list.name, p.arguments⟩

def texts? : Json → Option (List String)
  | .array items => items.mapM Json.string?
  | _ => none

def word? : Json → Option UInt32
  | .number (.int n) => if 0 ≤ n ∧ n < 0x100000000 then some (UInt32.ofNat n.toNat) else none
  | _ => none

/-- An unset parameter is missing or null. -/
def optional? {α : Type} (read : Json → Option α) : Option Json → Option (Option α)
  | none => some none
  | some .null => some none
  | some v => (read v).map some

/-- Reads the parameters from an object, of which other fields are ignored, or from an array of all
of them in order. -/
def ofJson? (v : Json) : Option ListParams := do
  let (states, perPage, page, sort, order) ← match v with
    | .object fields =>
      some (fields.lookup "states", fields.lookup "per_page", fields.lookup "page",
        fields.lookup "sort", fields.lookup "order")
    | .array [states, perPage, page, sort, order] =>
      some (some states, some perPage, some page, some sort, some order)
    | _ => none
  return {
    states := ← optional? texts? states
    perPage := ← optional? word? perPage
    page := ← optional? word? page
    sort := ← optional? Json.string? sort
    order := ← optional? SortOrder.ofJson? order }

end ListParams
end RestClient
