import RestClient.Entries
import RestClient.Binary64.Basic

namespace RestClient

inductive Json.Number where
  | int (n : Int)
  | real (x : Binary64)
  deriving DecidableEq

/-- Objects keep the order of their fields, and whole numbers stay apart from the others. -/
inductive Json where
  | null
  | bool (b : Bool)
  | number (n : Json.Number)
  | string (s : String)
  | array (items : List Json)
  | object (fields : List (String × Json))

namespace Json

def isNull : Json → Bool
  | .null => true
  | _ => false

theorem isNull_iff {v : Json} : v.isNull ↔ v = .null := by
  cases v <;> simp [isNull]

def int (n : Int) : Json := .number (.int n)

def emptyObject : Json := .object []

/-- The field of that name, where the value is an object. -/
def get? (key : String) : Json → Option Json
  | .object fields => fields.lookup key
  | _ => none

def string? : Json → Option String
  | .string s => some s
  | _ => none

end Json
end RestClient
