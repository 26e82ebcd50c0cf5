import RestClient.Json.Basic
import RestClient.Binary64.Layout

namespace RestClient

namespace Json

/-- Numbers from `1e-5` to below `1e16` are written without an exponent. -/
def numberLayout : DecimalLayout := ⟨-4, 16, ['+']⟩

def sign (negative : Bool) (cs : List Char) : List Char := if negative then '-' :: cs else cs

def Number.chars : Number → List Char
  | .int n => sign (n < 0) (Nat.toDigits 10 n.natAbs)
  | .real x => sign x.negative (numberLayout.write x.shortest)

def Number.text (n : Number) : String := String.ofList n.chars

def hexDigit (n : Nat) : Char := if n < 10 then Char.ofNat (0x30 + n) else Char.ofNat (0x57 + n)

def escapeChar (c : Char) : List Char :=
  if c = '"' then ['\\', '"']
  else if c = '\\' then ['\\', '\\']
  else if c = '\x08' then ['\\', 'b']
  else if c = '\x0c' then ['\\', 'f']
  else if c = '\n' then ['\\', 'n']
  else if c = '\r' then ['\\', 'r']
  else if c = '\t' then ['\\', 't']
  else if c.toNat < 0x20 then
    ['\\', 'u', '0', '0', hexDigit (c.toNat / 16), hexDigit (c.toNat % 16)]
  else [c]

def quoted (s : String) : List Char := '"' :: s.toList.flatMap escapeChar ++ ['"']

mutual

def chars : Json → List Char
  | .null => ['n', 'u', 'l', 'l']
  | .bool true => ['t', 'r', 'u', 'e']
  | .bool false => ['f', 'a', 'l', 's', 'e']
  | .number n => n.chars
  | .string s => quoted s
  | .array [] => ['[', ']']
  | .array (v :: vs) => '[' :: (chars v ++ moreItems vs)
  | .object [] => ['{', '}']
  | .object ((k, v) :: fs) => '{' :: (quoted k ++ ':' :: (chars v ++ moreFields fs))

/-- The rest of an array after an item. -/
def moreItems : List Json → List Char
  | [] => [']']
  | v :: vs => ',' :: (chars v ++ moreItems vs)

/-- The rest of an object after a field. -/
def moreFields : List (String × Json) → List Char
  | [] => ['}']
  | (k, v) :: fs => ',' :: (quoted k ++ ':' :: (chars v ++ moreFields fs))

end

def text (v : Json) : String := String.ofList v.chars

/-- The text of a scalar other than null. -/
def scalarText? : Json → Option String
  | .string s => some s
  | .number n => some n.text
  | .bool b => some (if b then "true" else "false")
  | _ => none

/-- Null has no text. An array joins the texts of its scalar items by commas, and an object is its
JSON text. -/
def paramText? : Json → Option String
  | .null => none
  | .array items => some (",".intercalate (items.filterMap scalarText?))
  | .object fields => some (text (.object fields))
  | v => scalarText? v

theorem paramText?_eq_none_iff {v : Json} : v.paramText? = none ↔ v = .null := by
  cases v <;> simp [paramText?, scalarText?]

end Json
end RestClient
