import RestClient.Json.Basic

namespace RestClient.Json

/-- Takes a value off the front of a text and leaves the rest. -/
abbrev Reader (α : Type) := List Char → Option (α × List Char)

/-- The deepest nesting of containers that is read. -/
def maxDepth : Nat := 127

namespace Reader

def isSpace (c : Char) : Bool := c == ' ' || c == '\t' || c == '\n' || c == '\r'

def skipSpaces (cs : List Char) : List Char := cs.dropWhile isSpace

def hexValue? (c : Char) : Option Nat :=
  if c.isDigit then some (c.toNat - 0x30)
  else if 'a' ≤ c ∧ c ≤ 'f' then some (c.toNat - 0x57)
  else if 'A' ≤ c ∧ c ≤ 'F' then some (c.toNat - 0x37)
  else none

/-- Four hexadecimal digits as a number. -/
def hexUnit? (a b c d : Char) : Option Nat := do
  let a ← hexValue? a
  let b ← hexValue? b
  let c ← hexValue? c
  let d ← hexValue? d
  return ((a * 16 + b) * 16 + c) * 16 + d

def isHighSurrogate (n : Nat) : Bool := 0xD800 ≤ n && n ≤ 0xDBFF

def isLowSurrogate (n : Nat) : Bool := 0xDC00 ≤ n && n ≤ 0xDFFF

def unescape? (c : Char) : Option Char :=
  if c = '"' ∨ c = '\\' ∨ c = '/' then some c
  else if c = 'b' then some '\x08'
  else if c = 'f' then some '\x0c'
  else if c = 'n' then some '\n'
  else if c = 'r' then some '\r'
  else if c = 't' then some '\t'
  else none

/-- Reads a string after its opening quote; `acc` holds what is read, last character first. -/
def stringAfter (acc : List Char) : Reader String
  | [] => none
  | '"' :: cs => some (String.ofList acc.reverse, cs)
  | '\\' :: 'u' :: a :: b :: c :: d :: cs =>
    match hexUnit? a b c d with
    | none => none
    | some n =>
      if isHighSurrogate n then
        match cs with
        | '\\' :: 'u' :: e :: f :: g :: h :: cs =>
          match hexUnit? e f g h with
          | none => none
          | some m =>
            if isLowSurrogate m then
              stringAfter (Char.ofNat (0x10000 + (n - 0xD800) * 0x400 + (m - 0xDC00)) :: acc) cs
            else none
        | _ => none
      else if isLowSurrogate n then none
      else stringAfter (Char.ofNat n :: acc) cs
  | '\\' :: c :: cs =>
    match unescape? c with
    | some c => stringAfter (c :: acc) cs
    | none => none
  | c :: cs => if c = '\\' ∨ c.toNat < 0x20 then none else stringAfter (c :: acc) cs

/-- One digit or more. -/
def digits : Reader (List Char) := fun cs =>
  match cs.span Char.isDigit with
  | ([], _) => none
  | (ds, cs) => some (ds, cs)

/-- The digits before the point: a zero stands alone. -/
def wholeDigits : Reader (List Char)
  | '0' :: cs => if (cs.head?.map Char.isDigit).getD false then none else some (['0'], cs)
  | cs => digits cs

def fraction : Reader (Option (List Char))
  | '.' :: cs => (digits cs).map fun (ds, cs) => (some ds, cs)
  | cs => some (none, cs)

def exponentSign : List Char → Bool × List Char
  | '+' :: cs => (false, cs)
  | '-' :: cs => (true, cs)
  | cs => (false, cs)

def signed (negative : Bool) (n : Nat) : Int := if negative then -n else n

def exponent : Reader (Option Int) := fun cs =>
  match cs with
  | c :: rest =>
    if c = 'e' ∨ c = 'E' then
      let (negative, rest) := exponentSign rest
      (digits rest).map fun (ds, cs) => (some (signed negative (Nat.ofDigitChars 10 ds 0)), cs)
    else some (none, cs)
  | [] => some (none, [])

/-- The whole numbers that are kept exact. -/
def isExact (n : Int) : Bool := -0x8000000000000000 ≤ n && n < 0x10000000000000000

/-- The number of a literal. A negative zero, and a whole number out of the exact range, is rounded
like a decimal. -/
def literal? (negative : Bool) (whole : List Char) (frac : Option (List Char))
    (exp : Option Int) : Option Number :=
  let n := Nat.ofDigitChars 10 whole 0
  if frac = none ∧ exp = none ∧ isExact (signed negative n) ∧ ¬(negative ∧ n = 0) then
    some (.int (signed negative n))
  else
    let ds := whole ++ frac.getD []
    let e := exp.getD 0 - (frac.getD []).length
    (Binary64.ofDecimal? negative (Nat.ofDigitChars 10 ds 0) e).map .real

def number : Reader Number := fun cs => do
  let (negative, cs) := match cs with
    | '-' :: cs => (true, cs)
    | cs => (false, cs)
  let (whole, cs) ← wholeDigits cs
  let (frac, cs) ← fraction cs
  let (exp, cs) ← exponent cs
  let n ← literal? negative whole frac exp
  return (n, cs)

def scalar : Reader Json
  | 'n' :: 'u' :: 'l' :: 'l' :: cs => some (.null, cs)
  | 't' :: 'r' :: 'u' :: 'e' :: cs => some (.bool true, cs)
  | 'f' :: 'a' :: 'l' :: 's' :: 'e' :: cs => some (.bool false, cs)
  | '"' :: cs => (stringAfter [] cs).map fun (s, cs) => (.string s, cs)
  | cs => (number cs).map fun (n, cs) => (.number n, cs)

/-- Items up to the closing bracket, at most `fuel` of them. -/
def itemsAfter (value : Reader Json) : Nat → Reader (List Json)
  | 0, _ => none
  | fuel + 1, cs => do
    let (v, cs) ← value cs
    match skipSpaces cs with
    | ',' :: cs =>
      let (vs, cs) ← itemsAfter value fuel cs
      some (v :: vs, cs)
    | ']' :: cs => some ([v], cs)
    | _ => none

def field (value : Reader Json) : Reader (String × Json) := fun cs =>
  match skipSpaces cs with
  | '"' :: cs => do
    let (k, cs) ← stringAfter [] cs
    match skipSpaces cs with
    | ':' :: cs =>
      let (v, cs) ← value cs
      some ((k, v), cs)
    | _ => none
  | _ => none

/-- Fields up to the closing brace, at most `fuel` of them. -/
def fieldsAfter (value : Reader Json) : Nat → Reader (List (String × Json))
  | 0, _ => none
  | fuel + 1, cs => do
    let (f, cs) ← field value cs
    match skipSpaces cs with
    | ',' :: cs =>
      let (fs, cs) ← fieldsAfter value fuel cs
      some (f :: fs, cs)
    | '}' :: cs => some ([f], cs)
    | _ => none

/-- A value with at most `depth` nested containers, each of at most `fuel` items. -/
def value (fuel : Nat) : Nat → Reader Json
  | 0, cs => scalar (skipSpaces cs)
  | depth + 1, cs =>
    match skipSpaces cs with
    | '[' :: cs =>
      match skipSpaces cs with
      | ']' :: cs => some (.array [], cs)
      | cs => (itemsAfter (value fuel depth) fuel cs).map fun (vs, cs) => (.array vs, cs)
    | '{' :: cs =>
      match skipSpaces cs with
      | '}' :: cs => some (.object [], cs)
      | cs => (fieldsAfter (value fuel depth) fuel cs).map
          fun (fs, cs) => (.object (Entries.ofPairs fs), cs)
    | cs => scalar cs

end Reader

/-- The value that a whole text denotes. -/
def parse? (text : String) : Option Json :=
  let cs := text.toList
  match Reader.value cs.length maxDepth cs with
  | some (v, rest) => if (Reader.skipSpaces rest).isEmpty then some v else none
  | none => none

end RestClient.Json
