import RestClient.Text.Basic

namespace RestClient

structure Date where
  year : Int
  month : Nat
  day : Nat
  deriving DecidableEq

namespace Date

def isLeap (year : Int) : Bool := year % 4 == 0 && (year % 100 != 0 || year % 400 == 0)

def daysInMonth (year : Int) (month : Nat) : Nat :=
  if month = 2 then if isLeap year then 29 else 28
  else if month = 4 ∨ month = 6 ∨ month = 9 ∨ month = 11 then 30
  else 31

def minYear : Int := -262143

def maxYear : Int := 262142

def isReal (d : Date) : Bool :=
  minYear ≤ d.year && d.year ≤ maxYear && 1 ≤ d.month && d.month ≤ 12 && 1 ≤ d.day &&
    d.day ≤ daysInMonth d.year d.month

/-- One digit or more, of which at most `limit` are read. -/
def number? (limit : Nat) (cs : List Char) : Option (Nat × List Char) :=
  let ds := (cs.takeWhile Char.isDigit).take limit
  if ds.isEmpty then none else some (Nat.ofDigitChars 10 ds 0, cs.drop ds.length)

/-- A year is up to four digits, or a sign and any number of them. -/
def year? (cs : List Char) : Option (Int × List Char) :=
  match cs with
  | '+' :: cs => (number? cs.length cs).map fun (year, rest) => (year, rest)
  | '-' :: cs => (number? cs.length cs).map fun (year, rest) => (-year, rest)
  | cs => (number? 4 cs).map fun (year, rest) => (year, rest)

def dash? : List Char → Option (List Char)
  | '-' :: cs => some cs
  | _ => none

def skipBlanks (cs : List Char) : List Char := cs.dropWhile Text.isBlank

/-- Reads `year-month-day`. Blanks may stand before each number, and a month or a day may be
written with one digit. -/
def parse? (text : String) : Option Date := do
  let (year, cs) ← year? (skipBlanks text.toList)
  let cs ← dash? cs
  let (month, cs) ← number? 2 (skipBlanks cs)
  let cs ← dash? cs
  let (day, cs) ← number? 2 (skipBlanks cs)
  let date : Date := ⟨year, month, day⟩
  if cs.isEmpty && date.isReal then some date else none

end Date
end RestClient
