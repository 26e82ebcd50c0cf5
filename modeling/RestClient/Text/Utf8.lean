namespace RestClient.Text.Utf8

def encode (cs : List Char) : List UInt8 := cs.flatMap String.utf8EncodeChar

def replacement : Char := Char.ofNat 0xFFFD

/-- A character of which some bytes are read: the next byte must lie between `low` and `high`,
`more` bytes follow it, and `bits` holds what the bytes so far contribute. -/
structure Partial where
  more : Nat
  bits : Nat
  low : Nat := 0x80
  high : Nat := 0xBF

/-- Reads the first byte of a character. -/
def start (b : UInt8) : List Char × Option Partial :=
  let n := b.toNat
  if n < 0x80 then ([Char.ofNat n], none)
  else if n < 0xC2 then ([replacement], none)
  else if n < 0xE0 then ([], some { more := 0, bits := n - 0xC0 })
  else if n < 0xF0 then
    ([], some ⟨1, n - 0xE0, if n = 0xE0 then 0xA0 else 0x80, if n = 0xED then 0x9F else 0xBF⟩)
  else if n < 0xF5 then
    ([], some ⟨2, n - 0xF0, if n = 0xF0 then 0x90 else 0x80, if n = 0xF4 then 0x8F else 0xBF⟩)
  else ([replacement], none)

/-- Reads one byte: what it completes, and the character it leaves open. A byte that cannot go on
with the open character replaces it and is read again as a first byte. -/
def step : Option Partial → UInt8 → List Char × Option Partial
  | none, b => start b
  | some p, b =>
    if p.low ≤ b.toNat ∧ b.toNat ≤ p.high then
      let bits := p.bits * 64 + (b.toNat - 0x80)
      match p.more with
      | 0 => ([Char.ofNat bits], none)
      | more + 1 => ([], some { more, bits })
    else
      let (out, next) := start b
      (replacement :: out, next)

def decodeFrom : Option Partial → List UInt8 → List Char
  | none, [] => []
  | some _, [] => [replacement]
  | p, b :: bs =>
    let (out, next) := step p b
    out ++ decodeFrom next bs

def dropByteOrderMark : List UInt8 → List UInt8
  | 0xEF :: 0xBB :: 0xBF :: bs => bs
  | bs => bs

/-- Each maximal sequence that begins no character is replaced by U+FFFD, and one leading byte order
mark is dropped. -/
def decode (bs : List UInt8) : String :=
  String.ofList (decodeFrom none (dropByteOrderMark bs))

end RestClient.Text.Utf8
