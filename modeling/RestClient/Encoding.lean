import RestClient.Entries

namespace RestClient.Encoding

def upperHexDigit (n : Nat) : Char :=
  if n < 10 then Char.ofNat (0x30 + n) else Char.ofNat (0x37 + n)

def percentByte (b : UInt8) : List Char :=
  ['%', upperHexDigit (b.toNat / 16), upperHexDigit (b.toNat % 16)]

/-- The UTF-8 bytes of a character, each as a percent sign and two upper-case hexadecimal digits. -/
def percentChar (c : Char) : List Char := (String.utf8EncodeChar c).flatMap percentByte

/-- Encodes all characters but those of `keep`. -/
def percentEncode (keep : Char → Bool) (cs : List Char) : List Char :=
  cs.flatMap fun c => if keep c then [c] else percentChar c

def isUnreserved (c : Char) : Bool :=
  c.isAlphanum || c == '-' || c == '_' || c == '.' || c == '~'

/-- The form in which a value stands in a path or a query. -/
def encodeComponent (s : String) : String :=
  String.ofList (percentEncode isUnreserved s.toList)

def joinFields (encode : String → String) (fields : Entries String) : String :=
  "&".intercalate (fields.map fun (key, value) => encode key ++ "=" ++ encode value)

def queryText (fields : Entries String) : String := joinFields encodeComponent fields

def isFormSafe (c : Char) : Bool :=
  c.isAlphanum || c == '*' || c == '-' || c == '.' || c == '_'

/-- The form in which a name or value stands in a form body: a space is a plus sign. -/
def encodeFormText (s : String) : String :=
  String.ofList (s.toList.flatMap fun c =>
    if isFormSafe c then [c] else if c = ' ' then ['+'] else percentChar c)

def formText (fields : Entries String) : String := joinFields encodeFormText fields

end RestClient.Encoding
