import RestClient.Encoding
import RestClient.Text.Basic

namespace RestClient

/-- Where a URL sends a request. -/
structure Destination where
  authority : String
  target : String
  deriving DecidableEq

namespace Destination

def isControlOrSpace (c : Char) : Bool := c.toNat ≤ 0x20

def isTabOrNewline (c : Char) : Bool := c == '\t' || c == '\n' || c == '\r'

/-- Characters that are ignored: blanks around the URL, tabs and newlines anywhere. -/
def clean (cs : List Char) : List Char :=
  (Text.trimChars isControlOrSpace cs).filter (!isTabOrNewline ·)

def isSlash (c : Char) : Bool := c == '/' || c == '\\'

def isPlainAscii (c : Char) : Bool := 0x20 < c.toNat && c.toNat < 0x7F

def isPathSafe (c : Char) : Bool := isPlainAscii c && !"\"#<>?`\x7b\x7d".toList.contains c

def isQuerySafe (c : Char) : Bool := isPlainAscii c && !"\"#<>'".toList.contains c

def isFragmentSafe (c : Char) : Bool := isPlainAscii c && !"\"<>`".toList.contains c

/-- The segment as dots, where the encoded form of a dot is one too. -/
def plainDots (segment : List Char) : List Char :=
  match segment with
  | '%' :: '2' :: c :: rest =>
    if c = 'e' ∨ c = 'E' then '.' :: plainDots rest else segment
  | '.' :: rest => '.' :: plainDots rest
  | _ => segment

def isSingleDot (segment : List Char) : Bool := plainDots segment == ['.']

def isDoubleDot (segment : List Char) : Bool := plainDots segment == ['.', '.']

/-- Resolves dot segments; `done` holds what stands before, last first. A dot segment at the end
leaves an empty one, so that the path still ends in a slash. -/
def resolve (done : List (List Char)) : List (List Char) → List (List Char)
  | [] => done.reverse
  | segment :: rest =>
    if isDoubleDot segment then
      resolve (if rest.isEmpty then [] :: done.tail else done.tail) rest
    else if isSingleDot segment then
      resolve (if rest.isEmpty then [] :: done else done) rest
    else resolve (Encoding.percentEncode isPathSafe segment :: done) rest

/-- The path of a URL from what stands between its authority and its query. -/
def path (cs : List Char) : List Char :=
  let segments := resolve [] (Text.splitAtEach isSlash (cs.drop 1))
  segments.flatMap ('/' :: ·)

/-- Takes apart what stands after the scheme of a URL. -/
def ofAddress (cs : List Char) : Destination :=
  let cs := cs.takeWhile (· != '#')
  let beforeQuery := cs.takeWhile (· != '?')
  let query := match cs.dropWhile (· != '?') with
    | [] => []
    | _ :: query => '?' :: Encoding.percentEncode isQuerySafe query
  let atHost := beforeQuery.dropWhile isSlash
  { authority := String.ofList (atHost.takeWhile (!isSlash ·))
    target := String.ofList (path (atHost.dropWhile (!isSlash ·)) ++ query) }

/-- What stands after the scheme of a URL. -/
def afterScheme (scheme url : String) : List Char :=
  (clean url.toList).drop (scheme.length + 3)

/-- The destination of a URL of that scheme. -/
def ofUrl (scheme url : String) : Destination := ofAddress (afterScheme scheme url)

/-- The fragment of a URL from what stands after its scheme; it is not sent. -/
def fragment (cs : List Char) : List Char :=
  match cs.dropWhile (· != '#') with
  | [] => []
  | _ :: fragment => '#' :: Encoding.percentEncode isFragmentSafe fragment

/-- How long a URL of that scheme is in its normal form, with its fragment. -/
def urlLength (scheme url : String) : Nat :=
  let d := ofUrl scheme url
  scheme.length + 3 + d.authority.length + d.target.length +
    (fragment (afterScheme scheme url)).length

/-- The length beyond which no URL is asked for. -/
def maxUrlLength : Nat := 65534

end Destination
end RestClient
