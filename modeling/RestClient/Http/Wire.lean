import RestClient.Config
import RestClient.Http.Request
import RestClient.Http.Response
import RestClient.Http.Target
import RestClient.Text.Utf8

namespace RestClient

/-- Header names are lower case on the wire. -/
structure WireRequest where
  method : Method
  authority : String
  target : String
  headers : Entries String
  body : Option String
  deriving DecidableEq

/-- The text is the body as its charset has it read. -/
structure WireReply where
  status : Nat
  headers : Entries String
  text : String

namespace WireReply

/-- A reply whose body is in UTF-8. -/
def ofUtf8 (status : Nat) (headers : Entries String) (body : List UInt8) : WireReply :=
  ⟨status, headers, Text.Utf8.decode body⟩

/-- The reply says where else to ask. -/
def isRedirect (reply : WireReply) : Bool :=
  [301, 302, 303, 307, 308].contains reply.status &&
    reply.headers.any fun h => Text.lowercase h.1 == "location"

end WireReply

/-- A redirection that is followed: the reply, and the request that it leads to. -/
structure Hop where
  reply : WireReply
  next : WireRequest
  redirects : reply.isRedirect

/-- What becomes of a request: it reaches nobody, or it is delivered and redirections are followed
from there. No reply comes last where a connection is closed, a redirection leads to nobody, or
there are too many of them. -/
inductive Delivery where
  | unreachable
  | delivered (hops : List Hop) (last : Option WireReply)

namespace Delivery

def hops : Delivery → List Hop
  | .unreachable => []
  | .delivered hops _ => hops

def last? : Delivery → Option WireReply
  | .unreachable => none
  | .delivered _ last => last

/-- The requests that redirections lead to, after the first one. -/
def further (d : Delivery) : List WireRequest := d.hops.map (·.next)

end Delivery

/-- The network, with the HTTP stack that follows redirections on it. -/
abbrev Transport := WireRequest → Delivery

namespace Transport

def unreachable : Transport := fun _ => .unreachable

/-- Reaches the given authorities, and gives each request the same answer; without one it closes
the connection. -/
def canned (authorities : List String) (reply : Option WireReply) : Transport := fun w =>
  if authorities.contains w.authority then .delivered [] reply else .unreachable

end Transport

namespace Wire

def isTokenChar (c : Char) : Bool := c.isAlphanum || "!#$%&'*+-.^_`|~".toList.contains c

def isHeaderName (name : String) : Bool := !name.isEmpty && name.toList.all isTokenChar

def isHeaderValueChar (c : Char) : Bool := (0x20 ≤ c.toNat || c == '\t') && c.toNat != 0x7F

def isHeaderValue (value : String) : Bool := value.toList.all isHeaderValueChar

def isHeader (h : String × String) : Bool := isHeaderName h.1 && isHeaderValue h.2

/-- A form names its own content type; a JSON body keeps one that is already there. -/
def withContentType (type : BodyType) (headers : Entries String) : Entries String :=
  match type with
  | .form => headers.filter (·.1 != "content-type") ++ [("content-type", type.contentType)]
  | .json =>
    if headers.keys.contains "content-type" then headers
    else headers ++ [("content-type", type.contentType)]

def bodyText (type : BodyType) (r : Request) : String :=
  match type with
  | .form => Encoding.formText r.formFields
  | .json => r.jsonBody.text

def isVisible (c : Char) : Bool := (0x20 ≤ c.toNat && c.toNat < 0x7F) || c == '\t'

/-- The value of a reply's header; one that is not visible ASCII is lost. -/
def headerText (value : String) : String := if value.toList.all isVisible then value else ""

/-- Adds a value to those already under its name. -/
def addValue (headers : Entries (List String)) (name value : String) : Entries (List String) :=
  Entries.insert headers name ((headers.lookup name).getD [] ++ [value])

def collectHeaders (headers : Entries String) : Entries (List String) :=
  headers.foldl (fun m (name, value) => addValue m (Text.lowercase name) (headerText value)) []

end Wire

def Response.ofReply (reply : WireReply) : Response where
  code := reply.status
  headers := Wire.collectHeaders reply.headers
  body := Response.parseBody reply.text

end RestClient
