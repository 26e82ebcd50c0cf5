import RestClient.Http.Wire

namespace RestClient

/-- The URL of the request below the base is not too long. -/
def Request.Fits (base : BaseUrl) (r : Request) : Prop :=
  Destination.urlLength base.scheme (base.join r.pathAndQuery) ≤ Destination.maxUrlLength

instance (base : BaseUrl) (r : Request) : Decidable (r.Fits base) :=
  inferInstanceAs (Decidable (_ ≤ _))

structure Connection where
  base : BaseUrl
  token : Option AccessToken
  userAgent : String
  deriving DecidableEq

/-- Why a request has no successful response. -/
inductive SendError where
  | invalid (e : RequestError)
  | network
  | rejected (e : Response.Rejection)

/-- A result, and the requests that reached somebody on the way to it. -/
structure Exchange (ε α : Type) where
  sent : List WireRequest
  result : Except ε α

namespace Exchange

variable {ε ε' α β : Type}

/-- A result for which nothing is sent. -/
def silent (result : Except ε α) : Exchange ε α := ⟨[], result⟩

def mapError (f : ε → ε') (x : Exchange ε α) : Exchange ε' α := ⟨x.sent, x.result.mapError f⟩

/-- Goes on with a successful result, without sending more. -/
def andThen (x : Exchange ε α) (f : α → Except ε β) : Exchange ε β := ⟨x.sent, x.result.bind f⟩

end Exchange

namespace Connection

def ofConfig (c : Config) : Connection := ⟨c.baseUrl, c.token, c.userAgent⟩

def defaultHeaders (c : Connection) : Entries String :=
  [("User-Agent", c.userAgent), ("Accept", "application/json")]

def authorization (c : Connection) : Entries String :=
  c.token.toList.map fun token => ("Authorization", token.text)

/-- The headers of a request without those of its body, in the order in which they are added. -/
def headers (c : Connection) (r : Request) : Entries String :=
  c.defaultHeaders ++ r.headers.getD [] ++ c.authorization

/-- The request as it is sent, unless one of its headers is illegal or its URL is too long. -/
def wire? (c : Connection) (r : Request) : Option WireRequest :=
  let headers := c.headers r
  if headers.all Wire.isHeader ∧ r.Fits c.base then
    let destination := Destination.ofUrl c.base.scheme (c.base.join r.pathAndQuery)
    let headers := headers.map fun (name, value) => (Text.lowercase name, value)
    let type := r.bodyType.getD .form
    some {
      method := r.method
      authority := destination.authority
      target := destination.target
      headers := if r.body.isSome then Wire.withContentType type headers else headers
      body := r.body.map fun _ => Wire.bodyText type r }
  else none

/-- The last reply decides the result; where there is none, the network has failed. -/
def resultOf : Option WireReply → Except SendError Response
  | none => .error .network
  | some reply => (Response.ofReply reply).accept.mapError .rejected

def send (c : Connection) (t : Transport) (r : Request) : Exchange SendError Response :=
  match r.verify with
  | .error e => .silent (.error (.invalid e))
  | .ok () => match c.wire? r with
    | none => .silent (.error .network)
    | some w => match t w with
      | .unreachable => .silent (.error .network)
      | .delivered hops last => ⟨w :: hops.map (·.next), resultOf last⟩

/-- Sends a request drafted with a query and, where the method carries one, a form body. -/
def submit (c : Connection) (t : Transport) (method : Method) (path : String)
    (query : Entries String) (body : Entries Json) : Exchange SendError Response :=
  let edits : List Request.Edit :=
    if method.carriesBody then [.body body, .bodyType .form, .query query] else [.query query]
  match Request.build method path edits with
  | .error e => .silent (.error (.invalid e))
  | .ok r => c.send t r

end Connection
end RestClient
