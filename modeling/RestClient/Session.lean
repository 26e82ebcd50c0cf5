import RestClient.Catalog.Resources
import RestClient.Client

namespace RestClient

/-- A client, as the place of its connection in a session; its clones have the same place. -/
structure Client where
  place : Nat
  deriving DecidableEq

/-- A resource with the client on which it is made. -/
structure Mount where
  client : Client
  resource : Resource

/-- A change that is made through one client is seen by every client of the same place. -/
structure Session where
  connections : List Connection
  clients : List Client
  resources : List Mount

/-- A way to call a resource: by the operation's name, or by a typed helper. -/
inductive Invocation where
  | named (operation : String) (arguments : Arguments)
  | listWith (params : ListParams)
  | listUniqueCoffees (params : ListParams)
  | applyVoucher (userId code : String) (source : Option String)
  | skip (id : String)
  | updateDispatchDate (id date : String)
  | updateItem (update : Orders.ItemUpdate)

def Invocation.call : Invocation → Except PreconditionError Call
  | .named operation arguments => .ok ⟨operation, arguments⟩
  | .listWith params => .ok params.listCall
  | .listUniqueCoffees params => .ok (Users.listUniqueCoffees params)
  | .applyVoucher userId code source => .ok (Users.applyVoucher userId code source)
  | .skip id => .ok (Orders.skip id)
  | .updateDispatchDate id date => Orders.updateDispatchDate id date
  | .updateItem update => .ok (Orders.updateItem update)

namespace Session

/-- A step; those that name a handle are taken by its client. -/
inductive Step where
  | inspect
  | clone (handle : Nat)
  | setBase (handle : Nat) (text : String)
  | setToken (handle : Nat) (text : String)
  | clearToken (handle : Nat)
  | login (handle : Nat) (login password : String)
  | logout (handle : Nat) (code : String)
  | send (handle : Nat) (request : Request)
  | submit (handle : Nat) (method : Method) (path : String) (query : Entries String)
      (body : Entries Json)
  | build (handle : Nat) (plan : Resource.Plan)
  | describe (resource : Nat)
  | call (resource : Nat) (invocation : Invocation)
  | operate (resource : Nat) (operation : String) (arguments : Arguments)

inductive Failure where
  | config (e : ConfigError)
  | resource (e : ResourceError)
  | precondition (e : PreconditionError)
  | send (e : SendError)
  | api (e : ApiError)
  | noHandle
  | noResource

inductive Answer where
  | done
  | handle (number : Nat)
  | login (l : Login)
  | response (r : Response)
  | body (v : Json)
  | operations (names : List String)
  | resource (r : Resource)

/-- The session of a first client. -/
def ofConfig (c : Config) : Session := ⟨[.ofConfig c], [⟨0⟩], []⟩

def connection? (s : Session) (k : Client) : Option Connection := s.connections[k.place]?

/-- Puts a connection in the place of a client's. -/
def update (s : Session) (k : Client) (c : Connection) : Session :=
  { s with connections := s.connections.set k.place c }

/-- The base URL and token that a client reports. -/
def view? (s : Session) (k : Client) : Option (BaseUrl × Option AccessToken) :=
  (s.connection? k).map fun c => (c.base, c.token)

/-- What the clients of all handles report. -/
def views (s : Session) : List (BaseUrl × Option AccessToken) := s.clients.filterMap s.view?

/-- What the clients of all resources report. -/
def resourceViews (s : Session) : List (BaseUrl × Option AccessToken) :=
  s.resources.filterMap fun m => s.view? m.client

abbrev Outcome := Session × Exchange Failure Answer

def refuse (s : Session) (e : Failure) : Outcome := (s, .silent (.error e))

def answer (s : Session) (a : Answer) : Outcome := (s, .silent (.ok a))

/-- Answers with the result of an exchange, which leaves the session as it is. -/
def relay {ε α : Type} (s : Session) (x : Exchange ε α) (failure : ε → Failure)
    (wrap : α → Answer) : Outcome :=
  (s, (x.mapError failure).andThen fun a => .ok (wrap a))

/-- Does something with the client of a handle, if there is one of that number. -/
def onHandle (s : Session) (handle : Nat) (run : Client → Connection → Outcome) : Outcome :=
  match s.clients[handle]? with
  | none => s.refuse .noHandle
  | some k => match s.connection? k with
    | some c => run k c
    | none => s.refuse .noHandle

def onResource (s : Session) (resource : Nat) (run : Resource → Connection → Outcome) : Outcome :=
  match s.resources[resource]? with
  | none => s.refuse .noResource
  | some m => match s.connection? m.client with
    | some c => run m.resource c
    | none => s.refuse .noResource

def step (s : Session) (t : Transport) : Step → Outcome
  | .inspect => s.answer .done
  | .clone handle => s.onHandle handle fun k _ =>
    answer { s with clients := s.clients ++ [k] } (.handle s.clients.length)
  | .setBase handle text => s.onHandle handle fun k c =>
    match BaseUrl.ofText text with
    | .ok base => answer (s.update k { c with base }) .done
    | .error e => s.refuse (.config e)
  | .setToken handle text => s.onHandle handle fun k c =>
    match AccessToken.ofText text with
    | .ok token => answer (s.update k { c with token := some token }) .done
    | .error e => s.refuse (.config e)
  | .clearToken handle => s.onHandle handle fun k c =>
    answer (s.update k { c with token := none }) .done
  | .login handle login password => s.onHandle handle fun _ c =>
    s.relay (c.login t login password) .api .login
  | .logout handle code => s.onHandle handle fun _ c => s.relay (c.logout t code) .api .body
  | .send handle request => s.onHandle handle fun _ c => s.relay (c.send t request) .send .response
  | .submit handle method path query body => s.onHandle handle fun _ c =>
    s.relay (c.submit t method path query body) .send .response
  | .build handle plan => s.onHandle handle fun k _ =>
    match plan.build with
    | .ok r => answer { s with resources := s.resources ++ [⟨k, r⟩] } (.operations r.operationNames)
    | .error e => s.refuse (.resource e)
  | .describe resource => s.onResource resource fun r _ => s.answer (.resource r)
  | .call resource invocation => s.onResource resource fun r c =>
    match invocation.call with
    | .ok call => s.relay (c.call t r call) .api .body
    | .error e => s.refuse (.api (.precondition e))
  | .operate resource operation arguments => s.onResource resource fun r c =>
    match r.operation operation with
    | .ok o => s.relay (c.fetch t (o.prepare arguments)) .api .body
    | .error e => s.refuse (.precondition e)

/-- Runs steps in order, each over its own transport. -/
def run (s : Session) : List (Transport × Step) → Session × List (Exchange Failure Answer)
  | [] => (s, [])
  | (t, step) :: rest =>
    let (s, x) := s.step t step
    let (s, xs) := s.run rest
    (s, x :: xs)

end Session
end RestClient
