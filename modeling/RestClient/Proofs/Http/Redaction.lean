import RestClient.Client
import RestClient.Proofs.Http.Sending

namespace RestClient

/-- The request without its Authorization header. -/
def WireRequest.redact (w : WireRequest) : WireRequest :=
  { w with headers := w.headers.filter (·.1 != "authorization") }

/-- The exchange without the Authorization headers of what is sent. -/
def Exchange.redact {ε α : Type} (x : Exchange ε α) : Exchange ε α :=
  { x with sent := x.sent.map WireRequest.redact }

/-- The redirection without the Authorization header of the request that it leads to. -/
def Hop.redact (h : Hop) : Hop := { h with next := h.next.redact }

def Delivery.redact : Delivery → Delivery
  | .unreachable => .unreachable
  | .delivered hops last => .delivered (hops.map Hop.redact) last

/-- The transports give the same replies and follow the same redirections, whatever token they
see. -/
def Transport.Alike (t t' : Transport) : Prop :=
  ∀ w w', w.redact = w'.redact → (t w).redact = (t' w').redact

/-- Both texts are empty, or neither is; and both can stand in a header. -/
structure AccessToken.Interchangeable (text text' : String) : Prop where
  empty : text = "" ↔ text' = ""
  legal : Wire.isHeaderValue text
  legal' : Wire.isHeaderValue text'

/-- Both tokens are absent, or both are there and can stand in a header. -/
inductive AccessToken.Twins : Option AccessToken → Option AccessToken → Prop
  | none : Twins none none
  | some {token token' : AccessToken} (legal : Wire.isHeaderValue token.text)
      (legal' : Wire.isHeaderValue token'.text) : Twins (some token) (some token')

/-- The connections differ in nothing but their tokens. -/
structure Connection.Twins (c c' : Connection) : Prop where
  base : c.base = c'.base
  userAgent : c.userAgent = c'.userAgent
  token : AccessToken.Twins c.token c'.token

namespace Exchange

variable {ε ε' α β : Type}

theorem redact_mapError (f : ε → ε') (x : Exchange ε α) :
    (x.mapError f).redact = x.redact.mapError f := rfl

theorem redact_andThen (x : Exchange ε α) (f : α → Except ε β) :
    (x.andThen f).redact = x.redact.andThen f := rfl

end Exchange

theorem Wire.filter_ne_withContentType {name : String} (h : name ≠ "content-type") (type : BodyType)
    (headers : Entries String) :
    (withContentType type headers).filter (·.1 != name) =
      withContentType type (headers.filter (·.1 != name)) := by
  have hname : ("content-type" != name) = true := by simpa using Ne.symm h
  cases type with
  | form =>
    simp only [withContentType, List.filter_append, List.filter_filter, List.filter_cons, hname,
      if_true, List.filter_nil, Bool.and_comm]
  | json =>
    have hkeys : (Entries.keys (headers.filter (·.1 != name))).contains "content-type" =
        headers.keys.contains "content-type" := by
      rw [Bool.eq_iff_iff, List.contains_iff_mem, List.contains_iff_mem, Entries.keys, Entries.keys,
        List.mem_map, List.mem_map]
      constructor
      · rintro ⟨header, hmem, hkey⟩
        exact ⟨header, List.mem_of_mem_filter hmem, hkey⟩
      · rintro ⟨header, hmem, hkey⟩
        exact ⟨header, List.mem_filter.mpr ⟨hmem, by rw [hkey, hname]⟩, hkey⟩
    rw [withContentType, withContentType, hkeys]
    split
    · rfl
    · simp [List.filter_append, hname]

namespace Connection

variable {c c' : Connection} {t t' : Transport} {q : Request}

theorem Twins.setBase (h : c.Twins c') (base : BaseUrl) :
    Twins { c with base } { c' with base } :=
  ⟨rfl, h.userAgent, h.token⟩

theorem Twins.setToken (h : c.Twins c') {token token' : Option AccessToken}
    (htoken : AccessToken.Twins token token') :
    Twins { c with token } { c' with token := token' } :=
  ⟨h.base, h.userAgent, htoken⟩

theorem all_isHeader_authorization (h : c.Twins c') :
    c.authorization.all Wire.isHeader ∧ c'.authorization.all Wire.isHeader := by
  have htoken := h.token
  rw [all_isHeader_authorization_iff, all_isHeader_authorization_iff]
  generalize c.token = token, c'.token = token' at htoken ⊢
  cases htoken with
  | none => simp
  | some legal legal' => simp [legal, legal']

/-- The headers of a request but the last, as they are on the wire. -/
theorem filter_headers (c : Connection) (q : Request) :
    ((c.headers q).map fun (name, value) => (Text.lowercase name, value)).filter
      (·.1 != "authorization") =
    ((c.defaultHeaders ++ q.headers.getD []).map fun (name, value) =>
      (Text.lowercase name, value)).filter (·.1 != "authorization") := by
  have hauthorization : Text.lowercase "Authorization" = "authorization" := by decide +kernel
  rw [headers, List.map_append, List.filter_append]
  cases htoken : c.token <;> simp [authorization, htoken, hauthorization]

theorem redact_wire? (h : c.Twins c') (q : Request) :
    (c.wire? q).map WireRequest.redact = (c'.wire? q).map WireRequest.redact := by
  obtain ⟨hlegal, hlegal'⟩ := all_isHeader_authorization h
  have hdefault : c.defaultHeaders = c'.defaultHeaders := by
    rw [defaultHeaders, defaultHeaders, h.userAgent]
  have hall : (c.headers q).all Wire.isHeader = (c'.headers q).all Wire.isHeader := by
    simp only [headers, List.all_append, hlegal, hlegal', hdefault]
  have hheaders := filter_headers c q
  rw [hdefault, ← filter_headers c' q] at hheaders
  have hname : "authorization" ≠ "content-type" := by decide
  rw [wire?, wire?, hall, h.base]
  split
  · simp only [Option.map_some, WireRequest.redact, apply_ite (List.filter _),
      Wire.filter_ne_withContentType hname, hheaders]
  · rfl

theorem map_redact_next {hops hops' : List Hop} (h : hops.map Hop.redact = hops'.map Hop.redact) :
    (hops.map (·.next)).map WireRequest.redact = (hops'.map (·.next)).map WireRequest.redact := by
  have hnext := congrArg (List.map Hop.next) h
  simpa only [List.map_map, Function.comp_def, Hop.redact] using hnext

theorem redact_send (h : c.Twins c') (ht : t.Alike t') (q : Request) :
    (c.send t q).redact = (c'.send t' q).redact := by
  rw [send, send]
  cases q.verify with
  | error e => rfl
  | ok =>
    have hwire := redact_wire? h q
    cases hw : c.wire? q with
    | none =>
      rw [hw, Option.map_none, eq_comm, Option.map_eq_none_iff] at hwire
      simp only [hwire]
    | some w =>
      rw [hw, Option.map_some, eq_comm, Option.map_eq_some_iff] at hwire
      obtain ⟨w', hw', hredact⟩ := hwire
      have hdelivery := ht w w' hredact.symm
      simp only [hw']
      generalize t w = d, t' w' = d' at hdelivery ⊢
      cases d with
      | unreachable =>
        cases d' with
        | unreachable => rfl
        | delivered => cases hdelivery
      | delivered hops last =>
        cases d' with
        | unreachable => cases hdelivery
        | delivered hops' last' =>
          obtain ⟨hhops, rfl⟩ := Delivery.delivered.inj hdelivery
          simp only [Exchange.redact, List.map_cons, hredact, map_redact_next hhops]

theorem redact_submit (h : c.Twins c') (ht : t.Alike t') (method : Method) (path : String)
    (query : Entries String) (body : Entries Json) :
    (c.submit t method path query body).redact = (c'.submit t' method path query body).redact := by
  rw [submit_eq_send, submit_eq_send, redact_send h ht]

theorem redact_login (h : c.Twins c') (ht : t.Alike t') (login password : String) :
    (c.login t login password).redact = (c'.login t' login password).redact := by
  rw [Connection.login, Connection.login]
  cases Login.checkLogin login password with
  | error e => rfl
  | ok => simp only [Exchange.redact_andThen, Exchange.redact_mapError, redact_submit h ht]

theorem redact_logout (h : c.Twins c') (ht : t.Alike t') (code : String) :
    (c.logout t code).redact = (c'.logout t' code).redact := by
  rw [Connection.logout, Connection.logout]
  cases Login.checkLogout code with
  | error e => rfl
  | ok => simp only [Exchange.redact_andThen, Exchange.redact_mapError, redact_submit h ht]

theorem redact_fetch (h : c.Twins c') (ht : t.Alike t')
    (prepared : Except PreconditionError Request) :
    (c.fetch t prepared).redact = (c'.fetch t' prepared).redact := by
  cases prepared with
  | error e => rfl
  | ok q => simp only [fetch, Exchange.redact_andThen, Exchange.redact_mapError, redact_send h ht]

end Connection
end RestClient
