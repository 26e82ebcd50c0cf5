import RestClient.Client
import RestClient.Proofs.Except
import RestClient.Proofs.Http.Target
import RestClient.Proofs.Path.Rooted

namespace RestClient

def Transport.Reaches (t : Transport) (authorities : List String) : Prop :=
  ∀ w : WireRequest, w.authority ∈ authorities → t w ≠ .unreachable

theorem Transport.further_canned (authorities : List String) (reply : Option WireReply)
    (w : WireRequest) : (canned authorities reply w).further = [] := by
  rw [canned]
  split <;> rfl

theorem Transport.reaches_canned (authorities : List String) (reply : Option WireReply) :
    (canned authorities reply).Reaches authorities := by
  intro w hw
  simp [canned, hw]

/-- The last reply to what is sent, which the first request brings about. -/
def Transport.lastReply? (t : Transport) (sent : List WireRequest) : Option WireReply :=
  sent.head?.bind fun w => (t w).last?

/-- The extra headers of a request are legal, and none of them competes with the token. -/
def Request.Plain (q : Request) : Prop :=
  ∀ h ∈ q.headers.getD [], Wire.isHeader h ∧ Text.lowercase h.1 ≠ "authorization"

/-- The connection leads to a test host, and the wire can carry its own headers. -/
structure Connection.Sendable (c : Connection) : Prop where
  base : c.base.IsTest
  userAgent : Wire.isHeaderValue c.userAgent
  token : ∀ token, c.token = some token → Wire.isHeaderValue token.text

/-- What is on the wire is the request, bound to a base URL and a token. -/
structure WireRequest.Carries (w : WireRequest) (base : BaseUrl) (token : Option AccessToken)
    (q : Request) : Prop where
  authority : w.authority = base.authority
  method : w.method = q.method
  authorization : w.headers.filter (·.1 == "authorization") =
    token.toList.map fun token => ("authorization", token.text)
  body : w.body.isSome = q.body.isSome
  form : q.body.isSome → q.bodyType = some .form → w.body = some (Encoding.formText q.formFields)
  json : q.body.isSome → q.bodyType = some .json → w.body = some q.jsonBody.text

/-- The request is sent as it is, and after it only what redirections lead to; or its URL is too
long, and nothing is sent. -/
structure Exchange.Dispatches {ε α : Type} (x : Exchange ε α) (t : Transport) (base : BaseUrl)
    (token : Option AccessToken) (q : Request) (e : ε) : Prop where
  fits : q.Fits base → ∃ w, x.sent = w :: (t w).further ∧ w.Carries base token q
  exceeds : ¬ q.Fits base → x = .silent (.error e)

theorem Wire.filter_withContentType {name : String} (h : name ≠ "content-type") (type : BodyType)
    (headers : Entries String) :
    (withContentType type headers).filter (·.1 == name) = headers.filter (·.1 == name) := by
  have hne : ("content-type" == name) = false := by simpa using Ne.symm h
  cases type with
  | form =>
    have himp : ∀ h : String × String, (h.1 == name && h.1 != "content-type") = (h.1 == name) := by
      intro h
      by_cases hname : h.1 = name <;> simp_all
    simp [withContentType, hne, List.filter_filter, himp]
  | json =>
    rw [withContentType]
    split
    · rfl
    · simp [hne]

namespace Exchange

variable {ε ε' ε'' α β γ : Type} (x : Exchange ε α)

theorem mapError_mapError (f : ε → ε') (g : ε' → ε'') :
    (x.mapError f).mapError g = x.mapError (g ∘ f) := by
  obtain ⟨sent, result⟩ := x
  cases result <;> rfl

theorem mapError_andThen (f : α → Except ε β) (g : ε → ε') :
    (x.andThen f).mapError g = (x.mapError g).andThen fun a => (f a).mapError g := by
  obtain ⟨sent, result⟩ := x
  cases result <;> rfl

theorem result_of_error {x : Exchange ε α} {e : ε} (h : x.result = .error e) (g : ε → ε')
    (f : α → Except ε' β) : ((x.mapError g).andThen f).result = .error (g e) := by
  rw [andThen, mapError, h]
  rfl

theorem result_of_ok {x : Exchange ε α} {a : α} (h : x.result = .ok a) (g : ε → ε')
    (f : α → Except ε' β) : ((x.mapError g).andThen f).result = f a := by
  rw [andThen, mapError, h]
  rfl

theorem Dispatches.relay {t : Transport} {base : BaseUrl} {token : Option AccessToken} {q : Request}
    {x : Exchange ε α} {e : ε} (h : x.Dispatches t base token q e) (g : ε → ε')
    (f : α → Except ε' β) : ((x.mapError g).andThen f).Dispatches t base token q (g e) where
  fits hfits := h.fits hfits
  exceeds hexceeds := by
    rw [h.exceeds hexceeds]
    rfl

/-- A test service follows no redirection. -/
theorem Dispatches.exists_sent_canned {authorities : List String} {reply : Option WireReply}
    {base : BaseUrl} {token : Option AccessToken} {q : Request} {x : Exchange ε α} {e : ε}
    (h : x.Dispatches (.canned authorities reply) base token q e) (hfits : q.Fits base) :
    ∃ w, x.sent = [w] ∧ w.Carries base token q := by
  obtain ⟨w, hsent, hcarries⟩ := h.fits hfits
  rw [Transport.further_canned] at hsent
  exact ⟨w, hsent, hcarries⟩

theorem andThen_andThen (f : α → Except ε β) (g : β → Except ε γ) :
    (x.andThen f).andThen g = x.andThen fun a => (f a).bind g := by
  obtain ⟨sent, result⟩ := x
  cases result <;> rfl

end Exchange

theorem Request.startsWith_slash_pathAndQuery {q : Request} (h : q.path.startsWith "/") :
    q.pathAndQuery.startsWith "/" := by
  rw [pathAndQuery]
  split
  · exact h
  · exact Path.startsWith_slash_append (Path.startsWith_slash_append h "?") _

/-- A request with a query and, where the method carries one, a form body. -/
def Request.form (method : Method) (path : String) (query : Entries String) (body : Entries Json) :
    Request where
  method := method
  path := path
  query := query
  body := if method.carriesBody then some body else none
  bodyType := if method.carriesBody then some .form else none

theorem Request.verify_form (method : Method) (path : String) (query : Entries String)
    (body : Entries Json) : (form method path query body).verify = .ok () := by
  cases method <;> rfl

namespace Connection

variable {c : Connection} {t : Transport} {q : Request}

theorem submit_eq_send (c : Connection) (t : Transport) (method : Method) (path : String)
    (query : Entries String) (body : Entries Json) :
    c.submit t method path query body = c.send t (.form method path query body) := by
  cases method <;> rfl

theorem filter_authorization_headers (hq : q.Plain) :
    ((c.headers q).map fun (name, value) => (Text.lowercase name, value)).filter
      (·.1 == "authorization") = c.token.toList.map fun token => ("authorization", token.text) := by
  -- The wire knows lowered names only, and none of the connection's other headers has this one.
  have huserAgent : Text.lowercase "User-Agent" = "user-agent" := by decide +kernel
  have haccept : Text.lowercase "Accept" = "accept" := by decide +kernel
  have hauthorization : Text.lowercase "Authorization" = "authorization" := by decide +kernel
  have hextra : ((q.headers.getD []).map fun (name, value) => (Text.lowercase name, value)).filter
      (·.1 == "authorization") = [] := by
    rw [List.filter_eq_nil_iff]
    intro h hmem
    obtain ⟨extra, hextra, rfl⟩ := List.mem_map.mp hmem
    simpa using (hq extra hextra).2
  simp only [headers, List.map_append, List.filter_append, hextra, List.append_nil, authorization]
  cases c.token with
  | none => simp [defaultHeaders, huserAgent, haccept]
  | some token => simp [defaultHeaders, huserAgent, haccept, hauthorization]

theorem all_isHeader_authorization_iff (c : Connection) :
    c.authorization.all Wire.isHeader ↔
      ∀ token, c.token = some token → Wire.isHeaderValue token.text := by
  have hname : Wire.isHeaderName "Authorization" := by decide +kernel
  rw [authorization]
  cases c.token with
  | none => simp
  | some token => simp [Wire.isHeader, hname]

theorem all_isHeader_headers_iff (hq : q.Plain) :
    (c.headers q).all Wire.isHeader ↔
      Wire.isHeaderValue c.userAgent ∧
        ∀ token, c.token = some token → Wire.isHeaderValue token.text := by
  have hname : Wire.isHeaderName "User-Agent" := by decide +kernel
  have huserAgent : Wire.isHeader ("User-Agent", c.userAgent) = Wire.isHeaderValue c.userAgent := by
    rw [Wire.isHeader, hname, Bool.true_and]
  have haccept : Wire.isHeader ("Accept", "application/json") := by decide +kernel
  have hdefault : c.defaultHeaders.all Wire.isHeader = Wire.isHeaderValue c.userAgent := by
    simp only [defaultHeaders, List.all_cons, huserAgent, haccept, List.all_nil, Bool.and_true]
  have hextra : (q.headers.getD []).all Wire.isHeader :=
    List.all_eq_true.mpr fun h hmem => (hq h hmem).1
  rw [headers, List.all_append, List.all_append, hdefault, hextra, Bool.and_true, Bool.and_eq_true,
    all_isHeader_authorization_iff]

/-- A request with legal headers whose URL is not too long is on the wire as it is, bound to the
base URL if that is where its own URL leads. -/
theorem exists_wire_of_legal (hq : q.Plain) (hlegal : (c.headers q).all Wire.isHeader)
    (hfits : q.Fits c.base) :
    ∃ w, c.wire? q = some w ∧
      w.authority = (Destination.ofUrl c.base.scheme (c.base.join q.pathAndQuery)).authority ∧
      (w.authority = c.base.authority → w.Carries c.base c.token q) := by
  rw [wire?, if_pos ⟨hlegal, hfits⟩]
  refine ⟨_, rfl, rfl, fun hauthority => ⟨hauthority, rfl, ?_, ?_, ?_, ?_⟩⟩
  · dsimp only
    -- The headers of a body replace content types, and no others.
    split
    · rw [Wire.filter_withContentType (by decide), filter_authorization_headers hq]
    · exact filter_authorization_headers hq
  · exact Option.isSome_map
  · intro hbody htype
    obtain ⟨fields, hfields⟩ := Option.isSome_iff_exists.mp hbody
    simp [hfields, htype, Wire.bodyText]
  · intro hbody htype
    obtain ⟨fields, hfields⟩ := Option.isSome_iff_exists.mp hbody
    simp [hfields, htype, Wire.bodyText]

theorem exists_wire (hc : c.Sendable) (hq : q.Plain) (hpath : q.path.startsWith "/")
    (hfits : q.Fits c.base) : ∃ w, c.wire? q = some w ∧ w.Carries c.base c.token q := by
  have hlegal := (all_isHeader_headers_iff hq).mpr ⟨hc.userAgent, hc.token⟩
  obtain ⟨w, hw, hauthority, hcarries⟩ := exists_wire_of_legal hq hlegal hfits
  have hbase := Destination.authority_ofUrl_join_of_isTest hc.base
    (Request.startsWith_slash_pathAndQuery hpath)
  exact ⟨w, hw, hcarries (hauthority.trans hbase)⟩

theorem send_of_invalid {e : RequestError} (h : q.verify = .error e) :
    c.send t q = .silent (.error (.invalid e)) := by
  rw [send, h]

theorem send_of_illegal (hv : q.verify = .ok ())
    (h : ¬ ((c.headers q).all Wire.isHeader ∧ q.Fits c.base)) :
    c.send t q = .silent (.error .network) := by
  have hwire : c.wire? q = none := if_neg h
  rw [send, hv]
  simp only [hwire]

theorem send_of_delivered {w : WireRequest} (hv : q.verify = .ok ()) (hw : c.wire? q = some w)
    (ht : t w ≠ .unreachable) : c.send t q = ⟨w :: (t w).further, resultOf (t w).last?⟩ := by
  rw [send, hv]
  simp only [hw]
  cases hdelivery : t w with
  | unreachable => exact absurd hdelivery ht
  | delivered hops last => rfl

/-- The request is dispatched first of all, or fails as too long. -/
theorem dispatches_of_valid (hc : c.Sendable) (ht : t.Reaches BaseUrl.testAuthorities)
    (hq : q.Plain) (hpath : q.path.startsWith "/") (hv : q.verify = .ok ()) :
    (c.send t q).Dispatches t c.base c.token q .network where
  fits hfits := by
    obtain ⟨w, hw, hcarries⟩ := exists_wire hc hq hpath hfits
    have hreach : t w ≠ .unreachable := ht w (hcarries.authority ▸ hc.base.authority)
    exact ⟨w, by rw [send_of_delivered hv hw hreach], hcarries⟩
  exceeds hexceeds := send_of_illegal hv (mt And.right hexceeds)

/-- What comes of sending a request: it is refused, the wire cannot carry it, it reaches nobody, or
it is delivered and the last reply decides. -/
inductive Sends (c : Connection) (t : Transport) (q : Request) : Exchange SendError Response → Prop
  | invalid {e : RequestError} (hv : q.verify = .error e) :
      Sends c t q (.silent (.error (.invalid e)))
  | illegal (hv : q.verify = .ok ()) (hw : c.wire? q = none) :
      Sends c t q (.silent (.error .network))
  | unreachable {w : WireRequest} (hv : q.verify = .ok ()) (hw : c.wire? q = some w)
      (ht : t w = .unreachable) : Sends c t q (.silent (.error .network))
  | delivered {w : WireRequest} (hv : q.verify = .ok ()) (hw : c.wire? q = some w)
      (ht : t w ≠ .unreachable) : Sends c t q ⟨w :: (t w).further, resultOf (t w).last?⟩

theorem sends (c : Connection) (t : Transport) (q : Request) : Sends c t q (c.send t q) := by
  cases hv : q.verify with
  | error e =>
    rw [send_of_invalid hv]
    exact .invalid hv
  | ok =>
    cases hw : c.wire? q with
    | none =>
      rw [send, hv]
      simp only [hw]
      exact .illegal hv hw
    | some w =>
      by_cases ht : t w = .unreachable
      · rw [send, hv]
        simp only [hw, ht]
        exact .unreachable hv hw ht
      · rw [send_of_delivered hv hw ht]
        exact .delivered hv hw ht

theorem wire?_of_head?_sent {w : WireRequest} (h : (c.send t q).sent.head? = some w) :
    c.wire? q = some w := by
  have hsends := sends c t q
  generalize c.send t q = x at h hsends
  cases hsends with
  | invalid | illegal | unreachable => cases h
  | delivered hv hw => rw [hw, ← h, List.head?_cons]

/-- Whether a request that is sent succeeds is up to the last reply. -/
theorem result_send_of_sent (h : (c.send t q).sent ≠ []) :
    (c.send t q).result = resultOf (t.lastReply? (c.send t q).sent) := by
  have hsends := sends c t q
  generalize c.send t q = x at h hsends ⊢
  cases hsends with
  | invalid | illegal | unreachable => exact absurd rfl h
  | delivered => rfl

theorem result_send_of_silent (h : (c.send t q).sent = []) :
    (c.send t q).result = .error .network ∨ ∃ e, (c.send t q).result = .error (.invalid e) := by
  have hsends := sends c t q
  generalize c.send t q = x at h hsends ⊢
  cases hsends with
  | @invalid e => exact .inr ⟨e, rfl⟩
  | illegal | unreachable => exact .inl rfl
  | delivered => cases h

/-- A verified request fails for no reason of its own. -/
theorem send_result_ne_invalid (h : q.verify = .ok ()) (e : RequestError) :
    (c.send t q).result ≠ .error (.invalid e) := by
  have hsends := sends c t q
  generalize c.send t q = x at hsends ⊢
  cases hsends with
  | invalid hv => cases h.symm.trans hv
  | illegal | unreachable => simp [Exchange.silent]
  | @delivered w =>
    dsimp only
    cases (t w).last? with
    | none => simp [resultOf]
    | some reply =>
      rw [resultOf]
      cases (Response.ofReply reply).accept <;> simp

theorem fetch_result_ne_invalid {prepared : Except PreconditionError Request}
    (h : ∀ q, prepared = .ok q → q.verify = .ok ()) (e : RequestError) :
    (c.fetch t prepared).result ≠ .error (.transport (.invalid e)) := by
  cases prepared with
  | error p => simp [fetch, Exchange.silent]
  | ok q =>
    rw [fetch]
    cases hr : (c.send t q).result with
    | ok r => simp [Exchange.result_of_ok hr]
    | error s =>
      have hs : s ≠ .invalid e := fun hs => send_result_ne_invalid (h q rfl) e (hs ▸ hr)
      simpa [Exchange.result_of_error hr] using hs

end Connection
end RestClient
