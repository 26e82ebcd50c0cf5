import RestClient.Proofs.Http.Reply
import RestClient.Proofs.Session.Dispatch

namespace RestClient.Session

/-- The status that a failure reports, as an error of the service. -/
def Failure.status? : Failure → Option Nat
  | .precondition e => (ApiError.precondition e).status?
  | .send e => (ApiError.transport e).status?
  | .api e => e.status?
  | _ => none

/-- The body of the response that is answered. -/
def Answer.body? : Answer → Option Json
  | .response r => some r.body
  | .body v => some v
  | _ => none

def Step.isLogin : Step → Bool
  | .login .. => true
  | _ => false

/-- What comes of a call that gets a reply. -/
structure Decides (step : Step) (reply : WireReply) (result : Except Failure Answer) : Prop where
  accepted : step.isLogin = false →
    ((∃ a, result = .ok a ∧ a.body? = some (Response.parseBody reply.text)) ↔ reply.Succeeds)
  rejected : ¬ reply.Succeeds →
    ∃ e, result = .error (step.failure (.rejected e)) ∧ e.Reports reply
  login : step.isLogin → reply.Succeeds →
    ((∃ l, result = .ok (.login l)) ↔ ∃ fields, Response.parseBody reply.text = .object fields)
  unexpected : step.isLogin → reply.Succeeds →
    (¬ ∃ fields, Response.parseBody reply.text = .object fields) →
      ∃ reason, result = .error (.api (.unexpectedResponse "login" reason))

variable {c : Connection} {t : Transport} {q : Request} {step : Step} {reply : WireReply}

theorem exists_of_refused {x : Exchange Failure Answer} (h : refused x) :
    ∃ f, x.result = .error f ∧ f.isRefusal := by
  rw [refused] at h
  split at h
  case h_1 f hf => exact ⟨f, hf, h⟩
  case h_2 => cases h

theorem status?_of_isRefusal {f : Failure} (h : f.isRefusal) : f.status? = none := by
  cases f with
  | send e => cases e <;> first | rfl | cases h
  | api e =>
    cases e with
    | transport e => cases e <;> first | rfl | cases h
    | _ => rfl
  | _ => rfl

theorem status?_failure (step : Step) (e : SendError) :
    (step.failure e).status? = (ApiError.transport e).status? := by
  cases step <;> rfl

/-- A login succeeds with an object, and with nothing else. -/
theorem finish_login (h : step.isLogin) (r : Response) :
    (∃ fields, r.body = .object fields ∧ step.finish r = .ok (.login (.ofFields fields))) ∨
      ((¬ ∃ fields, r.body = .object fields) ∧
        ∃ reason, step.finish r = .error (.api (.unexpectedResponse "login" reason))) := by
  cases step with
  | login =>
    rw [Step.finish]
    cases r.body with
    | object fields => exact .inl ⟨fields, rfl, rfl⟩
    | _ => exact .inr ⟨by simp, _, rfl⟩
  | _ => cases h

theorem finish_of_not_login (hcall : step.isCall) (h : step.isLogin = false) (r : Response) :
    ∃ a, step.finish r = .ok a ∧ a.body? = some r.body := by
  cases step with
  | inspect | clone | setBase | setToken | clearToken | build | describe => cases hcall
  | login => cases h
  | _ => exact ⟨_, rfl, rfl⟩

theorem result_relayed (step : Step) (h : t.lastReply? (c.send t q).sent = some reply) :
    (reply.Succeeds → (relayed c t step q).result = step.finish (.ofReply reply)) ∧
      (¬ reply.Succeeds → ∃ e,
        (relayed c t step q).result = .error (step.failure (.rejected e)) ∧ e.Reports reply) := by
  have hsent : (c.send t q).sent ≠ [] := by
    intro hsilent
    rw [hsilent] at h
    cases h
  have hresult := Connection.result_send_of_sent hsent
  rw [h] at hresult
  constructor
  · intro hsucceeds
    rw [Connection.resultOf_of_succeeds hsucceeds] at hresult
    exact Exchange.result_of_ok hresult _ _
  · intro hfails
    obtain ⟨e, he, hreports⟩ := Connection.resultOf_of_not_succeeds hfails
    exact ⟨e, Exchange.result_of_error (hresult.trans he) _ _, hreports⟩

theorem decides_relayed (hcall : step.isCall) (h : t.lastReply? (c.send t q).sent = some reply) :
    Decides step reply (relayed c t step q).result := by
  obtain ⟨hok, herror⟩ := result_relayed step h
  have hbody := Response.body_ofReply reply
  constructor
  case accepted =>
    intro hlogin
    constructor
    · rintro ⟨a, ha, -⟩
      by_contra hfails
      obtain ⟨e, he, -⟩ := herror hfails
      rw [ha] at he
      cases he
    · intro hsucceeds
      rw [hok hsucceeds, ← hbody]
      exact finish_of_not_login hcall hlogin _
  case rejected => exact herror
  case login =>
    intro hlogin hsucceeds
    rw [hok hsucceeds, ← hbody]
    rcases finish_login hlogin (Response.ofReply reply) with
      ⟨fields, hfields, hfinish⟩ | ⟨hnone, reason, hfinish⟩
    · exact iff_of_true ⟨_, hfinish⟩ ⟨fields, hfields⟩
    · refine iff_of_false ?_ hnone
      rintro ⟨l, hl⟩
      rw [hfinish] at hl
      cases hl
  case unexpected =>
    intro hlogin hsucceeds hnone
    rw [hok hsucceeds]
    rw [← hbody] at hnone
    rcases finish_login hlogin (Response.ofReply reply) with ⟨fields, hfields, -⟩ | ⟨-, hreason⟩
    · exact absurd ⟨fields, hfields⟩ hnone
    · exact hreason

theorem result_relayed_of_closed (step : Step) (hsent : (c.send t q).sent ≠ [])
    (h : t.lastReply? (c.send t q).sent = none) :
    (relayed c t step q).result = .error (step.failure .network) := by
  have hresult := Connection.result_send_of_sent hsent
  rw [h] at hresult
  exact Exchange.result_of_error hresult _ _

/-- Where no reply comes last, the failure has no status to report. -/
theorem result_relayed_of_unanswered (step : Step) (h : t.lastReply? (c.send t q).sent = none) :
    ∃ f, (relayed c t step q).result = .error f ∧ f.status? = none := by
  by_cases hsent : (c.send t q).sent = []
  · rcases Connection.result_send_of_silent hsent with hresult | ⟨e, hresult⟩ <;>
      exact ⟨_, Exchange.result_of_error hresult _ _, status?_failure step _⟩
  · exact ⟨_, result_relayed_of_closed step hsent h, status?_failure step _⟩

/-- A failure reports a status just where the last reply has it and is no success. -/
theorem reports_relayed_iff (c : Connection) (t : Transport) (step : Step) (q : Request)
    (status : Nat) :
    (∃ f, (relayed c t step q).result = .error f ∧ f.status? = some status) ↔
      ∃ reply, t.lastReply? (c.send t q).sent = some reply ∧ ¬ reply.Succeeds ∧
        reply.status = status := by
  cases h : t.lastReply? (c.send t q).sent with
  | none =>
    obtain ⟨e, he, hnone⟩ := result_relayed_of_unanswered step h
    simp [he, hnone]
  | some reply =>
    obtain ⟨hok, herror⟩ := result_relayed step h
    by_cases hsucceeds : reply.Succeeds
    · refine iff_of_false ?_ ?_
      · rintro ⟨f, hf, hstatus⟩
        rw [hok hsucceeds] at hf
        obtain ⟨reason, rfl⟩ := exists_of_finish_eq_error hf
        cases hstatus
      · rintro ⟨reply', hreply, hfails, -⟩
        exact hfails (Option.some.inj hreply ▸ hsucceeds)
    · obtain ⟨e, he, hreports⟩ := herror hsucceeds
      have hcode : (step.failure (.rejected e)).status? = some reply.status := by
        rw [status?_failure, ← hreports.code]
        rfl
      simp [he, hcode, hsucceeds]

/-- Whatever was done before, the last reply to a call decides its result: it succeeds with the body
of that reply if and only if the status is one of success, and its failure is otherwise what the
reply says. Where something was sent and no reply comes last, the network has failed. -/
theorem reply_result (k : Config) (before : List (Transport × Step)) (t : Transport) (step : Step)
    (hcall : step.isCall) :
    let x := (((ofConfig k).run before).1.step t step).2
    (∀ reply, t.lastReply? x.sent = some reply → Decides step reply x.result) ∧
      (∀ status, (∃ f, x.result = .error f ∧ f.status? = some status) ↔
        ∃ reply, t.lastReply? x.sent = some reply ∧ ¬ reply.Succeeds ∧ reply.status = status) ∧
      (x.sent ≠ [] → t.lastReply? x.sent = none → x.result = .error (step.failure .network)) := by
  intro x
  have hshared := shared_run (shared_ofConfig k) before
  rcases relays_step hshared (built_run k before) t hcall with
    ⟨-, hrefused, hsilent⟩ | @⟨q, -, -, -, hx⟩
  · have hsilent : x.sent = [] := hsilent
    obtain ⟨f, hf, hrefusal⟩ := exists_of_refused (x := x) hrefused
    simp [hsilent, hf, status?_of_isRefusal hrefusal, Transport.lastReply?]
  · have hx : x = relayed _ t step q := hx
    rw [hx]
    refine ⟨fun reply h => decides_relayed hcall h, reports_relayed_iff _ t step q, ?_⟩
    exact fun hsent hlast => result_relayed_of_closed step hsent hlast

/-- An error field that is null is quoted too, the fields change their places, and of two ids that
are written differently the first is named. -/
theorem rejected_logout_result :
    let k : Config := ⟨⟨"http", "a.test"⟩, none, none⟩
    let body : Json :=
      .object [("message", .null), ("trace", .int (-1)), ("error", .array [.string "gone"])]
    let reply : WireReply :=
      ⟨422, [("X-REQUEST-ID", "r-1"), ("x-request-id", "r-2")], body.text⟩
    let t : Transport := fun _ => .delivered [] reply
    let before := [(Transport.unreachable, Step.setToken 0 "secret")]
    let x := (((ofConfig k).run before).1.step t (.logout 0 "secret")).2
    (∃ e, x.result = .error (.api (.transport (.rejected e))) ∧ e.reference = some "r-1" ∧
      Response.parseBody e.message = .object [("error", .array [.string "gone"]),
        ("message", .null), ("error_reference",
          .string "If you report this error, please include this id: r-1.")]) ∧
      ∃ f, x.result = .error f ∧ f.status? = some 422 := by
  intro k body reply t before x
  have hsent : x.sent.map (·.target) = ["/tokens/me"] := by decide +kernel
  obtain ⟨w, hw, -⟩ := List.map_eq_singleton_iff.mp hsent
  have hlast : t.lastReply? x.sent = some reply := by rw [hw]; rfl
  have hfails : ¬ reply.Succeeds := fun h => absurd h.2 (by decide)
  obtain ⟨hdecides, hstatus, -⟩ := reply_result k before t (.logout 0 "secret") rfl
  obtain ⟨e, he, hreports⟩ := (hdecides reply hlast).rejected hfails
  have hbody : e.body = body := by
    have hwhole : body.WholeNumbers := by decide +kernel
    rw [hreports.body]
    exact (Response.parseBody_text_iff hwhole).mpr ⟨by decide +kernel, by decide +kernel⟩
  have hid : reply.requestId? = some "r-1" := by decide +kernel
  have hpresent : ∃ key ∈ Response.errorKeys, (e.body.get? key).isSome :=
    ⟨"error", by decide, by rw [hbody]; rfl⟩
  obtain ⟨fields, hmessage, hkeys, hvalues⟩ :=
    hreports.quoted (by rw [hbody]; decide +kernel) hpresent
  rw [hbody] at hkeys hvalues
  obtain ⟨⟨_, error⟩, rest, rfl, rfl, hrest⟩ := List.map_eq_cons_iff.mp hkeys
  obtain ⟨⟨_, message⟩, rest, rfl, rfl, hnil⟩ := List.map_eq_cons_iff.mp hrest
  obtain rfl := List.map_eq_nil_iff.mp hnil
  obtain rfl := Option.some.inj (hvalues _ List.mem_cons_self)
  obtain rfl := Option.some.inj (hvalues _ (List.mem_cons_of_mem _ List.mem_cons_self))
  refine ⟨⟨e, he, hreports.reference.trans hid, ?_⟩, (hstatus 422).mpr ?_⟩
  · rw [hmessage, hreports.reference, hid]
    rfl
  · exact ⟨reply, hlast, hfails, rfl⟩

/-- A call whose first reply is no success can succeed with a later one. -/
theorem redirected_reply_result :
    let k : Config := ⟨⟨"http", "a.test"⟩, none, none⟩
    let t := Transport.redirecting
    let x := ((ofConfig k).step t (.logout 0 "code")).2
    ∃ w hop, x.sent.head? = some w ∧ (t w).hops = [hop] ∧ hop.reply.status = 302 ∧
      ¬ hop.reply.Succeeds ∧
      (x.result.toOption.bind Answer.body?).map Json.text = some "\x7b\x7d" := by
  intro k t x
  have hsent : x.sent.map (·.target) = ["/tokens/me", "/final"] := by decide +kernel
  obtain ⟨w, rest, hw, -, -⟩ := List.map_eq_cons_iff.mp hsent
  refine ⟨w, _, by rw [hw]; rfl, rfl, rfl, fun h => absurd h.2 (by decide : ¬ 302 ≤ 299), ?_⟩
  decide +kernel

end RestClient.Session
