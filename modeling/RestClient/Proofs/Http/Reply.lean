import RestClient.Http.Connection
import RestClient.Proofs.Except
import RestClient.Proofs.Http.Body
import RestClient.Proofs.Http.Headers

namespace RestClient

open Json

def WireReply.Succeeds (reply : WireReply) : Prop := 200 ≤ reply.status ∧ reply.status ≤ 299

namespace Response

variable {body field : Json} {key : String}

/-- The error fields of a body, in the order of their list. -/
def quotedFields (body : Json) : Entries Json :=
  errorKeys.filterMap fun key => (body.get? key).map (key, ·)

/-- The sentence that names the id of a request, if there is one. -/
def referenceFields (id? : Option String) : Entries Json :=
  id?.toList.map fun id => ("error_reference", .string (referenceText id))

theorem errorText_eq (r : Response) :
    r.errorText = if quotedFields r.body = [] then r.body.text
      else (Json.object (quotedFields r.body ++ referenceFields r.requestId?)).text := by
  rw [errorText, ← quotedFields]
  split
  case h_1 hnone => rw [if_pos hnone]
  case h_2 hsome => rw [if_neg hsome, referenceFields]

theorem keys_quotedFields (body : Json) :
    (quotedFields body).keys = errorKeys.filter fun key => (body.get? key).isSome :=
  Entries.keys_filterMap

theorem get?_of_mem_quotedFields (h : (key, field) ∈ quotedFields body) :
    body.get? key = some field := by
  obtain ⟨key', -, hfield⟩ := List.mem_filterMap.mp h
  obtain ⟨field', hget, hpair⟩ := Option.map_eq_some_iff.mp hfield
  obtain ⟨rfl, rfl⟩ := Prod.mk.inj hpair
  exact hget

theorem quotedFields_eq_nil_iff :
    quotedFields body = [] ↔ ∀ key ∈ errorKeys, body.get? key = none := by
  simp [quotedFields]

theorem keys_referenceFields_sublist (id? : Option String) :
    (referenceFields id?).keys.Sublist ["error_reference"] := by
  cases id? with
  | none => exact List.nil_sublist _
  | some id => exact List.Sublist.refl _

theorem nodup_keys_quoted (body : Json) (id? : Option String) :
    (quotedFields body ++ referenceFields id?).keys.Nodup := by
  have hall : (errorKeys ++ ["error_reference"]).Nodup := by decide
  have hquoted : (quotedFields body).keys.Sublist errorKeys := by
    rw [keys_quotedFields]
    exact List.filter_sublist
  refine List.Sublist.nodup ?_ hall
  rw [Entries.keys, List.map_append]
  exact hquoted.append (keys_referenceFields_sublist id?)

theorem forall_mem_quoted {P : Json → Prop}
    (hfields : ∀ key field, body.get? key = some field → P field)
    (htexts : ∀ text, P (.string text)) (id? : Option String) :
    ∀ f ∈ quotedFields body ++ referenceFields id?, P f.2 := by
  intro f hf
  rcases List.mem_append.mp hf with hf | hf
  · exact hfields f.1 f.2 (get?_of_mem_quotedFields hf)
  · obtain ⟨id, -, rfl⟩ := List.mem_map.mp hf
    exact htexts _

theorem wellFormed_quoted {d : Nat} (h : WellFormed (d + 1) body) (id? : Option String) :
    WellFormed (d + 1) (.object (quotedFields body ++ referenceFields id?)) := by
  have hfields := forall_mem_quoted (fun _ _ => wellFormed_of_get? h) (wellFormed_string d) id?
  exact wellFormed_object_iff.mpr ⟨nodup_keys_quoted body id?, hfields⟩

theorem wholeNumbers_quoted (h : body.WholeNumbers) (id? : Option String) :
    (Json.object (quotedFields body ++ referenceFields id?)).WholeNumbers := by
  have hfields := forall_mem_quoted (fun _ _ => wholeNumbers_of_get? h) wholeNumbers_string id?
  exact wholeNumbers_object_iff.mpr hfields

/-- The message of a rejection is JSON that reads back as what it was made of. -/
theorem parseBody_errorText {r : Response} (hformed : WellFormed maxDepth r.body)
    (hwhole : r.body.WholeNumbers) :
    parseBody r.errorText = if quotedFields r.body = [] then r.body
      else .object (quotedFields r.body ++ referenceFields r.requestId?) := by
  rw [errorText_eq]
  split
  · exact (parseBody_text_iff hwhole).mpr hformed
  · exact (parseBody_text_iff (wholeNumbers_quoted hwhole _)).mpr (wellFormed_quoted hformed _)

/-- A rejection tells what the reply says. Where the numbers of the body are whole, the message is
the whole body or, where there are any, exactly its error fields in the order of their list,
followed by the sentence that names the request's id. -/
structure Rejection.Reports (e : Rejection) (reply : WireReply) : Prop where
  code : e.code = reply.status
  body : e.body = parseBody reply.text
  reference : e.reference = reply.requestId?
  whole : e.body.WholeNumbers → (∀ key ∈ errorKeys, e.body.get? key = none) →
    parseBody e.message = e.body
  quoted : e.body.WholeNumbers → (∃ key ∈ errorKeys, (e.body.get? key).isSome) →
    ∃ fields : Entries Json,
      parseBody e.message = .object (fields ++ referenceFields e.reference) ∧
      fields.keys = (errorKeys.filter fun key => (e.body.get? key).isSome) ∧
      ∀ f ∈ fields, e.body.get? f.1 = some f.2

theorem body_ofReply (reply : WireReply) : (ofReply reply).body = parseBody reply.text := rfl

theorem isOk_ofReply_iff {reply : WireReply} : (ofReply reply).isOk ↔ reply.Succeeds := by
  rw [isOk, WireReply.Succeeds, Bool.and_eq_true, decide_eq_true_iff, decide_eq_true_iff]
  rfl

theorem accept_of_succeeds {reply : WireReply} (h : reply.Succeeds) :
    (ofReply reply).accept = .ok (ofReply reply) := by
  rw [accept, if_pos (isOk_ofReply_iff.mpr h)]

theorem reports_of_ofReply {r : Response} {reply : WireReply} (hr : r = ofReply reply) :
    Rejection.Reports ⟨r.code, r.errorText, r.body, r.requestId?⟩ reply := by
  have hbody : r.body = parseBody reply.text := by rw [hr, body_ofReply]
  have hformed : WellFormed maxDepth r.body := hbody ▸ wellFormed_parseBody reply.text
  constructor
  case code => exact congrArg Response.code hr
  case body => exact hbody
  case reference => rw [hr, requestId?_ofReply]
  case whole =>
    intro hwhole hnone
    rw [parseBody_errorText hformed hwhole, if_pos (quotedFields_eq_nil_iff.mpr hnone)]
  case quoted =>
    rintro hwhole ⟨key, hkey, hsome⟩
    have hquoted : quotedFields r.body ≠ [] := by
      intro hnil
      have hnone := quotedFields_eq_nil_iff.mp hnil key hkey
      exact Option.ne_none_iff_isSome.mpr hsome hnone
    rw [parseBody_errorText hformed hwhole, if_neg hquoted]
    exact ⟨quotedFields r.body, rfl, keys_quotedFields r.body,
      fun f hf => get?_of_mem_quotedFields hf⟩

theorem accept_of_not_succeeds {reply : WireReply} (h : ¬ reply.Succeeds) :
    ∃ e, (ofReply reply).accept = .error e ∧ e.Reports reply := by
  rw [accept, if_neg (mt isOk_ofReply_iff.mp h)]
  exact ⟨_, rfl, reports_of_ofReply rfl⟩

end Response

namespace Connection

variable {reply : WireReply}

theorem resultOf_of_succeeds (h : reply.Succeeds) :
    resultOf (some reply) = .ok (.ofReply reply) := by
  rw [resultOf, Response.accept_of_succeeds h, Except.mapError_ok]

theorem resultOf_of_not_succeeds (h : ¬ reply.Succeeds) :
    ∃ e, resultOf (some reply) = .error (.rejected e) ∧ e.Reports reply := by
  obtain ⟨e, he, hreports⟩ := Response.accept_of_not_succeeds h
  exact ⟨e, by rw [resultOf, he, Except.mapError_error], hreports⟩

theorem exists_of_resultOf_eq_ok {last : Option WireReply} {r : Response}
    (h : resultOf last = .ok r) : ∃ reply, last = some reply ∧ reply.Succeeds := by
  cases last with
  | none => cases h
  | some reply =>
    refine ⟨reply, rfl, ?_⟩
    by_contra hfails
    obtain ⟨e, he, -⟩ := resultOf_of_not_succeeds hfails
    rw [he] at h
    cases h

end Connection
end RestClient
