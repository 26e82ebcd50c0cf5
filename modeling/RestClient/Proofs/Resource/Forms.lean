import RestClient.Proofs.Encoding.Reading
import RestClient.Proofs.Http.RequestTarget
import RestClient.Proofs.Resource.Routing

namespace RestClient

/-- A form field holds the text of an entry of the body, under the name of the entry. -/
def Request.IsFieldOf (entry : String × Json) (field : String × String) : Prop :=
  field.1 = entry.1 ∧ entry.2.paramText? = some field.2

namespace Request

theorem forall₂_isFieldOf {fields : Entries Json} (h : ∀ e ∈ fields, e.2 ≠ .null) :
    List.Forall₂ IsFieldOf fields
      (fields.filterMap fun (key, value) => value.paramText?.map (key, ·)) := by
  induction fields with
  | nil => exact .nil
  | cons entry fields ih =>
    obtain ⟨key, value⟩ := entry
    obtain ⟨hvalue, hfields⟩ := List.forall_mem_cons.mp h
    obtain ⟨text, htext⟩ := Option.ne_none_iff_exists'.mp (mt Json.paramText?_eq_none_iff.mp hvalue)
    have htext : value.paramText? = some text := htext
    simp only [List.filterMap_cons, htext, Option.map_some]
    exact .cons ⟨rfl, htext⟩ (ih hfields)

theorem keys_eq_of_forall₂ {fields : Entries Json} {texts : Entries String}
    (h : List.Forall₂ IsFieldOf fields texts) : texts.keys = fields.keys := by
  induction h with
  | nil => rfl
  | cons hfield _ ih => rw [Entries.keys, List.map_cons, hfield.1, ← Entries.keys, ih]; rfl

theorem mem_formFields {q : Request} {name text : String} :
    (name, text) ∈ q.formFields ↔
      ∃ v, (name, v) ∈ q.body.getD [] ∧ v.paramText? = some text := by
  simp only [formFields, List.mem_filterMap, Option.map_eq_some_iff, Prod.exists, Prod.mk.injEq]
  constructor
  · rintro ⟨_, v, hentry, _, htext, rfl, rfl⟩
    exact ⟨v, hentry, htext⟩
  · rintro ⟨v, hentry, htext⟩
    exact ⟨name, v, hentry, text, htext, rfl, rfl⟩

end Request

theorem Connection.readForm?_of_head?_sent {c : Connection} {t : Transport} {q : Request}
    {w : WireRequest} (hw : (c.send t q).sent.head? = some w) (hbody : q.body.isSome)
    (htype : q.bodyType = some .form) : w.body.bind Encoding.readForm? = some q.formFields := by
  have hwire := wire?_of_head?_sent hw
  obtain ⟨fields, hfields⟩ := Option.isSome_iff_exists.mp hbody
  rw [wire?] at hwire
  split at hwire
  · obtain rfl := Option.some.inj hwire
    simp only [hfields, htype, Option.map_some, Option.getD_some, Wire.bodyText, Option.bind_some,
      Encoding.readForm?_formText]
  · cases hwire

/-- The argument of the name, if there is one, goes into the body. -/
def Descriptor.bodyTakes (d : Descriptor) (name : String) : Bool :=
  d.method.carriesBody && match d.payloadParams with
  | some names => names.contains name
  | none => !(d.urlParams ++ d.queryParams).contains name

namespace Operation

variable {o : Operation} {a : Arguments}

theorem mem_keys_body_iff {name : String} :
    name ∈ ((o.request a).body.getD []).keys ↔ o.descriptor.bodyTakes name ∧ a.contains name := by
  cases hcarries : o.descriptor.method.carriesBody with
  | false => simp [body_request_of_not_carries hcarries, Descriptor.bodyTakes, hcarries]
  | true =>
    rw [body_request_of_carries hcarries, Option.getD_some]
    cases hp : o.descriptor.payloadParams with
    | none =>
      rw [(leaves_bodyFields hp).mem_keys, Descriptor.bodyTakes, hcarries, hp]
      simp [and_comm]
    | some names =>
      rw [(gathers_bodyFields hp).keys, List.mem_filter, Descriptor.bodyTakes, hcarries, hp]
      simp

theorem value?_of_mem_bodyFields {d : Descriptor} {name : String} {v : Json}
    (h : (name, v) ∈ bodyFields d a) : a.value? name = some v := by
  cases hp : d.payloadParams with
  | none => exact ((leaves_bodyFields hp).mem name v).mp h |>.1
  | some names =>
    obtain ⟨v', hvalue, hv⟩ := (gathers_bodyFields hp).values name v h
    rwa [← Option.some.inj hv]

theorem value?_of_mem_body {name : String} {v : Json}
    (h : (name, v) ∈ (o.request a).body.getD []) : a.value? name = some v := by
  cases hcarries : o.descriptor.method.carriesBody with
  | false =>
    rw [body_request_of_not_carries hcarries] at h
    cases h
  | true =>
    rw [body_request_of_carries hcarries] at h
    exact value?_of_mem_bodyFields h

theorem forall₂_formFields (o : Operation) (a : Arguments) :
    List.Forall₂ Request.IsFieldOf ((o.request a).body.getD []) (o.request a).formFields := by
  apply Request.forall₂_isFieldOf
  rintro ⟨name, v⟩ hentry
  exact (Arguments.value?_eq_some_iff.mp (value?_of_mem_body hentry)).2

end Operation
end RestClient
