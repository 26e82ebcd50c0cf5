import RestClient.Proofs.Resource.Preparation

namespace RestClient

namespace Entries

variable {α : Type} {slots slots' : List (String × Option α)} {name : String}

/-- The names that have a value. -/
def present (slots : List (String × Option α)) : Entries α :=
  slots.filterMap fun (name, value) => value.map (name, ·)

theorem mem_present {value : α} : (name, value) ∈ present slots ↔ (name, some value) ∈ slots := by
  simp [present, List.mem_filterMap]

theorem nodup_keys_present (h : (slots.map Prod.fst).Nodup) : (keys (present slots)).Nodup := by
  refine List.Nodup.sublist ?_ h
  induction slots with
  | nil => exact List.Sublist.slnil
  | cons slot slots ih =>
    have hrest := ih (List.nodup_cons.mp h).2
    obtain ⟨name, _ | value⟩ := slot
    · exact hrest.cons name
    · exact hrest.cons_cons name

theorem lookup_present (h : (slots.map Prod.fst).Nodup) {value : Option α}
    (hmem : (name, value) ∈ slots) : (present slots).lookup name = value := by
  refine Option.ext fun v => ?_
  rw [← mem_iff_lookup (nodup_keys_present h), mem_present]
  constructor
  · intro hv
    exact congrArg Prod.snd (List.inj_on_of_nodup_map h hmem hv rfl)
  · rintro rfl
    exact hmem

theorem eq_of_present_eq (name : String) {value value' : Option α}
    (heq : present slots = present slots') (h : (slots.map Prod.fst).Nodup)
    (h' : (slots'.map Prod.fst).Nodup) (hmem : (name, value) ∈ slots)
    (hmem' : (name, value') ∈ slots') : value = value' := by
  rw [← lookup_present h hmem, heq, lookup_present h' hmem']

end Entries

namespace Arguments

open Entries (present)

/-- Slots under names of their own, of which none is filled with null. -/
structure Slots (slots : List (String × Option Json)) : Prop where
  nodup : (slots.map Prod.fst).Nodup
  not_null : ∀ slot ∈ slots, slot.2 ≠ some .null

variable {slots : List (String × Option Json)} {name : String}

theorem get?_ofPairs_present (h : Slots slots) {value : Option Json}
    (hmem : (name, value) ∈ slots) : (ofPairs (present slots)).get? name = value := by
  have hentries : (ofPairs (present slots)).entries = present slots :=
    Entries.ofPairs_of_nodup (Entries.nodup_keys_present h.nodup)
  rw [get?, hentries]
  exact Entries.lookup_present h.nodup hmem

theorem value?_ofPairs_present (h : Slots slots) {value : Option Json}
    (hmem : (name, value) ∈ slots) : (ofPairs (present slots)).value? name = value := by
  refine Option.ext fun v => ?_
  rw [value?_eq_some_iff, get?_ofPairs_present h hmem]
  refine and_iff_left_of_imp ?_
  rintro rfl rfl
  exact h.not_null _ hmem rfl

/-- What is gathered from some of the slots are the fields of those that are filled. -/
theorem filterMap_value?_present {α : Type} (h : Slots slots) {part : List (String × Option Json)}
    (hpart : part ⊆ slots) (f : Json → Option α) :
    ((part.map Prod.fst).filterMap fun name =>
      (((ofPairs (present slots)).value? name).bind f).map (name, ·)) =
      present (part.map fun slot => (slot.1, slot.2.bind f)) := by
  conv_rhs => rw [present]
  rw [List.filterMap_map, List.filterMap_map]
  apply List.filterMap_congr
  intro slot hslot
  simp only [Function.comp_apply, value?_ofPairs_present h (hpart hslot)]

end Arguments

namespace Operation

open Entries (present)

variable {d : Descriptor} {slots part : List (String × Option Json)}

theorem queryFields_present (h : Arguments.Slots slots) (hpart : part ⊆ slots)
    (hquery : d.queryParams = part.map Prod.fst) :
    queryFields d (.ofPairs (present slots)) =
      present (part.map fun slot => (slot.1, slot.2.bind Json.paramText?)) := by
  rw [queryFields, hquery]
  exact Arguments.filterMap_value?_present h hpart Json.paramText?

theorem bodyFields_present (h : Arguments.Slots slots) (hpart : part ⊆ slots)
    (hpayload : d.payloadParams = some (part.map Prod.fst)) :
    bodyFields d (.ofPairs (present slots)) = present part := by
  have hgathered := Arguments.filterMap_value?_present h hpart some
  simp only [Option.bind_fun_some, List.map_id'] at hgathered
  simp only [bodyFields, hpayload]
  exact hgathered

variable {a : Arguments} {name text : String}

theorem urlText?_of_string (h : a.value? name = some (.string text)) :
    urlText? a name = if text = "" then none else some text := by
  have htext : (Json.string text).paramText? = some text := rfl
  rw [urlText?, h, Option.bind_some, htext, Option.filter_some]
  simp

theorem lacks_iff_of_string (h : a.value? name = some (.string text)) :
    a.Lacks name ↔ text = "" := by
  rw [← urlText?_eq_none_iff, urlText?_of_string h]
  simp

theorem getD_urlText?_of_string (h : a.value? name = some (.string text)) :
    (urlText? a name).getD "" = text := by
  rw [urlText?_of_string h]
  split
  case isTrue hempty => exact hempty.symm
  case isFalse => rfl

end Operation

/-- Slots that are filled with texts. -/
def textSlots (texts : List (String × Option String)) : List (String × Option Json) :=
  texts.map fun slot => (slot.1, slot.2.map .string)

/-- The arguments that fill the slots. -/
def textArguments (texts : List (String × Option String)) : Arguments :=
  .ofPairs (Entries.present (textSlots texts))

variable {texts : List (String × Option String)}

theorem map_fst_textSlots (texts : List (String × Option String)) :
    (textSlots texts).map Prod.fst = texts.map Prod.fst := by
  simp [textSlots, Function.comp_def]

theorem map_paramText?_textSlots (texts : List (String × Option String)) :
    (textSlots texts).map (fun slot => (slot.1, slot.2.bind Json.paramText?)) = texts := by
  rw [textSlots, List.map_map]
  refine (List.map_congr_left fun slot _ => ?_).trans (List.map_id texts)
  obtain ⟨name, _ | text⟩ := slot <;> rfl

theorem slots_textSlots (h : (texts.map Prod.fst).Nodup) : Arguments.Slots (textSlots texts) where
  nodup := by rwa [map_fst_textSlots]
  not_null := by
    intro slot hslot
    obtain ⟨⟨name, _ | text⟩, -, rfl⟩ := List.mem_map.mp hslot <;> simp

theorem value?_textArguments (h : (texts.map Prod.fst).Nodup) {name : String} {text : Option String}
    (hmem : (name, text) ∈ texts) : (textArguments texts).value? name = text.map .string :=
  Arguments.value?_ofPairs_present (slots_textSlots h) (List.mem_map_of_mem hmem)

theorem Request.formFields_of_body {q : Request}
    (h : q.body = some (Entries.present (textSlots texts))) :
    q.formFields = Entries.present texts := by
  rw [formFields, h, Option.getD_some, Entries.present, Entries.present, textSlots,
    List.filterMap_map, List.filterMap_filterMap]
  congr 1
  funext ⟨name, text⟩
  cases text <;> rfl

/-- The request of an operation that lists its payload parameters, called with texts. -/
theorem Operation.request_textArguments {o : Operation} (h : (texts.map Prod.fst).Nodup)
    {query body : List (String × Option String)} (hquery : query ⊆ texts) (hbody : body ⊆ texts)
    (hcarries : o.descriptor.method.carriesBody)
    (hqueryParams : o.descriptor.queryParams = query.map Prod.fst)
    (hpayload : o.descriptor.payloadParams = some (body.map Prod.fst)) :
    o.request (textArguments texts) = {
      method := o.descriptor.method
      path := o.template.filled fun name => (urlText? (textArguments texts) name).getD ""
      query := Entries.present query
      body := some (Entries.present (textSlots body))
      bodyType := some o.descriptor.bodyType } := by
  have hslots := slots_textSlots h
  have hsub {part : List (String × Option String)} (hpart : part ⊆ texts) :
      textSlots part ⊆ textSlots texts := List.map_subset _ hpart
  have hqueryFields : queryFields o.descriptor (textArguments texts) = Entries.present query := by
    rw [textArguments, queryFields_present hslots (hsub hquery), map_paramText?_textSlots]
    rw [hqueryParams, map_fst_textSlots]
  have hbodyFields : bodyFields o.descriptor (textArguments texts) =
      Entries.present (textSlots body) := by
    rw [textArguments, bodyFields_present hslots (hsub hbody)]
    rw [hpayload, map_fst_textSlots]
  rw [request, hqueryFields, hbodyFields, if_pos hcarries, if_pos hcarries]

end RestClient
