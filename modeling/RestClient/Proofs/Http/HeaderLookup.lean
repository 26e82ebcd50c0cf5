import RestClient.Proofs.Http.Reply
import RestClient.Proofs.Http.Sending

namespace RestClient

namespace Text

def IsAscii (s : String) : Prop := ∀ c ∈ s.toList, c.toNat < 0x80

theorem lowerAfter_of_ascii {cs : List Char} (h : ∀ c ∈ cs, c.toNat < 0x80) (before : List Char) :
    lowerAfter before cs = cs.map Char.toLower := by
  induction cs generalizing before with
  | nil => rfl
  | cons c cs ih =>
    obtain ⟨hc, hcs⟩ := List.forall_mem_cons.mp h
    have hsigma : c.toNat ≠ 0x3A3 := by omega
    rw [lowerAfter, if_neg hsigma, lowerChar, if_pos hc, ih hcs, List.singleton_append,
      List.map_cons]

theorem toLower_eq (s : String) : s.toLower = String.ofList (s.toList.map Char.toLower) := by
  have hmap : s.toLower = s.map Char.toLower := rfl
  rw [hmap, ← String.toList_inj, String.toList_map, String.toList_ofList]

theorem lowercase_of_isAscii {s : String} (h : IsAscii s) : lowercase s = s.toLower := by
  rw [lowercase, lowerAfter_of_ascii h, toLower_eq]

end Text

/-- The names of the headers are ones that the wire can carry. -/
def WireReply.Legal (reply : WireReply) : Prop := ∀ h ∈ reply.headers, Wire.isHeaderName h.1

namespace Wire

variable {headers : Entries String} {name value : String} {found : List String}

/-- Visible ASCII characters, spaces and tabs. -/
def IsVisible (value : String) : Prop := ∀ c ∈ value.toList, c = '\t' ∨ (' ' ≤ c ∧ c ≤ '~')

theorem isVisible_iff {c : Char} : isVisible c ↔ c = '\t' ∨ (' ' ≤ c ∧ c ≤ '~') := by
  have hrange : (' ' ≤ c ∧ c ≤ '~') ↔ 0x20 ≤ c.toNat ∧ c.toNat ≤ 0x7E := Iff.rfl
  rw [hrange, isVisible, Bool.or_eq_true, Bool.and_eq_true, decide_eq_true_iff, decide_eq_true_iff,
    beq_iff_eq, or_comm, Nat.lt_succ_iff]

theorem all_isVisible_iff : value.toList.all isVisible ↔ IsVisible value := by
  rw [List.all_eq_true]
  exact forall₂_congr fun c _ => isVisible_iff

instance : DecidablePred IsVisible := fun _ => decidable_of_iff _ all_isVisible_iff

/-- What is read of a value: all of it, or nothing where a character cannot be shown. -/
def shown (value : String) : String := if IsVisible value then value else ""

theorem headerText_eq_shown (value : String) : headerText value = shown value :=
  ite_congr (propext all_isVisible_iff) (fun _ => rfl) fun _ => rfl

theorem isAscii_of_isHeaderName (h : isHeaderName name) : Text.IsAscii name := by
  intro c hc
  have htoken : isTokenChar c := List.all_eq_true.mp (Bool.and_eq_true_iff.mp h).2 c hc
  rcases Bool.or_eq_true_iff.mp htoken with halphanum | hsign
  · have hplain := Destination.isPlainAscii_of_isAlphanum halphanum
    simp only [Destination.isPlainAscii, Bool.and_eq_true, decide_eq_true_eq] at hplain
    omega
  · have hall : "!#$%&'*+-.^_`|~".toList.all fun d => d.toNat < 0x80 := by decide
    exact of_decide_eq_true (List.all_eq_true.mp hall c (List.contains_iff_mem.mp hsign))

theorem values_of_legal (hnames : ∀ h ∈ headers, isHeaderName h.1) (key : String) :
    values headers key = (headers.filter fun h => h.1.toLower == key).map fun h => shown h.2 := by
  have hsame : ∀ f ∈ headers, (Text.lowercase f.1 == key) = (f.1.toLower == key) := by
    intro f hf
    rw [Text.lowercase_of_isAscii (isAscii_of_isHeaderName (hnames f hf))]
  simp only [values, List.filter_congr hsame, headerText_eq_shown]

theorem nodup_keys_collectHeaders (headers : Entries String) :
    (collectHeaders headers).keys.Nodup := by
  suffices hfold : ∀ m : Entries (List String), m.keys.Nodup →
      (headers.foldl (fun m h => addValue m (Text.lowercase h.1) (headerText h.2)) m).keys.Nodup
    from hfold [] List.nodup_nil
  induction headers with
  | nil => exact fun m hm => hm
  | cons h headers ih => exact fun m hm => ih _ (Entries.nodup_keys_insert hm _ _)

theorem mem_collectHeaders_iff :
    (name, found) ∈ collectHeaders headers ↔ found ≠ [] ∧ found = values headers name := by
  rw [Entries.mem_iff_lookup (nodup_keys_collectHeaders headers), lookup_collectHeaders]
  split
  case isTrue h => simp [h]
  case isFalse h =>
    rw [Option.some.injEq]
    constructor
    · rintro rfl
      exact ⟨h, rfl⟩
    · exact fun hvalues => hvalues.2.symm

end Wire

namespace Response

/-- The response has the headers of a reply: under each lowered name all values that the reply gives
under it, in their order. Looked up in any case, a name leads to the first of them, and to none only
if the reply has no such header. -/
structure Indexes (r : Response) (headers : Entries String) : Prop where
  nodup : r.headers.keys.Nodup
  mem_iff : ∀ key values, (key, values) ∈ r.headers ↔ values ≠ [] ∧
    values = (headers.filter fun h => h.1.toLower == key).map fun h => Wire.shown h.2
  header? : ∀ name, Text.IsAscii name → r.header? name =
    (headers.find? fun h => h.1.toLower == name.toLower).map fun h => Wire.shown h.2
  none_iff : ∀ name, Text.IsAscii name →
    (r.header? name = none ↔ ∀ h ∈ headers, h.1.toLower ≠ name.toLower)

variable {reply : WireReply}

theorem header?_of_isAscii (h : reply.Legal) {name : String} (hname : Text.IsAscii name) :
    (ofReply reply).header? name =
      (reply.headers.find? fun h => h.1.toLower == name.toLower).map fun h => Wire.shown h.2 := by
  rw [header?_ofReply, Text.lowercase_of_isAscii hname, Wire.values_of_legal h, List.head?_map,
    List.head?_filter]

theorem indexes_ofReply (h : reply.Legal) : (ofReply reply).Indexes reply.headers where
  nodup := Wire.nodup_keys_collectHeaders reply.headers
  mem_iff key values := by
    rw [← Wire.values_of_legal h]
    exact Wire.mem_collectHeaders_iff
  header? name hname := header?_of_isAscii h hname
  none_iff name hname := by
    rw [header?_of_isAscii h hname]
    simp

/-- The id that a rejection refers to is looked up like any other header. -/
theorem requestId?_of_legal (h : reply.Legal) :
    reply.requestId? =
      (reply.headers.find? fun h => h.1.toLower == "x-request-id").map fun h =>
        Wire.shown h.2 := by
  rw [WireReply.requestId?, Wire.values_of_legal h, List.head?_map, List.head?_filter]

/-- A request whose last reply is one of success is answered with the headers of that reply, in
lower case and found in any case; only such a reply makes a response. Of any other the id is found
so. -/
theorem header_lookup (c : Connection) (t : Transport) (q : Request) :
    let x := c.send t q
    (∀ reply, t.lastReply? x.sent = some reply → reply.Legal →
      (reply.Succeeds → ∃ r, x.result = .ok r ∧ r.Indexes reply.headers) ∧
      (¬ reply.Succeeds → ∃ e, x.result = .error (.rejected e) ∧
        e.reference = (reply.headers.find? fun h => h.1.toLower == "x-request-id").map fun h =>
          Wire.shown h.2)) ∧
    ∀ r, x.result = .ok r → ∃ reply, t.lastReply? x.sent = some reply ∧ reply.Succeeds := by
  intro x
  by_cases hsent : x.sent = []
  · have hresult : x.result = .error .network ∨ ∃ e, x.result = .error (.invalid e) :=
      Connection.result_send_of_silent hsent
    rcases hresult with hresult | ⟨e, hresult⟩ <;> simp [hsent, hresult, Transport.lastReply?]
  · have hresult : x.result = Connection.resultOf (t.lastReply? x.sent) :=
      Connection.result_send_of_sent hsent
    rw [hresult]
    refine ⟨fun reply hlast hlegal => ?_, fun r hr => Connection.exists_of_resultOf_eq_ok hr⟩
    rw [hlast]
    constructor
    · intro hsucceeds
      exact ⟨ofReply reply, Connection.resultOf_of_succeeds hsucceeds, indexes_ofReply hlegal⟩
    · intro hfails
      obtain ⟨e, he, hreports⟩ := Connection.resultOf_of_not_succeeds hfails
      exact ⟨e, he, by rw [hreports.reference, requestId?_of_legal hlegal]⟩

/-- Values stay in their order however their name is written, and one that cannot be shown is found
as an empty text, not as the next one. -/
theorem mixed_case_header_lookup :
    let c : Connection := ⟨⟨"http", "a.test"⟩, none, "shop"⟩
    let headers : Entries String :=
      [("X-Multi", "1"), ("Vary", "é"), ("x-multi", "2\t"), ("VARY", "b"), ("X-MULTI", "")]
    let reply : WireReply := ⟨204, headers, ""⟩
    let x := c.send (fun _ => .delivered [] reply) { method := .get, path := "/" }
    ∃ r, x.result = .ok r ∧ r.header? "x-Multi" = some "1" ∧ r.header? "vArY" = some "" ∧
      r.header? "x" = none ∧ ("x-multi", ["1", "2\t", ""]) ∈ r.headers := by
  intro c headers reply x
  have hsent : x.sent.map (·.target) = ["/"] := by decide +kernel
  obtain ⟨w, hw, -⟩ := List.map_eq_singleton_iff.mp hsent
  have hnames : reply.headers.all fun h => Wire.isHeaderName h.1 := by decide +kernel
  obtain ⟨hanswered, -⟩ := header_lookup c (fun _ => .delivered [] reply)
    { method := .get, path := "/" }
  have hlast : Transport.lastReply? (fun _ => .delivered [] reply) x.sent = some reply := by
    rw [hw]
    rfl
  obtain ⟨hsuccess, -⟩ := hanswered reply hlast (List.all_eq_true.mp hnames)
  obtain ⟨r, hr, hindexes⟩ := hsuccess ⟨by decide, by decide⟩
  refine ⟨r, hr, ?_, ?_, ?_, ?_⟩
  · have hascii : Text.IsAscii "x-Multi" := Wire.isAscii_of_isHeaderName (by decide)
    rw [hindexes.header? _ hascii]
    simp only [Text.toLower_eq]
    decide +kernel
  · have hascii : Text.IsAscii "vArY" := Wire.isAscii_of_isHeaderName (by decide)
    rw [hindexes.header? _ hascii]
    simp only [Text.toLower_eq]
    decide +kernel
  · have hascii : Text.IsAscii "x" := Wire.isAscii_of_isHeaderName (by decide)
    rw [hindexes.none_iff _ hascii]
    simp only [Text.toLower_eq]
    decide +kernel
  · rw [hindexes.mem_iff]
    simp only [Text.toLower_eq]
    decide +kernel

end Response
end RestClient
