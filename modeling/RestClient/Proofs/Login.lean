import RestClient.Login
import RestClient.Proofs.Entries.Order
import RestClient.Proofs.Except
import RestClient.Proofs.Http.Body

namespace RestClient.Login

variable {l l' : Login} {fields : Entries Json}

/-- The text that a user id is kept as. -/
def idText (v : Option Json) : String := (v.map fun v => v.string?.getD v.text).getD ""

theorem userId_ofFields (fields : Entries Json) :
    (ofFields fields).userId = idText (fields.lookup "user_id") := by
  rw [ofFields]
  cases fields.lookup "user_id" with
  | none => rfl
  | some v => cases v <;> rfl

/-- The login as the JSON value that its text shows. -/
def written (l : Login) : Json :=
  .object (Entries.ofPairs (("user_id", .string l.userId) :: l.extra))

/-- The same login but for the order of the other fields. -/
structure Alike (l l' : Login) : Prop where
  userId : l'.userId = l.userId
  extra : l'.extra.Perm l.extra

theorem Alike.refl (l : Login) : Alike l l := ⟨rfl, List.Perm.refl _⟩

theorem Alike.trans {l'' : Login} (h : Alike l l') (h' : Alike l' l'') : Alike l l'' :=
  ⟨h'.userId.trans h.userId, h'.extra.trans h.extra⟩

/-- All fields can be told by their names, the user id among them. -/
structure Distinct (l : Login) : Prop where
  nodup : l.extra.keys.Nodup
  not_mem : "user_id" ∉ l.extra.keys

theorem eq_of_parts (huser : l.userId = l'.userId) (hextra : l.extra = l'.extra) : l = l' := by
  cases l
  cases l'
  cases huser
  cases hextra
  rfl

theorem userId_of_mem {id : String} (h : fields.keys.Nodup)
    (hid : ("user_id", .string id) ∈ fields) : (ofFields fields).userId = id := by
  rw [userId_ofFields, (Entries.mem_iff_lookup h).mp hid]
  rfl

theorem extra_perm (h : fields.keys.Nodup) :
    (ofFields fields).extra.Perm (fields.filter (·.1 ≠ "user_id")) :=
  Entries.swapRemove_perm h "user_id"

theorem distinct_ofFields (h : fields.keys.Nodup) : (ofFields fields).Distinct := by
  have hkeys : (ofFields fields).extra.keys.Perm (Entries.keys (fields.filter (·.1 ≠ "user_id"))) :=
    (extra_perm h).map Prod.fst
  constructor
  · exact hkeys.nodup_iff.mpr (h.sublist (List.filter_sublist.map Prod.fst))
  · rw [hkeys.mem_iff, Entries.mem_keys_iff]
    rintro ⟨v, hv⟩
    simpa using (List.mem_filter.mp hv).2

namespace Distinct

theorem of_alike (h : l.Distinct) (ha : Alike l l') : l'.Distinct := by
  have hkeys : l'.extra.keys.Perm l.extra.keys := ha.extra.map Prod.fst
  exact ⟨hkeys.nodup_iff.mpr h.nodup, fun hmem => h.not_mem (hkeys.mem_iff.mp hmem)⟩

theorem nodup_cons (h : l.Distinct) :
    (Entries.keys (("user_id", .string l.userId) :: l.extra)).Nodup :=
  List.nodup_cons.mpr ⟨h.not_mem, h.nodup⟩

theorem written_eq (h : l.Distinct) :
    l.written = .object (("user_id", .string l.userId) :: l.extra) := by
  rw [written, Entries.ofPairs_of_nodup h.nodup_cons]

theorem text_eq (h : l.Distinct) : l.text = l.written.text := by
  rw [h.written_eq, Login.text]

theorem toJson_eq (h : l.Distinct) :
    l.toJson = .object (l.extra ++ [("user_id", .string l.userId)]) := by
  rw [toJson, Entries.insert_of_not_mem h.not_mem]

theorem ofBody_toJson (h : l.Distinct) : ofBody l.toJson = .ok l := by
  have hmem : ("user_id", .string l.userId) ∈ l.extra ++ [("user_id", .string l.userId)] :=
    List.mem_append_right _ (List.mem_singleton_self _)
  have hnodup : (Entries.keys (l.extra ++ [("user_id", .string l.userId)])).Nodup :=
    ((List.perm_append_singleton _ _).map Prod.fst).nodup_iff.mpr h.nodup_cons
  have hextra : (ofFields (l.extra ++ [("user_id", .string l.userId)])).extra = l.extra :=
    Entries.swapRemove_append_singleton h.not_mem _
  rw [h.toJson_eq, ofBody]
  exact congrArg Except.ok (eq_of_parts (userId_of_mem hnodup hmem) hextra)

theorem ofBody_written (h : l.Distinct) : ∃ l', ofBody l.written = .ok l' ∧ Alike l l' := by
  have hextra := extra_perm h.nodup_cons
  rw [List.filter_cons_of_neg (by simp), Entries.filter_ne_of_not_mem h.not_mem] at hextra
  exact ⟨_, congrArg ofBody h.written_eq, userId_of_mem h.nodup_cons List.mem_cons_self, hextra⟩

theorem reread_toJson (h : l.Distinct) (n : Nat) :
    (List.replicate n toJson).foldlM (fun l e => ofBody (e l)) l = .ok l := by
  induction n with
  | zero => rfl
  | succ n ih => rw [List.replicate_succ, List.foldlM_cons, h.ofBody_toJson, Except.ok_bind, ih]

theorem reread (h : l.Distinct) {exports : List (Login → Json)}
    (hexports : ∀ e ∈ exports, e = toJson ∨ e = written) :
    ∃ l', exports.foldlM (fun l e => ofBody (e l)) l = .ok l' ∧ Alike l l' := by
  induction exports generalizing l with
  | nil => exact ⟨l, rfl, Alike.refl l⟩
  | cons e exports ih =>
    obtain ⟨he, hrest⟩ := List.forall_mem_cons.mp hexports
    obtain ⟨l', hread, halike⟩ : ∃ l', ofBody (e l) = .ok l' ∧ Alike l l' := by
      rcases he with rfl | rfl
      · exact ⟨l, h.ofBody_toJson, Alike.refl l⟩
      · exact h.ofBody_written
    obtain ⟨l'', hreads, halike'⟩ := ih (h.of_alike halike) hrest
    refine ⟨l'', ?_, halike.trans halike'⟩
    rw [List.foldlM_cons, hread, Except.ok_bind, hreads]

end Distinct

theorem forall_mem_written {P : Json → Prop} (h : fields.keys.Nodup) (hstring : ∀ s, P (.string s))
    (hfields : ∀ f ∈ fields, P f.2) :
    ∀ f ∈ ("user_id", .string (ofFields fields).userId) :: (ofFields fields).extra, P f.2 := by
  refine List.forall_mem_cons.mpr ⟨hstring _, fun f hf => hfields f ?_⟩
  exact List.mem_of_mem_filter ((extra_perm h).mem_iff.mp hf)

/-- The text of a login is that of its fields and the user id, which nest no deeper than its
body. -/
theorem parseBody_text (hformed : (Json.object fields).WellFormed Json.maxDepth)
    (hwhole : (Json.object fields).WholeNumbers) :
    Response.parseBody (ofFields fields).text = (ofFields fields).written := by
  obtain ⟨hnodup, hdeep⟩ := Json.wellFormed_object_iff.mp hformed
  have hdistinct := distinct_ofFields hnodup
  have hwritten : (ofFields fields).written.WholeNumbers := by
    rw [hdistinct.written_eq, Json.wholeNumbers_object_iff]
    exact forall_mem_written hnodup Json.wholeNumbers_string
      (Json.wholeNumbers_object_iff.mp hwhole)
  rw [hdistinct.text_eq, Response.parseBody_text_iff hwritten, hdistinct.written_eq]
  exact Json.wellFormed_object_iff.mpr
    ⟨hdistinct.nodup_cons, forall_mem_written hnodup (Json.wellFormed_string _) hdeep⟩

/-- A login keeps all other fields of its body, and both of its exports have the fields of the body
with the user id as a text. Of its object the same login is made again, and of its text the same but
for the order of the other fields, however often that is done. -/
theorem export_round_trip (h : fields.keys.Nodup) :
    ∃ l, ofBody (.object fields) = .ok l ∧
      l.userId = idText (fields.lookup "user_id") ∧
      l.extra.Perm (fields.filter (·.1 ≠ "user_id")) ∧
      (∃ es, l.toJson = .object es ∧ es.Perm (Entries.insert fields "user_id" (.string l.userId))) ∧
      (∃ es, l.written = .object es ∧
        es.Perm (Entries.insert fields "user_id" (.string l.userId))) ∧
      l.text = l.written.text ∧
      ((Json.object fields).WellFormed Json.maxDepth → (Json.object fields).WholeNumbers →
        Response.parseBody l.text = l.written) ∧
      ofBody l.toJson = .ok l ∧
      (∃ l', ofBody l.written = .ok l' ∧ Alike l l') ∧
      (∀ n, (List.replicate n toJson).foldlM (fun l e => ofBody (e l)) l = .ok l) ∧
      ∀ exports : List (Login → Json), (∀ e ∈ exports, e = toJson ∨ e = written) →
        ∃ l', exports.foldlM (fun l e => ofBody (e l)) l = .ok l' ∧ Alike l l' := by
  have hdistinct := distinct_ofFields h
  have hfields : (("user_id", .string (ofFields fields).userId) :: (ofFields fields).extra).Perm
      (Entries.insert fields "user_id" (.string (ofFields fields).userId)) :=
    ((extra_perm h).cons _).trans (Entries.insert_perm h _ _).symm
  refine ⟨ofFields fields, rfl, userId_ofFields fields, extra_perm h, ?_, ?_, hdistinct.text_eq,
    parseBody_text, hdistinct.ofBody_toJson, hdistinct.ofBody_written, hdistinct.reread_toJson,
    fun exports => hdistinct.reread⟩
  · exact ⟨_, hdistinct.toJson_eq, (List.perm_append_singleton _ _).trans hfields⟩
  · exact ⟨_, hdistinct.written_eq, hfields⟩

/-- The last field takes the place of the user id, which goes last in the object and first in the
text. -/
theorem user_id_round_trip :
    let fields : Entries Json := [("name", .string "Ada"), ("user_id", .array [.int 7, .null]),
      ("roles", .object []), ("token", .string "t")]
    fields.keys.Nodup ∧ (Json.object fields).WellFormed Json.maxDepth ∧
      (Json.object fields).WholeNumbers ∧
      ∃ l, ofBody (.object fields) = .ok l ∧ l.userId = "[7,null]" ∧
        l.extra.keys = ["name", "token", "roles"] ∧
        Response.parseBody l.text = l.written ∧
        (List.replicate 3 toJson).foldlM (fun l e => ofBody (e l)) l = .ok l ∧
        ∃ l', [written, toJson, written].foldlM (fun l e => ofBody (e l)) l = .ok l' ∧
          Alike l l' := by
  intro fields
  have hnodup : fields.keys.Nodup := by decide
  have hformed : (Json.object fields).WellFormed Json.maxDepth :=
    ⟨by decide +kernel, by decide +kernel⟩
  have hwhole : (Json.object fields).WholeNumbers := by decide +kernel
  obtain ⟨l, hl, huser, -, -, -, -, hread, -, -, htimes, hexports⟩ := export_round_trip hnodup
  have hordered : l.extra.keys = ["name", "token", "roles"] := by
    obtain rfl := Except.ok.inj hl
    decide +kernel
  refine ⟨hnodup, hformed, hwhole, l, hl, huser.trans (by decide +kernel), hordered,
    hread hformed hwhole, htimes 3, hexports _ (by simp)⟩

end RestClient.Login
