import Mathlib.Tactic.SplitIfs
import RestClient.Http.Request
import RestClient.Proofs.Entries.Order

namespace RestClient.Request

/-- A change to fields of one kind: all of them at once, or one more after the others. -/
inductive FieldEdit (α : Type) where
  | whole (fields : Entries α)
  | one (field : String × α)

namespace FieldEdit

variable {α : Type}

def apply (fields : Entries α) : FieldEdit α → Entries α
  | .whole fields => fields
  | .one field => fields ++ [field]

/-- What edits leave: the fields that come one by one after the last whole list, or after none. -/
inductive Leaves : List (FieldEdit α) → Entries α → Prop
  | added (later : Entries α) : Leaves (later.map one) later
  | replaced (before : List (FieldEdit α)) (fields later : Entries α) :
      Leaves (before ++ .whole fields :: later.map one) (fields ++ later)

theorem Leaves.append_one {edits : List (FieldEdit α)} {fields : Entries α}
    (h : Leaves edits fields) (field : String × α) :
    Leaves (edits ++ [.one field]) (fields ++ [field]) := by
  cases h with
  | added => simpa using Leaves.added (fields ++ [field])
  | replaced before fields later => simpa using Leaves.replaced before fields (later ++ [field])

theorem leaves_foldl (edits : List (FieldEdit α)) : Leaves edits (edits.foldl apply []) := by
  induction edits using List.reverseRecOn with
  | nil => exact .added []
  | append_singleton edits e ih =>
    rw [List.foldl_append, List.foldl_cons, List.foldl_nil]
    cases e with
    | whole fields => simpa [apply] using Leaves.replaced edits fields []
    | one field => exact ih.append_one field

end FieldEdit

namespace Edit

def onBody? : Edit → Option (FieldEdit Json)
  | .body fields => some (.whole fields)
  | .bodyParam key value => some (.one (key, value))
  | _ => none

def onQuery? : Edit → Option (FieldEdit String)
  | .query fields => some (.whole fields)
  | .queryParam key value => some (.one (key, value))
  | _ => none

def type? : Edit → Option BodyType
  | .bodyType type => some type
  | _ => none

def header? : Edit → Option (String × String)
  | .header key value => some (key, value)
  | _ => none

/-- The edits of each kind are the same in the same order; of the types only the last one counts. -/
structure Alike (edits edits' : List Edit) : Prop where
  body : edits.filterMap onBody? = edits'.filterMap onBody?
  query : edits.filterMap onQuery? = edits'.filterMap onQuery?
  type : (edits.filterMap type?).getLast? = (edits'.filterMap type?).getLast?
  headers : edits.filterMap header? = edits'.filterMap header?

end Edit

variable {method : Method} {path : String} {edits edits' : List Edit}

/-- The edits of each kind change a field of their own. -/
theorem foldl_apply (edits : List Edit) (r : Request) :
    edits.foldl apply r =
      { r with
        query := (edits.filterMap Edit.onQuery?).foldl FieldEdit.apply r.query
        body := (edits.filterMap Edit.onBody?).foldl (fun b e => some (e.apply (b.getD []))) r.body
        bodyType := (edits.filterMap Edit.type?).foldl (fun _ type => some type) r.bodyType
        headers := (edits.filterMap Edit.header?).foldl
          (fun m h => some (Entries.insert (m.getD []) h.1 h.2)) r.headers } := by
  induction edits generalizing r with
  | nil => rfl
  | cons e edits ih =>
    rw [List.foldl_cons, ih]
    cases e <;> rfl

theorem foldl_some {α β : Type} (f : β → α → β) (start : β) (l : List α) :
    l.foldl (fun b a => some (f (b.getD start) a)) none =
      if l = [] then none else some (l.foldl f start) := by
  have hsome : ∀ (l : List α) (b : β),
      l.foldl (fun b a => some (f (b.getD start) a)) (some b) = some (l.foldl f b) := by
    intro l
    induction l with
    | nil => exact fun b => rfl
    | cons a l ih => exact fun b => ih (f b a)
  cases l with
  | nil => rfl
  | cons a l => exact hsome l (f start a)

theorem foldl_last {α : Type} (l : List α) (b : Option α) :
    l.foldl (fun _ a => some a) b = l.getLast?.or b := by
  induction l generalizing b with
  | nil => rfl
  | cons a l ih =>
    rw [List.foldl_cons, ih, List.getLast?_cons]
    cases l.getLast? <;> rfl

/-- What a request is made of before it is verified. -/
def draft (method : Method) (path : String) (edits : List Edit) : Request :=
  edits.foldl apply { method, path }

theorem draft_eq (method : Method) (path : String) (edits : List Edit) :
    let onBody := edits.filterMap Edit.onBody?
    let headers := edits.filterMap Edit.header?
    draft method path edits =
      { method, path
        query := (edits.filterMap Edit.onQuery?).foldl FieldEdit.apply []
        body := if onBody = [] then none else some (onBody.foldl FieldEdit.apply [])
        bodyType := (edits.filterMap Edit.type?).getLast?
        headers := if headers = [] then none else some (Entries.ofPairs headers) } := by
  intro onBody headers
  rw [draft, foldl_apply, foldl_last, Option.or_none, foldl_some FieldEdit.apply]
  congr 1
  exact foldl_some (fun m h => Entries.insert m h.1 h.2) [] headers

theorem method_draft : (draft method path edits).method = method := by
  rw [draft_eq]

theorem body_draft_eq_none_iff :
    (draft method path edits).body = none ↔ edits.filterMap Edit.onBody? = [] := by
  rw [draft_eq]
  simp

theorem bodyType_draft :
    (draft method path edits).bodyType = (edits.filterMap Edit.type?).getLast? := by
  rw [draft_eq]

theorem bodyType_draft_eq_none_iff :
    (draft method path edits).bodyType = none ↔ edits.filterMap Edit.type? = [] := by
  rw [bodyType_draft, List.getLast?_eq_none_iff]

theorem build_eq_verify (method : Method) (path : String) (edits : List Edit) :
    build method path edits =
      (draft method path edits).verify.bind fun _ => .ok (draft method path edits) := rfl

/-- A missing type is found before the method is looked at. -/
theorem build_eq (method : Method) (path : String) (edits : List Edit) :
    build method path edits =
      if edits.filterMap Edit.onBody? = [] then .ok (draft method path edits)
      else if edits.filterMap Edit.type? = [] then .error .missingBodyType
      else if method.carriesBody then .ok (draft method path edits)
      else .error (.bodyNotAllowed method) := by
  rw [build_eq_verify, verify]
  cases hbody : (draft method path edits).body with
  | none =>
    rw [if_pos (body_draft_eq_none_iff.mp hbody)]
    rfl
  | some fields =>
    have hedits : edits.filterMap Edit.onBody? ≠ [] := by
      rw [ne_eq, ← body_draft_eq_none_iff, hbody]
      exact Option.some_ne_none fields
    rw [if_neg hedits, method_draft]
    dsimp only
    by_cases htype : edits.filterMap Edit.type? = []
    · rw [if_pos htype, if_pos (bodyType_draft_eq_none_iff.mpr htype)]
      rfl
    · rw [if_neg htype, if_neg (mt bodyType_draft_eq_none_iff.mp htype)]
      split <;> rfl

theorem eq_draft_of_build {r : Request} (h : build method path edits = .ok r) :
    r = draft method path edits := by
  rw [build_eq] at h
  split_ifs at h
  · exact (Except.ok.inj h).symm
  · exact (Except.ok.inj h).symm

theorem carriesBody_iff :
    method.carriesBody ↔ method = .post ∨ method = .put ∨ method = .patch := by
  cases method <;> simp [Method.carriesBody]

theorem not_carriesBody_iff : ¬ method.carriesBody ↔ method = .get ∨ method = .delete := by
  cases method <;> simp [Method.carriesBody]

theorem draft_eq_of_alike (h : Edit.Alike edits edits') :
    draft method path edits = draft method path edits' := by
  rw [draft_eq, draft_eq, h.body, h.query, h.type, h.headers]

/-- The request has the fields that its edits leave, the last type and the last value of each
header. -/
structure Drafted (edits : List Edit) (r : Request) : Prop where
  query : FieldEdit.Leaves (edits.filterMap Edit.onQuery?) r.query
  body_eq_none_iff : r.body = none ↔ edits.filterMap Edit.onBody? = []
  body : ∀ fields, r.body = some fields → FieldEdit.Leaves (edits.filterMap Edit.onBody?) fields
  bodyType : r.bodyType = (edits.filterMap Edit.type?).getLast?
  headers_eq_none_iff : r.headers = none ↔ edits.filterMap Edit.header? = []
  headers : ∀ headers, r.headers = some headers → headers.keys.Nodup ∧
    ∀ name value, (name, value) ∈ headers ↔ ∃ before after,
      edits.filterMap Edit.header? = before ++ (name, value) :: after ∧ name ∉ Entries.keys after

theorem drafted_draft (method : Method) (path : String) (edits : List Edit) :
    Drafted edits (draft method path edits) where
  query := by
    rw [draft_eq]
    exact FieldEdit.leaves_foldl _
  body_eq_none_iff := body_draft_eq_none_iff
  body fields h := by
    rw [draft_eq] at h
    obtain ⟨-, hfields⟩ := Option.ite_none_left_eq_some.mp h
    rw [← Option.some.inj hfields]
    exact FieldEdit.leaves_foldl _
  bodyType := bodyType_draft
  headers_eq_none_iff := by
    rw [draft_eq]
    simp
  headers headers h := by
    rw [draft_eq] at h
    obtain ⟨-, hheaders⟩ := Option.ite_none_left_eq_some.mp h
    have hcollects := Entries.collects_ofPairs (edits.filterMap Edit.header?)
    rw [← Option.some.inj hheaders]
    exact ⟨hcollects.nodup, fun name value => hcollects.mem_iff⟩

/-- Edits of different kinds can be interleaved in any way. A draft without a body is always a legal
request, one with a body needs a type, and then a method that carries it; a request has what the
edits of each kind leave. -/
theorem build_edits (method : Method) (path : String) (edits : List Edit) :
    (∀ edits', Edit.Alike edits edits' → build method path edits = build method path edits') ∧
    ((∃ r, build method path edits = .ok r) ↔
      edits.filterMap Edit.onBody? = [] ∨
        (edits.filterMap Edit.type? ≠ [] ∧ (method = .post ∨ method = .put ∨ method = .patch))) ∧
    (build method path edits = .error .missingBodyType ↔
      edits.filterMap Edit.onBody? ≠ [] ∧ edits.filterMap Edit.type? = []) ∧
    (∀ m, build method path edits = .error (.bodyNotAllowed m) ↔ m = method ∧
      edits.filterMap Edit.onBody? ≠ [] ∧ edits.filterMap Edit.type? ≠ [] ∧
      (method = .get ∨ method = .delete)) ∧
    ∀ r, build method path edits = .ok r → r.method = method ∧ r.path = path ∧ Drafted edits r := by
  rw [← carriesBody_iff, ← not_carriesBody_iff]
  refine ⟨?_, ?_, ?_, ?_, ?_⟩
  · intro edits' h
    rw [build_eq_verify, build_eq_verify, draft_eq_of_alike h]
  · rw [build_eq]
    split_ifs with hbody htype hcarries
    · simp [hbody]
    · simp [hbody, htype]
    · simp [htype, hcarries]
    · simp [hbody, hcarries]
  · rw [build_eq]
    split_ifs with hbody htype hcarries
    · simp [hbody]
    · simp [hbody, htype]
    · simp [htype]
    · simp [htype]
  · intro m
    rw [build_eq]
    split_ifs with hbody htype hcarries
    · simp [hbody]
    · simp [htype]
    · simp [hcarries]
    · simp [hbody, htype, hcarries, eq_comm]
  · intro r hr
    rw [eq_draft_of_build hr]
    exact ⟨method_draft, by rw [draft_eq], drafted_draft method path edits⟩

/-- What stands before a whole list is lost, and names that are given twice are kept twice. -/
theorem interleaved_build_edits :
    let turns : List Edit :=
      [.bodyParam "lost" .null, .header "A" "1", .queryParam "p" "1", .body [("a", .int 1)],
        .query [("q", "2")], .bodyType .json, .bodyParam "a" .null, .header "B" "2",
        .queryParam "q" "2", .bodyType .form, .header "A" "3"]
    let kinds : List Edit :=
      [.header "A" "1", .header "B" "2", .header "A" "3", .queryParam "p" "1", .query [("q", "2")],
        .queryParam "q" "2", .bodyType .form, .bodyParam "lost" .null, .body [("a", .int 1)],
        .bodyParam "a" .null]
    let r : Request :=
      { method := .put, path := "/", query := [("q", "2"), ("q", "2")]
        body := some [("a", .int 1), ("a", .null)], bodyType := some .form
        headers := some [("A", "3"), ("B", "2")] }
    Edit.Alike turns kinds ∧ build .put "/" turns = .ok r ∧ build .put "/" kinds = .ok r ∧
      Drafted turns r ∧ build .delete "/" turns = .error (.bodyNotAllowed .delete) := by
  intro turns kinds r
  have halike : Edit.Alike turns kinds := ⟨rfl, rfl, rfl, rfl⟩
  have hkinds : build .put "/" kinds = .ok r := rfl
  obtain ⟨hcommute, -, -, -, hdrafted⟩ := build_edits .put "/" turns
  obtain ⟨-, -, -, hrefused, -⟩ := build_edits .delete "/" turns
  have hturns : build .put "/" turns = .ok r := (hcommute kinds halike).trans hkinds
  obtain ⟨-, -, hr⟩ := hdrafted r hturns
  refine ⟨halike, hturns, hkinds, hr, (hrefused .delete).mpr ⟨rfl, ?_, ?_, .inr rfl⟩⟩
  · exact List.cons_ne_nil _ _
  · exact List.cons_ne_nil _ _

end RestClient.Request
