import RestClient.Http.Wire
import RestClient.Proofs.Entries.Lookup

namespace RestClient

namespace Wire

/-- The values of the headers of a lowered name, as they are read. -/
def values (headers : Entries String) (name : String) : List String :=
  (headers.filter fun h => Text.lowercase h.1 == name).map fun h => headerText h.2

theorem values_cons (h : String × String) (headers : Entries String) (name : String) :
    values (h :: headers) name =
      if name = Text.lowercase h.1 then headerText h.2 :: values headers name
      else values headers name := by
  by_cases hname : name = Text.lowercase h.1
  · simp [values, hname]
  · simp [values, hname, Ne.symm hname]

theorem lookup_addValue (m : Entries (List String)) (key name value : String) :
    (addValue m key value).lookup name =
      if name = key then some ((m.lookup key).getD [] ++ [value]) else m.lookup name :=
  Entries.lookup_insert m key name _

/-- Under a name that no header has, nothing is collected, not even an empty list. -/
theorem lookup_collectHeaders (headers : Entries String) (name : String) :
    (collectHeaders headers).lookup name =
      if values headers name = [] then none else some (values headers name) := by
  suffices hfold : ∀ m : Entries (List String),
      (headers.foldl (fun m h => addValue m (Text.lowercase h.1) (headerText h.2)) m).lookup name =
        if values headers name = [] then m.lookup name
        else some ((m.lookup name).getD [] ++ values headers name) from hfold []
  induction headers with
  | nil => exact fun m => rfl
  | cons h headers ih =>
    intro m
    rw [List.foldl_cons, ih, values_cons, lookup_addValue]
    by_cases hname : name = Text.lowercase h.1
    · subst hname
      split <;> simp_all
    · simp [hname]

end Wire

theorem Response.header?_ofReply (reply : WireReply) (name : String) :
    (ofReply reply).header? name = (Wire.values reply.headers (Text.lowercase name)).head? := by
  rw [header?, ofReply, Wire.lookup_collectHeaders]
  split
  case isTrue h => simp [h]
  case isFalse => simp

/-- The first id that a reply gives for its request. -/
def WireReply.requestId? (reply : WireReply) : Option String :=
  (Wire.values reply.headers "x-request-id").head?

theorem Response.requestId?_ofReply (reply : WireReply) :
    (ofReply reply).requestId? = reply.requestId? := by
  have hname : Text.lowercase "x-request-id" = "x-request-id" := by decide +kernel
  rw [requestId?, header?_ofReply, hname, WireReply.requestId?]

end RestClient
