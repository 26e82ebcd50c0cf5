import RestClient.Path.Template
import RestClient.Proofs.Except

namespace RestClient.Path

/-- A segment with a value for every placeholder. -/
def Segment.filled (value : String → String) : Segment → String
  | .literal text => text
  | .placeholder name => Encoding.encodeComponent (value name)

namespace Template

/-- The path with a value for every placeholder. -/
def filled (t : Template) (value : String → String) : String :=
  String.join (t.segments.map (Segment.filled value))

section

variable (value : String → String) (segments : List Segment)

@[simp] theorem filled_nil : filled ⟨[]⟩ value = "" := rfl

@[simp] theorem filled_literal (text : String) :
    filled ⟨.literal text :: segments⟩ value = text ++ filled ⟨segments⟩ value :=
  String.join_cons

@[simp] theorem filled_placeholder (name : String) :
    filled ⟨.placeholder name :: segments⟩ value =
      Encoding.encodeComponent (value name) ++ filled ⟨segments⟩ value :=
  String.join_cons

end

theorem render_eq_ok {t : Template} {value : String → Option String} {f : String → String}
    (h : ∀ name ∈ t.placeholders, value name = some (f name)) :
    t.render value = .ok (t.filled f) := by
  have hsegments : ∀ s ∈ t.segments, s.render value = .ok (s.filled f) := by
    intro s hs
    cases s with
    | literal text => rfl
    | placeholder name =>
      have hv : value name = some (f name) := h name (List.mem_filterMap.mpr ⟨_, hs, rfl⟩)
      simp only [Segment.render, Segment.filled, hv]
  rw [render, Except.mapM_eq_ok_map hsegments]
  rfl

end Template
end RestClient.Path
