import Mathlib.Data.List.Duplicate
import RestClient.Proofs.Resource.Compilation

namespace RestClient

/-- The lists that are read for repeats before the list of this kind. -/
def ParamKind.earlier : ParamKind → List ParamKind
  | .url => []
  | .query => [.url]
  | .payload => [.url, .query]

theorem duplicate_of_firstRepeat? {seen names : List String} {name : String}
    (h : firstRepeat? seen names = some name) :
    (name ∈ seen ∧ name ∈ names) ∨ List.Duplicate name names := by
  induction names generalizing seen with
  | nil => cases h
  | cons n names ih =>
    rw [firstRepeat?] at h
    split at h
    case isTrue hseen =>
      obtain rfl := Option.some.inj h
      exact .inl ⟨by simpa using hseen, List.mem_cons_self⟩
    case isFalse hnew =>
      rcases ih h with ⟨hmem, hlater⟩ | hlater
      · rcases List.mem_cons.mp hmem with rfl | hmem
        · exact .inr (List.Mem.duplicate_cons_self hlater)
        · exact .inl ⟨hmem, List.mem_cons_of_mem n hlater⟩
      · exact .inr (hlater.duplicate_cons n)

namespace Descriptor

/-- The descriptor has the defect at the base path. A repeat is the first of its kind: no list that
is read earlier has one. -/
def Flawed (d : Descriptor) (basePath : String) : DescriptorError → Prop
  | .duplicateParameter name kind =>
    2 ≤ (d.params kind).count name ∧ ∀ kind' ∈ kind.earlier, (d.params kind').Nodup
  | .parameterCollision name first second =>
    first ≠ second ∧ name ∈ d.params first ∧ name ∈ d.params second
  | .malformedTemplate e =>
    Path.Template.parse (Path.join basePath (d.path.getD "")) = .error e
  | .unboundPlaceholder placeholder text =>
    text = Path.join basePath (d.path.getD "") ∧
      ∃ t, Path.Template.parse text = .ok t ∧ placeholder ∈ t.placeholders ∧
        placeholder ∉ d.urlParams
  | .unusedUrlParam name text =>
    text = Path.join basePath (d.path.getD "") ∧
      ∃ t, Path.Template.parse text = .ok t ∧ name ∈ d.urlParams ∧ name ∉ t.placeholders

theorem flawed_of_checkUnique {d : Descriptor} {basePath : String} {kind : ParamKind}
    {e : DescriptorError} (h : d.checkUnique kind = .error e)
    (hearlier : ∀ kind' ∈ kind.earlier, (d.params kind').Nodup) : d.Flawed basePath e := by
  rw [checkUnique] at h
  split at h
  case h_2 => cases h
  case h_1 name hname =>
    obtain rfl := Except.error.inj h
    have hrepeat :=
      (duplicate_of_firstRepeat? hname).resolve_left fun hseen => List.not_mem_nil hseen.1
    exact ⟨List.duplicate_iff_two_le_count.mp hrepeat, hearlier⟩

theorem flawed_of_checkDisjoint {d : Descriptor} {basePath : String} {first second : ParamKind}
    {e : DescriptorError} (hne : first ≠ second) (h : d.checkDisjoint first second = .error e) :
    d.Flawed basePath e := by
  rw [checkDisjoint] at h
  split at h
  case h_2 => cases h
  case h_1 name hname =>
    obtain rfl := Except.error.inj h
    exact ⟨hne, List.mem_of_find?_eq_some hname, by simpa using List.find?_some hname⟩

theorem flawed_of_checkBound {d : Descriptor} {basePath : String} {t : Path.Template}
    {e : DescriptorError} (ht : Path.Template.parse (Path.join basePath (d.path.getD "")) = .ok t)
    (h : d.checkBound t (Path.join basePath (d.path.getD "")) = .error e) :
    d.Flawed basePath e := by
  rw [checkBound] at h
  split at h
  case h_1 placeholder hplaceholder =>
    obtain rfl := Except.error.inj h
    have hunbound : placeholder ∉ d.urlParams := by simpa using List.find?_some hplaceholder
    exact ⟨rfl, t, ht, List.mem_of_find?_eq_some hplaceholder, hunbound⟩
  case h_2 =>
    split at h
    case h_2 => cases h
    case h_1 name hname =>
      obtain rfl := Except.error.inj h
      have hunused : name ∉ t.placeholders := by simpa using List.find?_some hname
      exact ⟨rfl, t, ht, List.mem_of_find?_eq_some hname, hunused⟩

theorem flawed_of_templateAt {d : Descriptor} {basePath : String} {e : DescriptorError}
    (h : d.templateAt basePath = .error e) : d.Flawed basePath e := by
  simp only [templateAt, Except.bind_eq_error_iff, Except.mapError_eq_error_iff] at h
  rcases h with hurl | ⟨_, hurl, h⟩
  · exact flawed_of_checkUnique hurl (by simp [ParamKind.earlier])
  have hnodupUrl := checkUnique_eq_ok_iff.mp hurl
  rcases h with hquery | ⟨_, hquery, h⟩
  · exact flawed_of_checkUnique hquery (by simpa [ParamKind.earlier] using hnodupUrl)
  have hnodupQuery := checkUnique_eq_ok_iff.mp hquery
  rcases h with hpayload | ⟨_, -, h⟩
  · exact flawed_of_checkUnique hpayload
      (by simpa [ParamKind.earlier] using ⟨hnodupUrl, hnodupQuery⟩)
  rcases h with hcollision | ⟨_, -, hcollision | ⟨_, -, hcollision | ⟨_, -, h⟩⟩⟩
  iterate 3 exact flawed_of_checkDisjoint (by decide) hcollision
  rcases h with ⟨malformed, hmalformed, rfl⟩ | ⟨t, ht, hbound | ⟨_, -, h⟩⟩
  · exact hmalformed
  · exact flawed_of_checkBound (Except.mapError_eq_ok_iff.mp ht) hbound
  · cases h

/-- A descriptor has a template at a base path if and only if it is sound there: its lists have no
repeats, no parameter stands in two of them, the joined path is a template, and its placeholders are
the URL parameters. Any other descriptor is refused for a flaw that it has. -/
theorem templateAt_iff_sound (d : Descriptor) (basePath : String) :
    (∀ t, d.templateAt basePath = .ok t ↔ d.Sound basePath t) ∧
      ∀ e, d.templateAt basePath = .error e → d.Flawed basePath e :=
  ⟨fun _ => templateAt_eq_ok_iff, fun _ => flawed_of_templateAt⟩

/-- The repeated query parameter is named, and neither the one that is a URL parameter too nor the
repeated payload parameter. -/
theorem repeat_before_collision :
    let d : Descriptor := {
      method := .post, path := some (Path.slot "id"), urlParams := ["id"]
      queryParams := ["page", "id", "page"], payloadParams := some ["note", "note"] }
    d.templateAt "/orders" = .error (.duplicateParameter "page" .query) ∧
      d.Flawed "/orders" (.duplicateParameter "page" .query) := by
  intro d
  have herror : d.templateAt "/orders" = .error (.duplicateParameter "page" .query) := by
    decide +kernel
  exact ⟨herror, (templateAt_iff_sound d "/orders").2 _ herror⟩

end Descriptor
end RestClient
