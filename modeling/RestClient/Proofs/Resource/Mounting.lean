import RestClient.Proofs.Path.Joining
import RestClient.Proofs.Resource.Compilation

namespace RestClient

/-- An error of a descriptor on its own, as it is below `base`. -/
def DescriptorError.mountedAt (base template : String) : DescriptorError → DescriptorError
  | .malformedTemplate e => .malformedTemplate
      ⟨Path.join base template, (Text.dropTrailingSlashes base).utf8ByteSize + e.position⟩
  | .unboundPlaceholder placeholder _ => .unboundPlaceholder placeholder (Path.join base template)
  | .unusedUrlParam name _ => .unusedUrlParam name (Path.join base template)
  | .parameterCollision name first second => .parameterCollision name first second
  | .duplicateParameter name kind => .duplicateParameter name kind

namespace Path.Template

theorem legal_chars {cs : List Char} (h : '\x7b' ∉ cs) : ∀ p ∈ cs.map Piece.char, p.Legal := by
  intro p hp
  obtain ⟨c, hc, rfl⟩ := List.mem_map.mp hp
  exact fun hopen => h (hopen ▸ hc)

theorem flatMap_text_chars (cs : List Char) : (cs.map Piece.char).flatMap Piece.text = cs := by
  simp [List.flatMap_map, Piece.text]

theorem parse_of_no_brace {text : String} (h : '\x7b' ∉ text.toList) :
    ∃ t, parse text = .ok t ∧ t.placeholders = [] := by
  refine ⟨⟨gather [] (text.toList.map .char)⟩,
    parse_eq_ok_iff.mpr ⟨_, legal_chars h, flatMap_text_chars _, rfl⟩, ?_⟩
  rw [placeholders_eq_slots, pieces_of_segments_eq_gather rfl, List.filterMap_map]
  exact List.filterMap_eq_nil_iff.mpr fun c _ => rfl

variable {base template : String}

/-- What is read below the root is read alike below a base without placeholders. -/
theorem parse_join_of_ok (hbase : '\x7b' ∉ base.toList) {t : Template}
    (ht : parse (join "/" template) = .ok t) :
    ∃ t', parse (join base template) = .ok t' ∧ t'.placeholders = t.placeholders := by
  obtain ⟨troot, hroot, hnone⟩ := @parse_of_no_brace "/" (by decide)
  obtain ⟨tb, htb, hnone'⟩ := parse_of_no_brace hbase
  obtain ⟨hiff, hslots⟩ := parse_join hroot template
  obtain ⟨hiff', hslots'⟩ := parse_join htb template
  obtain ⟨ttemplate, htemplate⟩ := hiff.mp ⟨t, ht⟩
  obtain ⟨t', ht'⟩ := hiff'.mpr ⟨ttemplate, htemplate⟩
  exact ⟨t', ht', by rw [hslots' _ _ ht' htemplate, hslots _ _ ht htemplate, hnone, hnone']⟩

theorem parse_join_of_error (hbase : '\x7b' ∉ base.toList) {e : Malformed}
    (he : parse (join "/" template) = .error e) : parse (join base template) =
      .error ⟨join base template, (Text.dropTrailingSlashes base).utf8ByteSize + e.position⟩ := by
  have hne : template ≠ "" := by
    rintro rfl
    obtain ⟨troot, hroot, -⟩ := @parse_of_no_brace (join "/" "") (by decide)
    simp [hroot] at he
  have hkept : '\x7b' ∉ (Text.dropTrailingSlashes base).toList := by
    have hbegin := Text.dropSuffixWhile_prefix (· == '/') base.toList
    rw [Text.dropTrailingSlashes, String.toList_ofList]
    exact fun hmem => hbase (hbegin.subset hmem)
  rw [join_root_of_ne_empty hne] at he
  rw [join_of_ne_empty base hne]
  exact parse_append_of_error (legal_chars hkept) (flatMap_text_chars _) he

end Path.Template

namespace Descriptor

/-- The checks of the parameters, which no path takes part in. -/
def checkParams (d : Descriptor) : Except DescriptorError Unit := do
  d.checkUnique .url
  d.checkUnique .query
  d.checkUnique .payload
  d.checkDisjoint .url .query
  d.checkDisjoint .url .payload
  d.checkDisjoint .query .payload

/-- The template of a whole path, if its placeholders are the URL parameters. -/
def templateOf (d : Descriptor) (text : String) : Except DescriptorError Path.Template := do
  let template ← (Path.Template.parse text).mapError .malformedTemplate
  d.checkBound template text
  return template

variable {d : Descriptor} {base template : String}

theorem templateAt_eq (d : Descriptor) (basePath : String) : d.templateAt basePath =
    d.checkParams >>= fun _ => d.templateOf (Path.join basePath (d.path.getD "")) := by
  simp only [templateAt, checkParams, templateOf, bind_assoc]

theorem mountedAt_of_checkParams {e : DescriptorError} (h : d.checkParams = .error e) :
    e.mountedAt base template = e := by
  have hunique {kind : ParamKind} (h : d.checkUnique kind = .error e) :
      e.mountedAt base template = e := by
    rw [checkUnique] at h
    split at h <;> cases h
    rfl
  have hdisjoint {first second : ParamKind} (h : d.checkDisjoint first second = .error e) :
      e.mountedAt base template = e := by
    rw [checkDisjoint] at h
    split at h <;> cases h
    rfl
  simp only [checkParams, Except.bind_eq_error_iff] at h
  rcases h with h | ⟨_, -, h | ⟨_, -, h | ⟨_, -, h | ⟨_, -, h | ⟨_, -, h⟩⟩⟩⟩⟩
  iterate 3 exact hunique h
  iterate 3 exact hdisjoint h

theorem checkBound_join {t t' : Path.Template} (h : t'.placeholders = t.placeholders)
    (text : String) : d.checkBound t' (Path.join base template) =
      (d.checkBound t text).mapError (·.mountedAt base template) := by
  rw [checkBound, checkBound, h]
  split
  · rfl
  · split <;> rfl

/-- A descriptor is refused below a base without placeholders as it is on its own. -/
theorem map_templateAt (hbase : '\x7b' ∉ base.toList) (d : Descriptor) :
    (d.templateAt base).map (fun _ => ()) =
      d.validate.mapError (·.mountedAt base (d.path.getD "")) := by
  rw [validate, templateAt_eq, templateAt_eq]
  cases hparams : d.checkParams with
  | error e => exact congrArg Except.error (mountedAt_of_checkParams hparams).symm
  | ok =>
    simp only [Except.ok_bind, templateOf]
    cases hroot : Path.Template.parse (Path.join "/" (d.path.getD "")) with
    | error e =>
      rw [Path.Template.parse_join_of_error hbase hroot]
      rfl
    | ok t =>
      obtain ⟨t', ht', hslots⟩ := Path.Template.parse_join_of_ok hbase hroot
      rw [ht', Except.mapError_ok, Except.mapError_ok, Except.ok_bind, Except.ok_bind,
        checkBound_join hslots (Path.join "/" (d.path.getD ""))]
      cases d.checkBound t (Path.join "/" (d.path.getD "")) <;> rfl

/-- A base path that is a template of its own leaves it to the descriptor's path whether the whole
is one, and its placeholders come first. Below a base without placeholders a descriptor compiles if
and only if it is valid on its own, and any other is refused for the same: what changes is the text
of the path, and a malformed placeholder stands as many bytes further as the base has without its
trailing slashes. -/
theorem mount_compile {base : String} {tb : Path.Template}
    (hbase : Path.Template.parse base = .ok tb) (d : Descriptor) :
    let template := d.path.getD ""
    ((∃ t, Path.Template.parse (Path.join base template) = .ok t) ↔
      ∃ t, Path.Template.parse template = .ok t) ∧
    (∀ t t', Path.Template.parse (Path.join base template) = .ok t →
      Path.Template.parse template = .ok t' →
        t.placeholders = tb.placeholders ++ t'.placeholders) ∧
    ('\x7b' ∉ base.toList → ∀ name,
      ((∃ o, Operation.compile name base d = .ok o) ↔ d.validate = .ok ()) ∧
      ∀ e, Operation.compile name base d = .error e ↔
        ∃ e', d.validate = .error e' ∧ e = e'.mountedAt base template) := by
  intro template
  obtain ⟨hparse, hplaceholders⟩ := Path.Template.parse_join hbase template
  refine ⟨hparse, hplaceholders, fun hbrace name => ?_⟩
  have hmounted : (d.templateAt base).map (fun _ => ()) =
      d.validate.mapError (·.mountedAt base template) := map_templateAt hbrace d
  rw [Operation.compile]
  cases htemplate : d.templateAt base with
  | ok t =>
    cases hvalid : d.validate with
    | ok => simp
    | error e =>
      rw [htemplate, hvalid] at hmounted
      cases hmounted
  | error e =>
    cases hvalid : d.validate with
    | ok =>
      rw [htemplate, hvalid] at hmounted
      cases hmounted
    | error e' =>
      rw [htemplate, hvalid] at hmounted
      obtain rfl : e = e'.mountedAt base template := Except.error.inj hmounted
      simp [eq_comm]

/-- The base has a stray brace, a letter of two bytes and slashes at its end; the error moves by the
ten bytes before those slashes. -/
theorem mount_malformed :
    let base := "/kaffee\x7dü//"
    let d : Descriptor := {
      method := .get, path := some (Path.slot "id" ++ "/\x7b"), urlParams := ["id"] }
    '\x7b' ∉ base.toList ∧
      d.validate = .error (.malformedTemplate ⟨"/" ++ Path.slot "id" ++ "/\x7b", 6⟩) ∧
      Operation.compile "find" base d =
        .error (.malformedTemplate ⟨"/kaffee\x7dü/" ++ Path.slot "id" ++ "/\x7b", 16⟩) := by
  intro base d
  have hbase : Path.Template.parse base = .ok ⟨[.literal base]⟩ := by decide +kernel
  have hbrace : '\x7b' ∉ base.toList := by decide +kernel
  have hvalid : d.validate = .error (.malformedTemplate ⟨"/" ++ Path.slot "id" ++ "/\x7b", 6⟩) := by
    decide +kernel
  have hmounted := ((mount_compile hbase d).2.2 hbrace "find").2
  exact ⟨hbrace, hvalid, (hmounted _).mpr ⟨_, hvalid, by decide +kernel⟩⟩

end Descriptor
end RestClient
