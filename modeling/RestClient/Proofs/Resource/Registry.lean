import RestClient.Proofs.Resource.Compilation

namespace RestClient.Resource

/-- What a list of declarations needs for all of them to become operations. -/
structure Acceptable (basePath : String) (declared : List (String × Descriptor)) : Prop where
  named : ∀ entry ∈ declared, entry.1 ≠ ""
  nodup : (declared.map Prod.fst).Nodup
  sound : ∀ entry ∈ declared, ∃ t, entry.2.templateAt basePath = .ok t

/-- Why a declaration is refused where the names `earlier` are taken. The name is looked at before
the descriptor. -/
inductive Refused (basePath : String) (earlier : List String) :
    String × Descriptor → ResourceError → Prop
  | unnamed (d : Descriptor) : Refused basePath earlier ("", d) (.emptyMethodName basePath)
  | taken {name : String} (d : Descriptor) (hname : name ≠ "") (h : name ∈ earlier) :
      Refused basePath earlier (name, d) (.duplicateMethod name basePath)
  | unsound {name : String} {d : Descriptor} {e : DescriptorError} (hname : name ≠ "")
      (hnew : name ∉ earlier) (h : d.templateAt basePath = .error e) :
      Refused basePath earlier (name, d) (.invalidDescriptor name e)

/-- The first declaration that is refused is refused with `e`. -/
def FirstRefused (basePath : String) (declared : List (String × Descriptor)) (e : ResourceError) :
    Prop :=
  ∃ before entry after, declared = before ++ entry :: after ∧ Acceptable basePath before ∧
    Refused basePath (before.map Prod.fst) entry e

/-- The operations of all declarations, in the order of their names. -/
structure Registry (basePath : String) (declared : List (String × Descriptor))
    (os : List Operation) : Prop where
  sorted : os.Pairwise fun o o' => o.name < o'.name
  mem_iff : ∀ o, o ∈ os ↔
    ∃ d, (o.name, d) ∈ declared ∧ Operation.compile o.name basePath d = .ok o

variable {basePath : String} {declared declared' : List (String × Descriptor)}
  {os os' : List Operation} {e : ResourceError}

theorem refused_congr {earlier earlier' : List String}
    (h : ∀ name, name ∈ earlier ↔ name ∈ earlier')
    {entry : String × Descriptor} (hrefused : Refused basePath earlier entry e) :
    Refused basePath earlier' entry e := by
  cases hrefused with
  | unnamed d => exact .unnamed d
  | taken d hname htaken => exact .taken d hname ((h _).mp htaken)
  | unsound hname hnew hd => exact .unsound hname (mt (h _).mpr hnew) hd

theorem acceptable_perm (h : declared.Perm declared') (hd : Acceptable basePath declared) :
    Acceptable basePath declared' :=
  ⟨fun entry hentry => hd.named entry (h.mem_iff.mpr hentry),
    (h.map Prod.fst).nodup_iff.mp hd.nodup,
    fun entry hentry => hd.sound entry (h.mem_iff.mpr hentry)⟩

theorem registry_perm (h : declared.Perm declared') (hos : Registry basePath declared os) :
    Registry basePath declared' os := by
  refine ⟨hos.sorted, fun o => ?_⟩
  rw [hos.mem_iff]
  simp only [h.mem_iff]

/-- The declarations leave no choice of the operations or of their order. -/
theorem registry_unique (hos : Registry basePath declared os)
    (hos' : Registry basePath declared os') : os = os' := by
  have hnodup {l : List Operation} (h : Registry basePath declared l) : l.Nodup :=
    h.sorted.imp fun hlt heq => String.ne_of_lt hlt (congrArg Operation.name heq)
  have hperm : os.Perm os' := by
    rw [List.perm_ext_iff_of_nodup (hnodup hos) (hnodup hos')]
    intro o
    rw [hos.mem_iff, hos'.mem_iff]
  exact hperm.eq_of_pairwise (fun o o' _ _ hlt hgt => absurd hgt (String.lt_asymm hlt))
    hos.sorted hos'.sorted

namespace Plan

theorem refused_of_add {entry : String × Descriptor} (h : add basePath os entry = .error e) :
    Refused basePath (os.map (·.name)) entry e := by
  obtain ⟨name, d⟩ := entry
  rw [add] at h
  split at h
  case isTrue hempty =>
    obtain rfl := Except.error.inj h
    obtain rfl : name = "" := by simpa using hempty
    exact .unnamed d
  case isFalse hempty =>
    have hname : name ≠ "" := by simpa using hempty
    split at h
    case isTrue hdup =>
      obtain rfl := Except.error.inj h
      exact .taken d hname (by simpa using hdup)
    case isFalse hdup =>
      rw [Operation.compile] at h
      cases ht : d.templateAt basePath with
      | ok t =>
        rw [ht] at h
        cases h
      | error e' =>
        rw [ht] at h
        obtain rfl := Except.error.inj h
        exact .unsound hname (by simpa using hdup) ht

theorem add_of_refused {entry : String × Descriptor}
    (h : Refused basePath (os.map (·.name)) entry e) : add basePath os entry = .error e := by
  cases h with
  | unnamed d => rfl
  | @taken name d hname htaken =>
    have hdup : os.any (·.name == name) := by simpa using htaken
    rw [add, if_neg (by simpa using hname), if_pos hdup]
  | @unsound name d e hname hnew ht =>
    have hdup : ¬ os.any (·.name == name) := by simpa using hnew
    rw [add, if_neg (by simpa using hname), if_neg hdup, Operation.compile, ht]
    rfl

theorem add_eq_error_iff {entry : String × Descriptor} :
    add basePath os entry = .error e ↔ Refused basePath (os.map (·.name)) entry e :=
  ⟨refused_of_add, add_of_refused⟩

theorem sorted_insertByName {o : Operation} (hos : os.Pairwise fun o o' => o.name < o'.name)
    (hnew : o.name ∉ os.map (·.name)) :
    (insertByName o os).Pairwise fun o o' => o.name < o'.name := by
  induction os with
  | nil => simp [insertByName]
  | cons o' os ih =>
    obtain ⟨hfirst, hrest⟩ := List.pairwise_cons.mp hos
    rw [List.map_cons, List.mem_cons, not_or] at hnew
    rw [insertByName]
    split
    case isTrue hlt =>
      refine List.pairwise_cons.mpr ⟨fun o'' ho'' => ?_, hos⟩
      rcases List.mem_cons.mp ho'' with rfl | ho''
      · exact hlt
      · exact String.lt_trans hlt (hfirst o'' ho'')
    case isFalse hle =>
      refine List.pairwise_cons.mpr ⟨fun o'' ho'' => ?_, ih hrest hnew.2⟩
      rcases List.mem_cons.mp ((insertByName_perm o os).mem_iff.mp ho'') with rfl | ho''
      · exact Decidable.byContradiction fun hnot => hnew.1 (String.le_antisymm hnot hle)
      · exact hfirst o'' ho''

theorem names_of_foldlM_add (h : declared.foldlM (add basePath) os = .ok os') :
    (os'.map (·.name)).Perm (os.map (·.name) ++ declared.map Prod.fst) := by
  induction declared generalizing os with
  | nil =>
    rw [List.foldlM_nil, Except.pure_eq_ok] at h
    obtain rfl := Except.ok.inj h
    simp
  | cons entry declared ih =>
    obtain ⟨name, d⟩ := entry
    rw [List.foldlM_cons] at h
    obtain ⟨os'', hadd, hrest⟩ := Except.bind_eq_ok_iff.mp h
    obtain ⟨-, -, o, hcompile, rfl⟩ := add_eq_ok_iff.mp hadd
    obtain ⟨rfl, -⟩ := Operation.compile_eq_ok_iff.mp hcompile
    have hnames := (insertByName_perm o os).map (·.name)
    refine (ih hrest).trans ((hnames.append_right _).trans ?_)
    simpa using List.perm_middle.symm

theorem not_refused_of_acceptable {before after : List (String × Descriptor)}
    {entry : String × Descriptor} (h : Acceptable basePath (before ++ entry :: after)) :
    ¬ Refused basePath (before.map Prod.fst) entry e := by
  have hmem : entry ∈ before ++ entry :: after := by simp
  intro hrefused
  cases hrefused with
  | unnamed d => exact h.named _ hmem rfl
  | taken d _ htaken =>
    have hnodup := h.nodup
    rw [List.map_append, List.nodup_append] at hnodup
    exact hnodup.2.2 _ htaken _ (by simp) rfl
  | unsound _ _ herror =>
    obtain ⟨t, ht⟩ := h.sound _ hmem
    simp [ht] at herror

/-- Declarations are all added if and only if they are acceptable. -/
theorem exists_foldlM_add_iff :
    (∃ os, declared.foldlM (add basePath) [] = .ok os) ↔ Acceptable basePath declared := by
  constructor
  · rintro ⟨os, hos⟩
    have hnames : (os.map (·.name)).Perm (declared.map Prod.fst) := by
      simpa using names_of_foldlM_add hos
    have hstep : ∀ entry ∈ declared,
        entry.1 ≠ "" ∧ ∃ o, Operation.compile entry.1 basePath entry.2 = .ok o := by
      intro entry hentry
      obtain ⟨c, c', hadd⟩ := Except.exists_step_of_foldlM hos hentry
      obtain ⟨hname, -, o, hcompile, -⟩ := add_eq_ok_iff.mp hadd
      exact ⟨hname, o, hcompile⟩
    refine ⟨fun entry hentry => (hstep entry hentry).1,
      hnames.nodup_iff.mp (registered_of_foldlM hos).nodup, fun entry hentry => ?_⟩
    obtain ⟨-, o, hcompile⟩ := hstep entry hentry
    obtain ⟨-, -, -, hsound⟩ := Operation.compile_eq_ok_iff.mp hcompile
    exact ⟨o.template, Descriptor.templateAt_eq_ok_iff.mpr hsound⟩
  · intro h
    cases hos : declared.foldlM (add basePath) [] with
    | ok os => exact ⟨os, rfl⟩
    | error e =>
      obtain ⟨before, entry, after, os, rfl, hbefore, hfail⟩ := Except.foldlM_eq_error_iff.mp hos
      have hnames := names_of_foldlM_add hbefore
      have hrefused := refused_congr (fun _ => hnames.mem_iff) (add_eq_error_iff.mp hfail)
      exact absurd hrefused (not_refused_of_acceptable h)

theorem foldlM_add_eq_error_iff :
    declared.foldlM (add basePath) [] = .error e ↔ FirstRefused basePath declared e := by
  rw [Except.foldlM_eq_error_iff]
  constructor
  · rintro ⟨before, entry, after, os, rfl, hbefore, hfail⟩
    have hnames := names_of_foldlM_add hbefore
    exact ⟨before, entry, after, rfl, exists_foldlM_add_iff.mp ⟨os, hbefore⟩,
      refused_congr (fun _ => hnames.mem_iff) (add_eq_error_iff.mp hfail)⟩
  · rintro ⟨before, entry, after, rfl, hacceptable, hrefused⟩
    obtain ⟨os, hbefore⟩ := exists_foldlM_add_iff.mpr hacceptable
    have hnames := names_of_foldlM_add hbefore
    exact ⟨before, entry, after, os, rfl, hbefore,
      add_eq_error_iff.mpr (refused_congr (fun _ => hnames.symm.mem_iff) hrefused)⟩

theorem registry_of_foldlM (h : declared.foldlM (add basePath) [] = .ok os) :
    Registry basePath declared os := by
  have hregistered := registered_of_foldlM h
  have hnames : (os.map (·.name)).Perm (declared.map Prod.fst) := by
    simpa using names_of_foldlM_add h
  constructor
  · refine Except.foldlM_invariant (fun os hos entry _ os' hadd => ?_) List.Pairwise.nil h
    obtain ⟨-, hnew, o, hcompile, rfl⟩ := add_eq_ok_iff.mp hadd
    obtain ⟨hname, -⟩ := Operation.compile_eq_ok_iff.mp hcompile
    exact sorted_insertByName hos (hname ▸ hnew)
  · intro o
    constructor
    · intro ho
      exact ⟨o.descriptor, hregistered.compiled o ho⟩
    · rintro ⟨d, hmem, hcompile⟩
      -- The name is that of an operation, and only one declaration has it.
      have hname : o.name ∈ os.map (·.name) :=
        hnames.mem_iff.mpr (List.mem_map_of_mem hmem)
      obtain ⟨o', ho', heq⟩ := List.mem_map.mp hname
      obtain ⟨hmem', hcompile'⟩ := hregistered.compiled o' ho'
      have hentry :=
        List.inj_on_of_nodup_map (hnames.nodup_iff.mp hregistered.nodup) hmem hmem' heq.symm
      rw [← heq, (Prod.mk.inj hentry).2, hcompile'] at hcompile
      exact Except.ok.inj hcompile ▸ ho'

/-- A plan is built if and only if its base path is not empty and its declarations are acceptable,
and what is built are their operations. -/
theorem build_eq_ok_iff {p : Plan} {r : Resource} :
    p.build = .ok r ↔ p.basePath ≠ "" ∧ Acceptable p.basePath p.declared ∧
      r.basePath = p.basePath ∧ Registry p.basePath p.declared r.operations := by
  by_cases hempty : p.basePath = ""
  · simp [build, hempty]
  rw [build, if_neg (by simpa using hempty), Except.bind_eq_ok_iff]
  constructor
  · rintro ⟨os, hos, hr⟩
    obtain rfl := Except.ok.inj hr
    exact ⟨hempty, exists_foldlM_add_iff.mp ⟨os, hos⟩, rfl, registry_of_foldlM hos⟩
  · rintro ⟨-, hacceptable, hbase, hregistry⟩
    obtain ⟨os, hos⟩ := exists_foldlM_add_iff.mpr hacceptable
    obtain rfl := registry_unique (registry_of_foldlM hos) hregistry
    exact ⟨r.operations, hos, by rw [← hbase]; rfl⟩

theorem exists_build_iff {p : Plan} :
    (∃ r, p.build = .ok r) ↔ p.basePath ≠ "" ∧ Acceptable p.basePath p.declared := by
  constructor
  · rintro ⟨r, hr⟩
    obtain ⟨hne, hacceptable, -⟩ := build_eq_ok_iff.mp hr
    exact ⟨hne, hacceptable⟩
  · rintro ⟨hne, hacceptable⟩
    obtain ⟨os, hos⟩ := exists_foldlM_add_iff.mpr hacceptable
    exact ⟨⟨p.basePath, os⟩,
      build_eq_ok_iff.mpr ⟨hne, hacceptable, rfl, registry_of_foldlM hos⟩⟩

theorem build_eq_error_iff {p : Plan} :
    p.build = .error e ↔ p.basePath = "" ∧ e = .emptyBasePath ∨
      p.basePath ≠ "" ∧ FirstRefused p.basePath p.declared e := by
  by_cases hempty : p.basePath = ""
  · have hbuild : p.build = .error .emptyBasePath := by simp [build, hempty]
    simp [hbuild, hempty, eq_comm]
  rw [build, if_neg (by simpa using hempty), Except.bind_eq_error_iff, foldlM_add_eq_error_iff]
  simp [hempty]

end Plan

/-- The operation of a name is the declaration of that name, compiled. -/
theorem operation?_eq_some_iff {r : Resource} (h : Registry basePath declared r.operations)
    {name : String} {o : Operation} : r.operation? name = some o ↔
      ∃ d, (name, d) ∈ declared ∧ Operation.compile name basePath d = .ok o := by
  constructor
  · intro hfind
    obtain ⟨ho, rfl⟩ := operation?_eq_some hfind
    exact (h.mem_iff o).mp ho
  · rintro ⟨d, hmem, hcompile⟩
    obtain ⟨rfl, -⟩ := Operation.compile_eq_ok_iff.mp hcompile
    have hnodup : (r.operations.map (·.name)).Nodup :=
      List.pairwise_map.mpr (h.sorted.imp String.ne_of_lt)
    exact operation?_of_nodup hnodup ((h.mem_iff o).mpr ⟨d, hmem, hcompile⟩)

end RestClient.Resource
