import RestClient.Proofs.Entries.Lookup
import RestClient.Proofs.Json.Parts

namespace RestClient.Json

namespace Reader

variable {cs rest : List Char}

theorem wellFormed_of_scalar {v : Json} (h : scalar cs = some (v, rest)) (d : Nat) :
    WellFormed d v := by
  unfold scalar at h
  split at h
  case h_1 | h_2 | h_3 =>
    obtain ⟨rfl, -⟩ := Prod.mk.inj (Option.some.inj h)
    exact wellFormed_of_parts rfl rfl rfl d
  case h_4 | h_5 =>
    obtain ⟨_, -, hv⟩ := Option.map_eq_some_iff.mp h
    obtain ⟨rfl, -⟩ := Prod.mk.inj hv
    exact wellFormed_of_parts rfl rfl rfl d

/-- Whatever the reader reads has the property. -/
def Yields (read : Reader Json) (P : Json → Prop) : Prop :=
  ∀ cs v rest, read cs = some (v, rest) → P v

variable {read : Reader Json} {P : Json → Prop}

theorem yields_itemsAfter (h : Yields read P) {fuel : Nat} {vs : List Json}
    (hvs : itemsAfter read fuel cs = some (vs, rest)) : ∀ v ∈ vs, P v := by
  induction fuel generalizing cs vs rest with
  | zero => cases hvs
  | succ fuel ih =>
    obtain ⟨⟨v, cs'⟩, hv, hvs⟩ := Option.bind_eq_some_iff.mp hvs
    have hP : P v := h _ _ _ hv
    dsimp only at hvs
    split at hvs
    case h_1 =>
      obtain ⟨⟨us, _⟩, hus, heq⟩ := Option.bind_eq_some_iff.mp hvs
      obtain ⟨rfl, -⟩ := Prod.mk.inj (Option.some.inj heq)
      exact List.forall_mem_cons.mpr ⟨hP, ih hus⟩
    case h_2 =>
      obtain ⟨rfl, -⟩ := Prod.mk.inj (Option.some.inj hvs)
      exact List.forall_mem_singleton.mpr hP
    case h_3 => cases hvs

theorem yields_field (h : Yields read P) {f : String × Json}
    (hf : field read cs = some (f, rest)) : P f.2 := by
  unfold field at hf
  split at hf
  case h_2 => cases hf
  case h_1 =>
    obtain ⟨⟨k, cs'⟩, -, hf⟩ := Option.bind_eq_some_iff.mp hf
    dsimp only at hf
    split at hf
    case h_2 => cases hf
    case h_1 =>
      obtain ⟨⟨v, _⟩, hv, heq⟩ := Option.bind_eq_some_iff.mp hf
      obtain ⟨rfl, -⟩ := Prod.mk.inj (Option.some.inj heq)
      exact h _ _ _ hv

theorem yields_fieldsAfter (h : Yields read P) {fuel : Nat} {fs : Entries Json}
    (hfs : fieldsAfter read fuel cs = some (fs, rest)) : ∀ f ∈ fs, P f.2 := by
  induction fuel generalizing cs fs rest with
  | zero => cases hfs
  | succ fuel ih =>
    obtain ⟨⟨f, cs'⟩, hf, hfs⟩ := Option.bind_eq_some_iff.mp hfs
    have hP : P f.2 := yields_field h hf
    dsimp only at hfs
    split at hfs
    case h_1 =>
      obtain ⟨⟨gs, _⟩, hgs, heq⟩ := Option.bind_eq_some_iff.mp hfs
      obtain ⟨rfl, -⟩ := Prod.mk.inj (Option.some.inj heq)
      exact List.forall_mem_cons.mpr ⟨hP, ih hgs⟩
    case h_2 =>
      obtain ⟨rfl, -⟩ := Prod.mk.inj (Option.some.inj hfs)
      exact List.forall_mem_singleton.mpr hP
    case h_3 => cases hfs

/-- A reader that goes to some depth reads values that are well-formed to that depth. -/
theorem yields_value (fuel depth : Nat) : Yields (value fuel depth) (WellFormed depth) := by
  induction depth with
  | zero =>
    intro cs v rest h
    exact wellFormed_of_scalar h 0
  | succ depth ih =>
    intro cs v rest h
    rw [value] at h
    split at h
    case h_1 =>
      split at h
      case h_1 =>
        obtain ⟨rfl, -⟩ := Prod.mk.inj (Option.some.inj h)
        exact wellFormed_array_iff.mpr (by simp)
      case h_2 =>
        obtain ⟨⟨vs, _⟩, hvs, heq⟩ := Option.map_eq_some_iff.mp h
        obtain ⟨rfl, -⟩ := Prod.mk.inj heq
        exact wellFormed_array_iff.mpr (yields_itemsAfter ih hvs)
    case h_2 =>
      split at h
      case h_1 =>
        obtain ⟨rfl, -⟩ := Prod.mk.inj (Option.some.inj h)
        exact wellFormed_object_iff.mpr (by simp)
      case h_2 =>
        obtain ⟨⟨fs, _⟩, hfs, heq⟩ := Option.map_eq_some_iff.mp h
        obtain ⟨rfl, -⟩ := Prod.mk.inj heq
        have hfields := yields_fieldsAfter ih hfs
        exact wellFormed_object_iff.mpr ⟨Entries.nodup_keys_ofPairs fs,
          fun f hf => hfields f (Entries.mem_of_mem_ofPairs hf)⟩
    case h_3 => exact wellFormed_of_scalar h (depth + 1)

end Reader

theorem wellFormed_of_parse? {text : String} {v : Json} (h : parse? text = some v) :
    WellFormed maxDepth v := by
  unfold parse? at h
  dsimp only at h
  split at h
  case h_1 heq =>
    split at h
    · obtain rfl := Option.some.inj h
      exact Reader.yields_value _ _ _ _ _ heq
    · cases h
  case h_2 => cases h

end RestClient.Json
