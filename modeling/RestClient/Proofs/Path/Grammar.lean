import Mathlib.Data.List.Chain
import RestClient.Path.Template
import RestClient.Proofs.Except
import RestClient.Proofs.Text.Bytes

namespace RestClient.Path

inductive Piece where
  | char (c : Char)
  | slot (name : String)
  deriving DecidableEq

namespace Piece

def text : Piece → List Char
  | .char c => [c]
  | .slot name => (Path.slot name).toList

@[simp] theorem text_slot (name : String) :
    (slot name).text = '\x7b' :: (name.toList ++ ['\x7d']) := by
  simp [text, Path.slot]

/-- An opening brace always opens a placeholder, whose name is not empty and holds no brace. -/
def Legal : Piece → Prop
  | .char c => c ≠ '\x7b'
  | .slot name => name ≠ "" ∧ '\x7b' ∉ name.toList ∧ '\x7d' ∉ name.toList

instance : DecidablePred Legal
  | .char c => inferInstanceAs (Decidable (c ≠ '\x7b'))
  | .slot name =>
    inferInstanceAs (Decidable (name ≠ "" ∧ '\x7b' ∉ name.toList ∧ '\x7d' ∉ name.toList))

def slot? : Piece → Option String
  | .char _ => none
  | .slot name => some name

end Piece

namespace Segment

def pieces : Segment → List Piece
  | .literal text => text.toList.map .char
  | .placeholder name => [.slot name]

def isLiteral : Segment → Bool
  | .literal _ => true
  | .placeholder _ => false

/-- A literal is not empty and opens no placeholder. -/
def Legal : Segment → Prop
  | .literal text => text ≠ "" ∧ '\x7b' ∉ text.toList
  | .placeholder name => (Piece.slot name).Legal

end Segment

namespace Template

def pieces (t : Template) : List Piece := t.segments.flatMap Segment.pieces

/-- All segments are legal, and no two literals stand side by side. -/
structure Canonical (t : Template) : Prop where
  legal : ∀ s ∈ t.segments, s.Legal
  apart : t.segments.IsChain fun s s' => ¬ (s.isLiteral ∧ s'.isLiteral)

/-- The segments of a sequence of pieces that goes on with a literal; `pending` is what stands there
already, last character first. -/
def gather (pending : List Char) : List Piece → List Segment
  | [] => literalSegments pending
  | .char c :: ps => gather (c :: pending) ps
  | .slot name :: ps => literalSegments pending ++ .placeholder name :: gather [] ps

variable {pending cs : List Char} {position opened : Nat} {segments : List Segment}
  {ps : List Piece}

theorem inPlaceholder_name {name : List Char} (h : '\x7b' ∉ name ∧ '\x7d' ∉ name)
    (pending : List Char) (hne : name ≠ [] ∨ pending ≠ []) (opened position : Nat)
    (rest : List Char) :
    inPlaceholder pending opened position (name ++ '\x7d' :: rest) =
      (.placeholder (String.ofList (pending.reverse ++ name)) :: ·) <$>
        inLiteral [] (position + (Text.Utf8.encode name).length + 1) rest := by
  induction name generalizing pending position with
  | nil =>
    have hpending : pending.isEmpty = false := by simpa using hne
    rw [List.nil_append, inPlaceholder, if_pos rfl, hpending, List.append_nil]
    rfl
  | cons c name ih =>
    simp only [List.mem_cons, not_or] at h
    obtain ⟨⟨hopen, hopens⟩, hclose, hcloses⟩ := h
    rw [List.cons_append, inPlaceholder, if_neg (Ne.symm hclose), if_neg (Ne.symm hopen),
      ih ⟨hopens, hcloses⟩ (c :: pending) (.inr (List.cons_ne_nil c pending))]
    simp [Nat.add_assoc]

theorem inPlaceholder_eq_error (h : ∀ name rest, '\x7b' ∉ name → '\x7d' ∉ name →
    cs = name ++ '\x7d' :: rest → pending = [] ∧ name = []) (opened position : Nat) :
    inPlaceholder pending opened position cs = .error opened := by
  induction cs generalizing pending position with
  | nil => rfl
  | cons c cs ih =>
    rw [inPlaceholder]
    by_cases hclose : c = '\x7d'
    · obtain ⟨hpending, -⟩ := h [] cs List.not_mem_nil List.not_mem_nil (by rw [hclose]; rfl)
      rw [if_pos hclose, hpending]
      rfl
    rw [if_neg hclose]
    by_cases hopen : c = '\x7b'
    · rw [if_pos hopen]
    rw [if_neg hopen]
    apply ih
    rintro name rest hopens hcloses rfl
    have hmore := h (c :: name) rest (by simp [Ne.symm hopen, hopens])
      (by simp [Ne.symm hclose, hcloses]) rfl
    exact absurd hmore.2 (List.cons_ne_nil c name)

/-- The text starts with a placeholder. -/
def StartsWithSlot (cs : List Char) : Prop :=
  ∃ name rest, (Piece.slot name).Legal ∧ cs = (Piece.slot name).text ++ rest

theorem inPlaceholder_of_not_startsWithSlot (h : ¬ StartsWithSlot ('\x7b' :: cs))
    (opened position : Nat) : inPlaceholder [] opened position cs = .error opened := by
  apply inPlaceholder_eq_error
  intro name rest hopen hclose hcs
  refine ⟨rfl, Decidable.byContradiction fun hne => h ⟨String.ofList name, rest, ?_, ?_⟩⟩
  · exact ⟨by simpa [String.ext_iff] using hne, by simpa using hopen, by simpa using hclose⟩
  · simp [hcs]

theorem inLiteral_char {c : Char} (h : (Piece.char c).Legal) (cs : List Char) :
    inLiteral pending position ((Piece.char c).text ++ cs) = inLiteral (c :: pending)
      (position + (Text.Utf8.encode (Piece.char c).text).length) cs := by
  have hc : c ≠ '\x7b' := h
  rw [Piece.text, List.singleton_append, inLiteral, if_neg hc]
  simp

theorem inLiteral_slot {name : String} (h : (Piece.slot name).Legal) (cs : List Char) :
    inLiteral pending position ((Piece.slot name).text ++ cs) =
      (literalSegments pending ++ .placeholder name :: ·) <$>
        inLiteral [] (position + (Text.Utf8.encode (Piece.slot name).text).length) cs := by
  obtain ⟨hne, hbraces⟩ := h
  have hlength : (Text.Utf8.encode (Piece.slot name).text).length =
      1 + (Text.Utf8.encode name.toList).length + 1 := by
    have hbrace : '\x7b'.utf8Size = 1 ∧ '\x7d'.utf8Size = 1 := by decide
    simp [hbrace]
    omega
  rw [Piece.text_slot, List.cons_append, List.append_assoc, List.singleton_append, inLiteral,
    if_pos rfl, inPlaceholder_name hbraces [] (.inl (mt String.toList_eq_nil_iff.mp hne)),
    ← Piece.text_slot, hlength, List.reverse_nil, List.nil_append, String.ofList_toList]
  simp [← Nat.add_assoc]

/-- Legal pieces are read from the text that they spell. -/
theorem inLiteral_text (h : ∀ p ∈ ps, p.Legal) :
    inLiteral pending position (ps.flatMap Piece.text) = .ok (gather pending ps) := by
  induction ps generalizing pending position with
  | nil => rfl
  | cons p ps ih =>
    obtain ⟨hp, hps⟩ := List.forall_mem_cons.mp h
    cases p with
    | char c =>
      rw [List.flatMap_cons, inLiteral_char hp, ih hps]
      rfl
    | slot name =>
      rw [List.flatMap_cons, inLiteral_slot hp, ih hps]
      rfl

/-- Legal pieces are read up to a brace that opens no placeholder. -/
theorem inLiteral_eq_error (h : ∀ p ∈ ps, p.Legal) (hcs : ¬ StartsWithSlot ('\x7b' :: cs)) :
    inLiteral pending position (ps.flatMap Piece.text ++ '\x7b' :: cs) =
      .error (position + (Text.Utf8.encode (ps.flatMap Piece.text)).length) := by
  induction ps generalizing pending position with
  | nil =>
    rw [List.flatMap_nil, List.nil_append, inLiteral, if_pos rfl,
      inPlaceholder_of_not_startsWithSlot hcs]
    rfl
  | cons p ps ih =>
    obtain ⟨hp, hps⟩ := List.forall_mem_cons.mp h
    rw [List.flatMap_cons, List.append_assoc, Text.Utf8.encode_append, List.length_append,
      ← Nat.add_assoc]
    cases p with
    | char c => rw [inLiteral_char hp, ih hps]
    | slot name =>
      rw [inLiteral_slot hp, ih hps]
      rfl

/-- Legal pieces spell a text up to its end, or up to a brace that opens no placeholder. -/
theorem exists_pieces (cs : List Char) :
    ∃ (ps : List Piece) (tail : List Char), (∀ p ∈ ps, p.Legal) ∧
      cs = ps.flatMap Piece.text ++ tail ∧
      (tail = [] ∨ ∃ rest, tail = '\x7b' :: rest ∧ ¬ StartsWithSlot tail) := by
  -- What a placeholder leaves is shorter, but it is no tail of one character.
  induction hlength : cs.length using Nat.strongRecOn generalizing cs with
  | _ length ih =>
    cases cs with
    | nil => exact ⟨[], [], by simp, rfl, .inl rfl⟩
    | cons c cs =>
      by_cases hc : c = '\x7b'
      · subst hc
        by_cases hslot : StartsWithSlot ('\x7b' :: cs)
        · obtain ⟨name, rest, hname, hcs⟩ := hslot
          have hshort : rest.length < length := by
            rw [← hlength, hcs, List.length_append, Piece.text_slot]
            simp
          obtain ⟨ps, tail, hps, hrest, htail⟩ := ih rest.length hshort rest rfl
          refine ⟨.slot name :: ps, tail, List.forall_mem_cons.mpr ⟨hname, hps⟩, ?_, htail⟩
          rw [hcs, hrest, List.flatMap_cons, List.append_assoc]
        · exact ⟨[], '\x7b' :: cs, by simp, rfl, .inr ⟨cs, rfl, hslot⟩⟩
      · obtain ⟨ps, tail, hps, hrest, htail⟩ := ih cs.length (by simp [← hlength]) cs rfl
        refine ⟨.char c :: ps, tail, List.forall_mem_cons.mpr ⟨hc, hps⟩, ?_, htail⟩
        rw [hrest, List.flatMap_cons]
        rfl

/-- A text is a template if legal pieces spell it, and they are then gathered. -/
theorem parse_eq_ok_iff {text : String} {t : Template} :
    parse text = .ok t ↔ ∃ ps : List Piece, (∀ p ∈ ps, p.Legal) ∧
      ps.flatMap Piece.text = text.toList ∧ t.segments = gather [] ps := by
  rw [parse]
  constructor
  · intro h
    obtain ⟨ps, tail, hps, htext, rfl | ⟨rest, rfl, hrest⟩⟩ := exists_pieces text.toList
    · rw [List.append_nil] at htext
      rw [htext, inLiteral_text hps] at h
      exact ⟨ps, hps, htext.symm, congrArg segments (Except.ok.inj h).symm⟩
    · rw [htext, inLiteral_eq_error hps hrest] at h
      cases h
  · rintro ⟨ps, hps, htext, hsegments⟩
    rw [← htext, inLiteral_text hps, ← hsegments]

/-- A text is no template if legal pieces spell what comes before a brace that opens no placeholder,
and the error is that brace. -/
theorem parse_eq_error_iff {text : String} {e : Malformed} :
    parse text = .error e ↔ ∃ (ps : List Piece) (rest : List Char), (∀ p ∈ ps, p.Legal) ∧
      ¬ StartsWithSlot ('\x7b' :: rest) ∧ text.toList = ps.flatMap Piece.text ++ '\x7b' :: rest ∧
      e = ⟨text, (Text.Utf8.encode (ps.flatMap Piece.text)).length⟩ := by
  rw [parse]
  constructor
  · intro h
    obtain ⟨ps, tail, hps, htext, rfl | ⟨rest, rfl, hrest⟩⟩ := exists_pieces text.toList
    · rw [List.append_nil] at htext
      rw [htext, inLiteral_text hps] at h
      cases h
    · rw [htext, inLiteral_eq_error hps hrest, Nat.zero_add] at h
      exact ⟨ps, rest, hps, hrest, htext, (Except.error.inj h).symm⟩
  · rintro ⟨ps, rest, hps, hrest, htext, rfl⟩
    rw [htext, inLiteral_eq_error hps hrest, Nat.zero_add]

theorem literalSegments_nil : literalSegments [] = [] := rfl

theorem literalSegments_of_ne_nil (h : pending ≠ []) :
    literalSegments pending = [.literal (String.ofList pending.reverse)] := by
  rw [literalSegments, if_neg (by simpa using h)]

theorem pieces_literalSegments (pending : List Char) :
    (literalSegments pending).flatMap Segment.pieces = pending.reverse.map .char := by
  by_cases h : pending = []
  · rw [h]
    rfl
  · simp [literalSegments_of_ne_nil h, Segment.pieces]

theorem pieces_gather (pending : List Char) (ps : List Piece) :
    (gather pending ps).flatMap Segment.pieces = pending.reverse.map .char ++ ps := by
  induction ps generalizing pending with
  | nil => rw [gather, pieces_literalSegments, List.append_nil]
  | cons p ps ih =>
    cases p with
    | char c => simp [gather, ih]
    | slot name =>
      rw [gather, List.flatMap_append, pieces_literalSegments, List.flatMap_cons, ih]
      rfl

theorem legal_of_mem_literalSegments (h : '\x7b' ∉ pending) {s : Segment}
    (hs : s ∈ literalSegments pending) : s.Legal := by
  by_cases hne : pending = []
  · rw [hne, literalSegments_nil] at hs
    cases hs
  · rw [literalSegments_of_ne_nil hne, List.mem_singleton] at hs
    rw [hs]
    exact ⟨by simpa [String.ext_iff] using hne, by simpa using h⟩

theorem canonical_gather (hlegal : ∀ p ∈ ps, p.Legal) (h : '\x7b' ∉ pending) :
    Canonical ⟨gather pending ps⟩ := by
  induction ps generalizing pending with
  | nil =>
    refine ⟨fun s hs => legal_of_mem_literalSegments h hs, ?_⟩
    by_cases hne : pending = []
    · simp [gather, hne, literalSegments_nil]
    · simp [gather, literalSegments_of_ne_nil hne]
  | cons p ps ih =>
    obtain ⟨hp, hps⟩ := List.forall_mem_cons.mp hlegal
    cases p with
    | char c =>
      have hc : c ≠ '\x7b' := hp
      exact ih hps (by simp [Ne.symm hc, h])
    | slot name =>
      obtain ⟨hrest, hapart⟩ := ih hps List.not_mem_nil
      have htail : (Segment.placeholder name :: gather [] ps).IsChain
          fun s s' => ¬ (s.isLiteral ∧ s'.isLiteral) :=
        List.isChain_cons.mpr ⟨by simp [Segment.isLiteral], hapart⟩
      constructor
      · intro s hs
        rcases List.mem_append.mp hs with hliteral | hs
        · exact legal_of_mem_literalSegments h hliteral
        rcases List.mem_cons.mp hs with rfl | hs
        · exact hp
        · exact hrest s hs
      · by_cases hne : pending = []
        · simpa [gather, hne, literalSegments_nil] using htail
        · rw [gather, literalSegments_of_ne_nil hne]
          exact List.isChain_cons.mpr ⟨by simp [Segment.isLiteral], htail⟩

theorem gather_chars (cs pending : List Char) (ps : List Piece) :
    gather pending (cs.map .char ++ ps) = gather (cs.reverse ++ pending) ps := by
  induction cs generalizing pending with
  | nil => rfl
  | cons c cs ih => simp [gather, ih]

/-- Canonical segments are what their own pieces are gathered into. -/
theorem gather_pieces {segments : List Segment} (h : Canonical ⟨segments⟩) :
    gather [] (segments.flatMap Segment.pieces) = segments := by
  induction segments with
  | nil => rfl
  | cons s segments ih =>
    obtain ⟨hs, hlegal⟩ := List.forall_mem_cons.mp h.legal
    obtain ⟨hhead, hapart⟩ := List.isChain_cons.mp h.apart
    have hrest : gather [] (segments.flatMap Segment.pieces) = segments := ih ⟨hlegal, hapart⟩
    cases s with
    | placeholder name => exact congrArg (.placeholder name :: ·) hrest
    | literal text =>
      have hne : text.toList.reverse ≠ [] := by simpa using hs.1
      rw [List.flatMap_cons, Segment.pieces, gather_chars, List.append_nil]
      -- Only a placeholder or the end can follow, and either of them closes the literal.
      cases segments with
      | nil => simp [gather, literalSegments_of_ne_nil hne]
      | cons s' rest =>
        cases s' with
        | literal text' => exact absurd ⟨rfl, rfl⟩ (hhead (.literal text') rfl)
        | placeholder name =>
          have htail : gather [] (rest.flatMap Segment.pieces) = rest := (List.cons.inj hrest).2
          rw [List.flatMap_cons, Segment.pieces, List.singleton_append, gather, htail,
            literalSegments_of_ne_nil hne]
          simp

theorem legal_of_mem_pieces {t : Template} (h : t.Canonical) {p : Piece} (hp : p ∈ t.pieces) :
    p.Legal := by
  obtain ⟨s, hs, hp⟩ := List.mem_flatMap.mp hp
  have hlegal := h.legal s hs
  cases s with
  | literal text =>
    obtain ⟨c, hc, rfl⟩ := List.mem_map.mp hp
    exact fun hopen => hlegal.2 (hopen ▸ hc)
  | placeholder name => exact List.mem_singleton.mp hp ▸ hlegal

theorem toList_text (t : Template) : t.text.toList = t.pieces.flatMap Piece.text := by
  rw [text, String.toList_join, List.flatMap_map, pieces, List.flatMap_assoc]
  congr 1
  funext s
  cases s with
  | literal text => simp [Segment.text, Segment.pieces, List.flatMap_map, Piece.text]
  | placeholder name => simp [Segment.text, Segment.pieces, Piece.text]

theorem placeholders_eq_slots (t : Template) : t.placeholders = t.pieces.filterMap Piece.slot? := by
  rw [placeholders, List.filterMap_eq_flatMap_toList, pieces, List.filterMap_flatMap]
  congr 1
  funext s
  cases s with
  | literal text => simp [Segment.pieces, Segment.placeholder?, Piece.slot?]
  | placeholder name => rfl

theorem pieces_of_segments_eq_gather {t : Template} (h : t.segments = gather [] ps) :
    t.pieces = ps := by
  rw [pieces, h, pieces_gather, List.reverse_nil, List.map_nil, List.nil_append]

theorem parse_eq_ok_iff_canonical {text : String} {t : Template} :
    parse text = .ok t ↔ t.Canonical ∧ t.text = text := by
  rw [parse_eq_ok_iff]
  constructor
  · rintro ⟨ps, hps, htext, hsegments⟩
    obtain ⟨segments⟩ := t
    have hpieces := pieces_of_segments_eq_gather hsegments
    obtain rfl : segments = gather [] ps := hsegments
    refine ⟨canonical_gather hps List.not_mem_nil, ?_⟩
    rw [← String.toList_inj, toList_text, hpieces, htext]
  · rintro ⟨hcanonical, rfl⟩
    exact ⟨t.pieces, fun p => legal_of_mem_pieces hcanonical, (toList_text t).symm,
      (gather_pieces hcanonical).symm⟩

/-- A text is a template if and only if legal pieces spell it. The segments are then the only
canonical ones of that text, and the placeholders are those of its pieces in order. -/
theorem parse_iff_pieces (text : String) :
    ((∃ t, parse text = .ok t) ↔
      ∃ ps : List Piece, (∀ p ∈ ps, p.Legal) ∧ ps.flatMap Piece.text = text.toList) ∧
    (∀ t, parse text = .ok t ↔ t.Canonical ∧ t.text = text) ∧
    ∀ (t : Template) (ps : List Piece), parse text = .ok t → (∀ p ∈ ps, p.Legal) →
      ps.flatMap Piece.text = text.toList →
      t.pieces = ps ∧ t.placeholders = ps.filterMap Piece.slot? := by
  refine ⟨?_, fun t => parse_eq_ok_iff_canonical, ?_⟩
  · constructor
    · rintro ⟨t, ht⟩
      obtain ⟨ps, hps, htext, -⟩ := parse_eq_ok_iff.mp ht
      exact ⟨ps, hps, htext⟩
    · rintro ⟨ps, hps, htext⟩
      exact ⟨⟨gather [] ps⟩, parse_eq_ok_iff.mpr ⟨ps, hps, htext, rfl⟩⟩
  · intro t ps ht hps htext
    -- The same pieces make the same segments, which are all that the text is read as.
    have hread : parse text = .ok ⟨gather [] ps⟩ := parse_eq_ok_iff.mpr ⟨ps, hps, htext, rfl⟩
    have hpieces : t.pieces = ps :=
      pieces_of_segments_eq_gather (congrArg segments (Except.ok.inj (ht.symm.trans hread)))
    exact ⟨hpieces, by rw [placeholders_eq_slots, hpieces]⟩

/-- A closing brace outside a placeholder is a literal character, and a placeholder may be
repeated. -/
theorem stray_brace_pieces :
    ∃ t, parse ("/a\x7d/" ++ slot "x" ++ slot "y" ++ "é" ++ slot "x") = .ok t ∧
      t.placeholders = ["x", "y", "x"] := by
  let ps : List Piece := [.char '/', .char 'a', .char '\x7d', .char '/', .slot "x", .slot "y",
    .char 'é', .slot "x"]
  have hlegal : ∀ p ∈ ps, p.Legal := by decide +kernel
  have htext : ps.flatMap Piece.text =
      ("/a\x7d/" ++ slot "x" ++ slot "y" ++ "é" ++ slot "x").toList := by
    decide +kernel
  obtain ⟨hread, -, hslots⟩ := parse_iff_pieces
    ("/a\x7d/" ++ slot "x" ++ slot "y" ++ "é" ++ slot "x")
  obtain ⟨t, ht⟩ := hread.mpr ⟨ps, hlegal, htext⟩
  exact ⟨t, ht, (hslots t ps ht hlegal htext).2⟩

end Template
end RestClient.Path
