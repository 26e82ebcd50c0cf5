import RestClient.Proofs.Encoding.Percent
import RestClient.Proofs.Http.Target
import RestClient.Proofs.Text.Split

namespace RestClient.Destination

open Encoding (encodeComponent decodeComponent? decodeBytes isComponentChar)

def isDotSegment (segment : List Char) : Bool := isSingleDot segment || isDoubleDot segment

/-- The length of the path that the segments make. -/
def pathLength (segments : List (List Char)) : Nat := (segments.flatMap ('/' :: ·)).length

theorem decodeBytes_plainDots (segment : List Char) :
    decodeBytes (plainDots segment) = decodeBytes segment := by
  fun_induction plainDots segment with
  | case1 c rest hc ih =>
    have hdot : decodeBytes ('%' :: '2' :: c :: rest) =
        String.utf8EncodeChar '.' ++ decodeBytes rest := by
      rcases hc with rfl | rfl <;> rfl
    rw [Encoding.decodeBytes_cons (by decide), ih, hdot]
  | case2 => rfl
  | case3 rest ih =>
    rw [Encoding.decodeBytes_cons (by decide), ih, Encoding.decodeBytes_cons (by decide)]
  | case4 => rfl

/-- Decoding sees through the two ways to write a dot, so that only dots are encoded as dots. -/
theorem isDotSegment_encodeComponent (s : String) :
    isDotSegment (encodeComponent s).toList ↔ s = "." ∨ s = ".." := by
  have hdecode (dots : List Char) (h : plainDots (encodeComponent s).toList = dots) :
      decodeComponent? dots = some s := by
    rw [← Encoding.decodeComponent?_encodeComponent s, decodeComponent?, decodeComponent?, ← h,
      decodeBytes_plainDots]
  have hone : decodeComponent? ['.'] = some "." := Encoding.decodeComponent?_encodeComponent "."
  have htwo : decodeComponent? ['.', '.'] = some ".." :=
    Encoding.decodeComponent?_encodeComponent ".."
  simp only [isDotSegment, isSingleDot, isDoubleDot, Bool.or_eq_true, beq_iff_eq]
  constructor
  · rintro (h | h)
    · exact .inl (Option.some.inj ((hdecode _ h).symm.trans hone))
    · exact .inr (Option.some.inj ((hdecode _ h).symm.trans htwo))
  · rintro (rfl | rfl)
    · exact .inl (by decide +kernel)
    · exact .inr (by decide +kernel)

theorem percentEncode_eq_self {keep : Char → Bool} {cs : List Char} (h : ∀ c ∈ cs, keep c) :
    Encoding.percentEncode keep cs = cs := by
  induction cs with
  | nil => rfl
  | cons c cs ih =>
    obtain ⟨hc, hcs⟩ := List.forall_mem_cons.mp h
    rw [Encoding.percentEncode, List.flatMap_cons, if_pos hc, ← Encoding.percentEncode, ih hcs]
    rfl

theorem resolve_cons_of_not_dot {segment : List Char} (h : isDotSegment segment = false)
    (hsafe : ∀ c ∈ segment, isPathSafe c) (done rest : List (List Char)) :
    resolve done (segment :: rest) = resolve (segment :: done) rest := by
  rw [isDotSegment, Bool.or_eq_false_iff] at h
  rw [resolve, h.1, h.2, percentEncode_eq_self hsafe]
  rfl

theorem resolve_of_no_dots {segments : List (List Char)}
    (h : ∀ s ∈ segments, isDotSegment s = false) (hsafe : ∀ s ∈ segments, ∀ c ∈ s, isPathSafe c)
    (done : List (List Char)) : resolve done segments = done.reverse ++ segments := by
  induction segments generalizing done with
  | nil => rw [resolve, List.append_nil]
  | cons s rest ih =>
    obtain ⟨hs, hrest⟩ := List.forall_mem_cons.mp h
    obtain ⟨hsafes, hsaferest⟩ := List.forall_mem_cons.mp hsafe
    rw [resolve_cons_of_not_dot hs hsafes, ih hrest hsaferest, List.reverse_cons, List.append_assoc]
    rfl

theorem pathLength_cons (s : List Char) (segments : List (List Char)) :
    pathLength (s :: segments) = 1 + s.length + pathLength segments := by
  rw [pathLength, List.flatMap_cons, List.length_append, List.length_cons, Nat.add_comm s.length 1]
  rfl

theorem pathLength_reverse (segments : List (List Char)) :
    pathLength segments.reverse = pathLength segments := by
  simp [pathLength, List.length_flatMap, List.sum_reverse]

theorem pathLength_tail_le (segments : List (List Char)) :
    pathLength segments.tail ≤ pathLength segments := by
  cases segments with
  | nil => exact Nat.le_refl _
  | cons s segments =>
    rw [pathLength_cons]
    exact Nat.le_add_left _ _

/-- A dot segment takes itself out, and at most one segment more. -/
theorem resolve_cons_of_dot {segment : List Char} (h : isDotSegment segment)
    (done rest : List (List Char)) :
    ∃ done', resolve done (segment :: rest) = resolve done' rest ∧
      pathLength done' < pathLength done + pathLength [segment] := by
  have hne : 1 ≤ segment.length := by
    cases segment with
    | nil => cases h
    | cons c cs => simp
  have htail := pathLength_tail_le done
  have hnil (segments : List (List Char)) :
      pathLength ([] :: segments) = 1 + pathLength segments := by
    rw [pathLength_cons]
    rfl
  have hone : pathLength [segment] = 1 + segment.length := pathLength_cons segment []
  rw [resolve]
  split
  case isTrue =>
    refine ⟨_, rfl, ?_⟩
    split
    · rw [hnil]
      omega
    · omega
  case isFalse hdouble =>
    have hsingle : isSingleDot segment := by simpa [isDotSegment, hdouble] using h
    rw [if_pos hsingle]
    refine ⟨_, rfl, ?_⟩
    split
    · rw [hnil]
      omega
    · omega

/-- Every dot segment makes the path shorter. -/
theorem pathLength_resolve_add_le {segments : List (List Char)}
    (hsafe : ∀ s ∈ segments, ∀ c ∈ s, isPathSafe c) (done : List (List Char)) :
    pathLength (resolve done segments) + segments.countP isDotSegment ≤
      pathLength done + pathLength segments := by
  induction segments generalizing done with
  | nil =>
    rw [resolve, pathLength_reverse]
    exact Nat.le_refl _
  | cons s rest ih =>
    obtain ⟨hs, hrest⟩ := List.forall_mem_cons.mp hsafe
    have hcons := pathLength_cons s rest
    by_cases hdot : isDotSegment s
    · obtain ⟨done', hresolve, hlt⟩ := resolve_cons_of_dot hdot done rest
      have hrest := ih hrest done'
      have hone : pathLength [s] = 1 + s.length := pathLength_cons s []
      rw [hresolve, List.countP_cons_of_pos hdot]
      omega
    · have hrest := ih hrest (s :: done)
      have hdone := pathLength_cons s done
      rw [resolve_cons_of_not_dot (Bool.eq_false_iff.mpr hdot) hs, List.countP_cons_of_neg hdot]
      omega

/-- A path of safe characters is left as it is if and only if it has no dot segment. -/
theorem path_eq_self_iff {cs : List Char} (h : ∀ c ∈ cs, isPathSafe c ∧ c ≠ '\\') :
    path ('/' :: cs) = '/' :: cs ↔ ∀ s ∈ cs.splitOnP isSlash, isDotSegment s = false := by
  have hslash : ∀ c ∈ cs, isSlash c → c = '/' := by
    intro c hc hs
    simpa [isSlash, (h c hc).2] using hs
  have hsegments : (cs.splitOnP isSlash).flatMap ('/' :: ·) = '/' :: cs :=
    Text.flatMap_splitOnP hslash
  have hsafe : ∀ s ∈ cs.splitOnP isSlash, ∀ c ∈ s, isPathSafe c := by
    intro s hs c hc
    exact (h c (Text.exists_mem_splitOnP_iff.mp ⟨s, hs, hc⟩).1).1
  have hpath : path ('/' :: cs) = (resolve [] (cs.splitOnP isSlash)).flatMap ('/' :: ·) := by
    rw [path, List.drop_one, List.tail_cons, Text.splitAtEach_eq_splitOnP]
  rw [hpath]
  constructor
  · intro heq s hs
    by_contra hdot
    have hcount : 0 < (cs.splitOnP isSlash).countP isDotSegment :=
      List.countP_pos_iff.mpr ⟨s, hs, by simpa using hdot⟩
    have hshorter := pathLength_resolve_add_le hsafe []
    have hlength : pathLength (resolve [] (cs.splitOnP isSlash)) =
        pathLength (cs.splitOnP isSlash) := by
      rw [pathLength, pathLength, heq, hsegments]
    have hempty : pathLength [] = 0 := rfl
    omega
  · intro hnone
    rw [resolve_of_no_dots hnone hsafe, List.reverse_nil, List.nil_append, hsegments]

theorem clean_eq_self {l : List Char} (h : ∀ c ∈ l, isPlainAscii c) : clean l = l := by
  have hcontrol : ∀ c ∈ l, isControlOrSpace c = false :=
    fun c hc => isControlOrSpace_of_isPlainAscii (h c hc)
  have hkept : ∀ c ∈ l, (!isTabOrNewline c) = true :=
    fun c hc => by simp [isTabOrNewline_of_isPlainAscii (h c hc)]
  cases l with
  | nil => rfl
  | cons c cs =>
    have htrim := Text.dropSuffixWhile_append_of_not hcontrol (List.cons_ne_nil c cs) []
    rw [List.append_nil] at htrim
    rw [clean, Text.trimChars, List.dropWhile_cons_of_neg (by simp [hcontrol c]), htrim,
      show Text.dropSuffixWhile isControlOrSpace [] = [] from rfl, List.append_nil,
      List.filter_eq_self.mpr hkept]

end RestClient.Destination
