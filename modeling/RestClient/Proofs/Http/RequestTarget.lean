import Mathlib.Data.List.TakeWhile
import RestClient.Proofs.Encoding.Percent
import RestClient.Proofs.Http.DotSegments
import RestClient.Proofs.Http.Sending

namespace RestClient

/-- The test service itself, without a path of its own. -/
def BaseUrl.testRoots : List BaseUrl := testAuthorities.map (⟨"http", ·⟩)

namespace Destination

open Encoding (isComponentChar isQueryChar)

theorem isPlainAscii_of_isQueryChar {c : Char} (h : isQueryChar c) : isPlainAscii c := by
  simp only [isQueryChar, isComponentChar, Encoding.isUnreserved, Bool.or_eq_true, beq_iff_eq] at h
  rcases h with (((((((h | rfl) | rfl) | rfl) | rfl) | rfl) | rfl) | rfl)
  · exact isPlainAscii_of_isAlphanum h
  all_goals decide

theorem isQuerySafe_of_isQueryChar {c : Char} (h : isQueryChar c) : isQuerySafe c := by
  rw [isQuerySafe, isPlainAscii_of_isQueryChar h,
    Encoding.contains_eq_false_of_property (by decide) h]
  rfl

theorem isPathSafe_of_isComponentChar {c : Char} (h : isComponentChar c) : isPathSafe c := by
  have hquery : isQueryChar c := by rw [isQueryChar, h]; rfl
  rw [isPathSafe, isPlainAscii_of_isQueryChar hquery,
    Encoding.contains_eq_false_of_property (by decide) h]
  rfl

theorem isPlainAscii_of_isPathSafe {c : Char} (h : isPathSafe c) : isPlainAscii c := by
  rw [isPathSafe, Bool.and_eq_true] at h
  exact h.1

theorem isPlainAscii_of_isQuerySafe {c : Char} (h : isQuerySafe c) : isPlainAscii c := by
  rw [isQuerySafe, Bool.and_eq_true] at h
  exact h.1

/-- What stands after a path: nothing, or a query that a URL leaves as it is. -/
def IsSafeTail (rest : List Char) : Prop :=
  rest = [] ∨ ∃ query, rest = '?' :: query ∧ ∀ c ∈ query, isQuerySafe c

variable {cs rest : List Char}

theorem target_ofAddress {host : List Char} (hhost : ∀ c ∈ host, isHostChar c) (hne : host ≠ [])
    (hcs : ∀ c ∈ cs, isPathSafe c) (hrest : IsSafeTail rest) :
    (ofAddress (host ++ '/' :: cs ++ rest)).target = String.ofList (path ('/' :: cs) ++ rest) := by
  simp only [isHostChar, Bool.and_eq_true, Bool.not_eq_true', bne_iff_ne] at hhost
  have hpath : ∀ c ∈ host ++ '/' :: cs, c ≠ '?' ∧ c ≠ '#' := by
    have hsafe : ∀ c ∈ cs, c ≠ '?' ∧ c ≠ '#' := fun c hc =>
      ⟨by rintro rfl; exact absurd (hcs _ hc) (by decide),
        by rintro rfl; exact absurd (hcs _ hc) (by decide)⟩
    rw [List.forall_mem_append, List.forall_mem_cons]
    exact ⟨fun c hc => ⟨(hhost c hc).1.2, (hhost c hc).2⟩, by decide, hsafe⟩
  have hfragment :
      (host ++ '/' :: cs ++ rest).takeWhile (· != '#') = host ++ '/' :: cs ++ rest := by
    rw [List.takeWhile_append_of_pos (by simpa using fun c hc => (hpath c hc).2)]
    congr 1
    rw [List.takeWhile_eq_self_iff]
    rcases hrest with rfl | ⟨query, rfl, hquery⟩
    · exact fun c hc => absurd hc List.not_mem_nil
    · rw [List.forall_mem_cons]
      refine ⟨by decide, fun c hc => ?_⟩
      rw [bne_iff_ne]
      rintro rfl
      exact absurd (hquery _ hc) (by decide)
  have hends : rest.takeWhile (· != '?') = [] ∧ rest.dropWhile (· != '?') = rest := by
    rcases hrest with rfl | ⟨query, rfl, -⟩
    · exact ⟨rfl, rfl⟩
    · exact ⟨rfl, rfl⟩
  have hquestion : ∀ c ∈ host ++ '/' :: cs, (c != '?') = true := by
    simpa using fun c hc => (hpath c hc).1
  have hbefore : (host ++ '/' :: cs ++ rest).takeWhile (· != '?') = host ++ '/' :: cs := by
    rw [List.takeWhile_append_of_pos hquestion, hends.1, List.append_nil]
  have hafter : (host ++ '/' :: cs ++ rest).dropWhile (· != '?') = rest := by
    rw [List.dropWhile_append_of_pos hquestion, hends.2]
  have hhere : (host ++ '/' :: cs).dropWhile isSlash = host ++ '/' :: cs :=
    Text.dropWhile_append_of_not (fun c hc => (hhost c hc).1.1.2) hne _
  have hthere : (host ++ '/' :: cs).dropWhile (!isSlash ·) = '/' :: cs := by
    rw [List.dropWhile_append_of_pos (by simpa using fun c hc => (hhost c hc).1.1.2)]
    exact List.dropWhile_cons_of_neg (by decide)
  simp only [ofAddress, hfragment, hbefore, hafter, hhere, hthere]
  rcases hrest with rfl | ⟨query, rfl, hquery⟩
  · rfl
  · simp only [percentEncode_eq_self hquery]

/-- Below a test service without a path of its own, resolving is all that happens to a safe path. -/
theorem target_ofUrl_join {u : BaseUrl} (hu : u ∈ BaseUrl.testRoots) {text : String}
    (htext : text.toList = '/' :: cs ++ rest) (hcs : ∀ c ∈ cs, isPathSafe c)
    (hrest : IsSafeTail rest) :
    (ofUrl u.scheme (u.join text)).target = String.ofList (path ('/' :: cs) ++ rest) := by
  have hroots : ∀ u ∈ BaseUrl.testRoots, u.scheme = "http" ∧ u.address ≠ "" ∧
      u.address.toList.all isHostChar := by
    decide +kernel
  obtain ⟨hscheme, hne, hhost⟩ := hroots u hu
  rw [List.all_eq_true] at hhost
  have hurl : (u.join text).toList =
      "http://".toList ++ (u.address.toList ++ '/' :: cs ++ rest) := by
    simp [BaseUrl.join, BaseUrl.text, hscheme, htext]
  have hplain : ∀ c ∈ (u.join text).toList, isPlainAscii c := by
    have hstart : "http://".toList.all isPlainAscii := by decide +kernel
    have haddress : ∀ c ∈ u.address.toList, isPlainAscii c := by
      intro c hc
      have hchar := hhost c hc
      simp only [isHostChar, Bool.and_eq_true] at hchar
      exact hchar.1.1.1
    have htail : ∀ c ∈ rest, isPlainAscii c := by
      rcases hrest with rfl | ⟨query, rfl, hquery⟩
      · exact fun c hc => absurd hc List.not_mem_nil
      · rw [List.forall_mem_cons]
        exact ⟨by decide, fun c hc => isPlainAscii_of_isQuerySafe (hquery c hc)⟩
    rw [hurl, List.forall_mem_append, List.forall_mem_append, List.forall_mem_append,
      List.forall_mem_cons]
    have hplain (c : Char) (hc : c ∈ cs) := isPlainAscii_of_isPathSafe (hcs c hc)
    exact ⟨List.all_eq_true.mp hstart, ⟨haddress, by decide, hplain⟩, htail⟩
  have hlength : "http://".toList.length = u.scheme.length + 3 := by
    rw [hscheme]
    decide +kernel
  rw [ofUrl, afterScheme, clean_eq_self hplain, hurl, List.drop_left' hlength,
    target_ofAddress hhost (mt String.toList_eq_nil_iff.mp hne) hcs hrest]

theorem isSafeTail_query (q : Request) :
    ∃ rest, q.pathAndQuery.toList = q.path.toList ++ rest ∧ IsSafeTail rest := by
  rw [Request.pathAndQuery]
  split
  · exact ⟨[], by simp, .inl rfl⟩
  · refine ⟨'?' :: q.queryString.toList, by simp, .inr ⟨_, rfl, fun c hc => ?_⟩⟩
    exact isQuerySafe_of_isQueryChar (Encoding.isQueryChar_of_mem_queryText hc)

/-- A request of a safe path is sent to the path and the query that it has, if and only if no
segment of its path is a dot segment. -/
theorem target_eq_pathAndQuery_iff {u : BaseUrl} (hu : u ∈ BaseUrl.testRoots) {q : Request}
    (hpath : q.path.toList = '/' :: cs) (hcs : ∀ c ∈ cs, isPathSafe c ∧ c ≠ '\\') :
    (ofUrl u.scheme (u.join q.pathAndQuery)).target = q.pathAndQuery ↔
      ∀ s ∈ cs.splitOnP isSlash, isDotSegment s = false := by
  obtain ⟨rest, htext, hrest⟩ := isSafeTail_query q
  rw [hpath] at htext
  rw [target_ofUrl_join hu htext (fun c hc => (hcs c hc).1) hrest, ← path_eq_self_iff hcs,
    ← String.toList_inj, String.toList_ofList, htext, List.append_cancel_right_eq]

end Destination

namespace Connection

variable {c : Connection} {t : Transport} {q : Request} {w : WireRequest}

theorem target_of_head?_sent (h : (c.send t q).sent.head? = some w) :
    w.target = (Destination.ofUrl c.base.scheme (c.base.join q.pathAndQuery)).target := by
  have hw := wire?_of_head?_sent h
  rw [wire?] at hw
  split at hw
  · obtain rfl := Option.some.inj hw
    rfl
  · cases hw

end Connection
end RestClient
