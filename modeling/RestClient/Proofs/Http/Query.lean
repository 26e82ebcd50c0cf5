import RestClient.Http.Request
import RestClient.Proofs.Encoding.Reading

namespace RestClient

namespace Encoding

/-- The fields of a query. -/
def readQuery? (query : String) : Option (Entries String) :=
  readFields? decodeComponent? query.toList

theorem legible_query : Legible encodeComponent decodeComponent? where
  decode_encode := decodeComponent?_encodeComponent
  ampersand s h := absurd (isComponentChar_of_mem_encodeComponent h) (by decide)
  equals s h := absurd (isComponentChar_of_mem_encodeComponent h) (by decide)

theorem readQuery?_queryText (fields : Entries String) :
    readQuery? (queryText fields) = some fields :=
  readFields?_joinFields legible_query fields

theorem queryText_injective : Function.Injective queryText := by
  intro fields fields' h
  have hread := readQuery?_queryText fields
  rw [h, readQuery?_queryText] at hread
  exact (Option.some.inj hread).symm

end Encoding

namespace Request

open UrlParts (cut cut_append cut_of_not_mem)

variable {q q' : Request}

theorem pathAndQuery_of_nil (h : q.query = []) : q.pathAndQuery = q.path := by
  simp [pathAndQuery, h]

theorem pathAndQuery_of_ne_nil (h : q.query ≠ []) :
    q.pathAndQuery = q.path ++ "?" ++ q.queryString := by
  simp [pathAndQuery, h]

theorem cut_pathAndQuery (hpath : '?' ∉ q.path.toList) :
    cut '?' q.pathAndQuery.toList =
      (q.path.toList, if q.query.isEmpty then none else some q.queryString.toList) := by
  by_cases hquery : q.query = []
  · rw [pathAndQuery_of_nil hquery, cut_of_not_mem hpath, hquery]
    rfl
  · have htext : q.pathAndQuery.toList = q.path.toList ++ '?' :: q.queryString.toList := by
      simp [pathAndQuery_of_ne_nil hquery]
    rw [htext, cut_append hpath]
    simp [hquery]

theorem mem_pathAndQuery_iff (hpath : '?' ∉ q.path.toList) :
    '?' ∈ q.pathAndQuery.toList ↔ q.query ≠ [] := by
  by_cases hquery : q.query = []
  · simp [pathAndQuery_of_nil hquery, hpath, hquery]
  · simp [pathAndQuery_of_ne_nil hquery, hquery]

theorem pathAndQuery_eq_iff (hpath : '?' ∉ q.path.toList) (hpath' : '?' ∉ q'.path.toList) :
    q.pathAndQuery = q'.pathAndQuery ↔ q.path = q'.path ∧ q.query = q'.query := by
  constructor
  · intro h
    have hcut := congrArg (fun text => cut '?' text.toList) h
    simp only [cut_pathAndQuery hpath, cut_pathAndQuery hpath', Prod.mk.injEq,
      String.toList_inj] at hcut
    refine ⟨hcut.1, ?_⟩
    -- No query and a query of one empty field are told apart by the question mark.
    by_cases hquery : q.query = [] <;> by_cases hquery' : q'.query = []
    · rw [hquery, hquery']
    · simp [hquery, hquery'] at hcut
    · simp [hquery, hquery'] at hcut
    · simp only [hquery, hquery', List.isEmpty_iff, if_false, Option.some.injEq,
        String.toList_inj] at hcut
      exact Encoding.queryText_injective hcut.2
  · rintro ⟨hsame, hquery⟩
    simp only [pathAndQuery, queryString, hsame, hquery]

/-- The first question mark stands between the path and the query, and stands there only if there is
a query. The pieces of the query between ampersands are its fields; so requests have the same path
and query as a text only if they have the same path and the same fields. -/
theorem query_round_trip (hpath : '?' ∉ q.path.toList) :
    cut '?' q.pathAndQuery.toList =
      (q.path.toList, if q.query.isEmpty then none else some q.queryString.toList) ∧
    ('?' ∈ q.pathAndQuery.toList ↔ q.query ≠ []) ∧
    Encoding.readQuery? q.queryString = some q.query ∧
    (q.query ≠ [] →
      let pieces := Text.splitAtEach (· == '&') q.queryString.toList
      (∀ piece ∈ pieces, '=' ∈ piece) ∧
        pieces.mapM (Encoding.readField? Encoding.decodeComponent?) = some q.query) ∧
    ∀ q' : Request, '?' ∉ q'.path.toList →
      (q.pathAndQuery = q'.pathAndQuery ↔ q.path = q'.path ∧ q.query = q'.query) := by
  refine ⟨cut_pathAndQuery hpath, mem_pathAndQuery_iff hpath, Encoding.readQuery?_queryText q.query,
    ?_, fun q' hpath' => pathAndQuery_eq_iff hpath hpath'⟩
  intro hquery pieces
  have hpieces : pieces = q.query.map (Encoding.fieldChars Encoding.encodeComponent) :=
    Encoding.splitAtEach_joinFields Encoding.legible_query hquery
  rw [hpieces]
  refine ⟨?_, Encoding.mapM_readField? Encoding.legible_query q.query⟩
  rw [List.forall_mem_map]
  intro field _
  simp [Encoding.fieldChars]

theorem empty_fields_round_trip :
    let q : Request :=
      { method := .get, path := "/users", query := [("", ""), ("a=b", "x&y? é"), ("", "")] }
    let q' : Request := { q with query := [("", "")] }
    '?' ∉ q.path.toList ∧ q.pathAndQuery = "/users?=&a%3Db=x%26y%3F%20%C3%A9&=" ∧
      Encoding.readQuery? q.queryString = some q.query ∧
      q'.pathAndQuery = "/users?=" ∧ ¬ q.pathAndQuery = q'.pathAndQuery := by
  intro q q'
  have hpath : '?' ∉ q.path.toList := by decide +kernel
  obtain ⟨-, -, hread, -, hsame⟩ := query_round_trip hpath
  refine ⟨hpath, by decide +kernel, hread, by decide +kernel, ?_⟩
  rw [hsame q' hpath]
  decide +kernel

end Request
end RestClient
