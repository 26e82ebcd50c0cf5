import Mathlib.Data.List.TakeWhile
import RestClient.Proofs.Http.Target
import RestClient.Proofs.Path.Rooted

namespace RestClient

theorem BaseUrl.splitScheme?_append {scheme : List Char} (h : ':' ∉ scheme) (rest : List Char) :
    splitScheme? (scheme ++ ':' :: '/' :: '/' :: rest) = some (scheme, rest) := by
  induction scheme with
  | nil => rfl
  | cons c scheme ih =>
    simp only [List.mem_cons, not_or] at h
    rw [List.cons_append, splitScheme?, ih h.2]
    · rfl
    · rintro _ rfl
      exact absurd rfl h.1

structure UrlParts where
  scheme : String
  authority : String
  path : String
  query : Option String
  fragment : Option String
  deriving DecidableEq

namespace UrlParts

/-- What stands before the first mark, and what after it if there is one. -/
def cut (mark : Char) (cs : List Char) : List Char × Option (List Char) :=
  match cs.dropWhile (· != mark) with
  | [] => (cs, none)
  | _ :: rest => (cs.takeWhile (· != mark), some rest)

/-- Takes a URL apart: its authority ends at the first slash, its path at a question mark, and its
query at a number sign. -/
def ofText? (url : String) : Option UrlParts :=
  (BaseUrl.splitScheme? url.toList).map fun (scheme, rest) =>
    let (rest, fragment) := cut '#' rest
    let (rest, query) := cut '?' rest
    { scheme := String.ofList scheme
      authority := String.ofList (rest.takeWhile (· != '/'))
      path := String.ofList (rest.dropWhile (· != '/'))
      query := query.map String.ofList
      fragment := fragment.map String.ofList }

theorem cut_of_not_mem {mark : Char} {cs : List Char} (h : mark ∉ cs) :
    cut mark cs = (cs, none) := by
  have hdrop : cs.dropWhile (· != mark) = [] := by
    rw [List.dropWhile_eq_nil_iff]
    intro c hc
    rw [bne_iff_ne]
    rintro rfl
    exact h hc
  rw [cut, hdrop]

theorem cut_append {mark : Char} {cs : List Char} (h : mark ∉ cs) (rest : List Char) :
    cut mark (cs ++ mark :: rest) = (cs, some rest) := by
  have hcs : ∀ c ∈ cs, (c != mark) = true := by
    intro c hc
    rw [bne_iff_ne]
    rintro rfl
    exact h hc
  rw [cut, List.dropWhile_append_of_pos hcs, List.takeWhile_append_of_pos hcs,
    List.dropWhile_cons_of_neg (by simp), List.takeWhile_cons_of_neg (by simp), List.append_nil]

/-- A query, if there is one, stands behind what has neither a query nor a fragment. -/
theorem ofText?_eq {scheme rest : List Char} {query : Option String} {url : String}
    (hurl : url.toList =
      scheme ++ ':' :: '/' :: '/' :: (rest ++ (query.map ('?' :: ·.toList)).getD []))
    (hscheme : ':' ∉ scheme) (hrest : ∀ c ∈ ['?', '#'], c ∉ rest)
    (hquery : ∀ text ∈ query, '#' ∉ text.toList) :
    ofText? url = some ⟨String.ofList scheme, String.ofList (rest.takeWhile (· != '/')),
      String.ofList (rest.dropWhile (· != '/')), query, none⟩ := by
  have hquestion : '?' ∉ rest := hrest '?' (by simp)
  have hnumber : '#' ∉ rest := hrest '#' (by simp)
  rw [ofText?, hurl, BaseUrl.splitScheme?_append hscheme]
  cases query with
  | none =>
    simp only [Option.map_none, Option.map_some, Option.getD_none, List.append_nil,
      cut_of_not_mem hnumber, cut_of_not_mem hquestion]
  | some text =>
    have hnumber : '#' ∉ rest ++ '?' :: text.toList := by
      simp [hnumber, hquery text rfl]
    simp only [Option.map_none, Option.map_some, Option.getD_some, cut_of_not_mem hnumber,
      cut_append hquestion, String.ofList_toList]

theorem cut_prefix (mark : Char) (cs : List Char) :
    (cut mark cs).1 <+: cs ∧ mark ∉ (cut mark cs).1 := by
  by_cases h : mark ∈ cs
  · obtain ⟨before, rest, rfl, hbefore⟩ := List.eq_append_cons_of_mem h
    rw [cut_append hbefore]
    exact ⟨List.prefix_append _ _, hbefore⟩
  · rw [cut_of_not_mem h]
    exact ⟨List.prefix_refl cs, h⟩

/-- The path of a URL is empty or starts with a slash, and ends before a query or a fragment. -/
theorem path_of_ofText? {url : String} {parts : UrlParts} (h : ofText? url = some parts) :
    (parts.path = "" ∨ parts.path.startsWith "/") ∧ ∀ c ∈ ['?', '#'], c ∉ parts.path.toList := by
  obtain ⟨⟨scheme, rest⟩, -, rfl⟩ := Option.map_eq_some_iff.mp h
  obtain ⟨-, hnumber⟩ := cut_prefix '#' rest
  obtain ⟨hbegin, hquestion⟩ := cut_prefix '?' (cut '#' rest).1
  have hsub : ∀ c ∈ ((cut '?' (cut '#' rest).1).1.dropWhile (· != '/')),
      c ∈ (cut '?' (cut '#' rest).1).1 :=
    fun c hc => (List.dropWhile_suffix _).subset hc
  simp only [String.toList_ofList]
  constructor
  · cases hpath : (cut '?' (cut '#' rest).1).1.dropWhile (· != '/') with
    | nil => exact .inl rfl
    | cons c cs =>
      have hc : c = '/' := by
        simpa [hpath] using List.head?_dropWhile_not (· != '/') (cut '?' (cut '#' rest).1).1
      right
      rw [Path.startsWith_slash_iff, hc, String.toList_ofList, List.head?_cons]
  · rw [List.forall_mem_cons, List.forall_mem_singleton]
    exact ⟨fun hc => hquestion (hsub _ hc), fun hc => hnumber (hbegin.subset (hsub _ hc))⟩

end UrlParts

namespace BaseUrl

/-- What every base URL that is read from a text has. -/
structure Valid (u : BaseUrl) : Prop where
  scheme : ∀ c ∈ u.scheme.toList, c.isAlpha
  authority : u.authority ≠ ""
  query : '?' ∉ u.address.toList
  fragment : '#' ∉ u.address.toList

/-- The path of the address, from its first slash on. -/
def path (u : BaseUrl) : String := String.ofList (u.address.toList.dropWhile (· != '/'))

theorem exists_cons_of_isAddress {cs : List Char} (h : isAddress cs) :
    (∃ c rest, cs = c :: rest ∧ c ≠ '/') ∧ '?' ∉ cs ∧ '#' ∉ cs := by
  cases cs with
  | nil => cases h
  | cons c rest =>
    simp only [isAddress, Bool.and_eq_true, bne_iff_ne, List.all_eq_true] at h
    obtain ⟨⟨-, hslash⟩, hall⟩ := h
    exact ⟨⟨c, rest, rfl, hslash⟩, fun hc => (hall _ hc).1 rfl, fun hc => (hall _ hc).2 rfl⟩

theorem valid_of_ofText {s : String} {u : BaseUrl} (h : ofText s = .ok u) : u.Valid := by
  simp only [ofText] at h
  split at h
  case isTrue => cases h
  split at h
  case h_2 => cases h
  case h_1 scheme address _ =>
    split at h
    case isFalse => cases h
    case isTrue hvalid =>
      obtain rfl := Except.ok.inj h
      rw [Bool.and_eq_true] at hvalid
      obtain ⟨hscheme, haddress⟩ := hvalid
      obtain ⟨⟨c, rest, rfl, hslash⟩, hquery, hfragment⟩ := exists_cons_of_isAddress haddress
      simp only [isScheme, Bool.and_eq_true, List.all_eq_true] at hscheme
      have hkept : (Text.dropTrailingSlashes (String.ofList (c :: rest))).toList <+: c :: rest := by
        simpa [Text.dropTrailingSlashes] using Text.dropSuffixWhile_prefix (· == '/') (c :: rest)
      -- The first character is no slash, so that something is left of the authority.
      have hhead : (Text.dropTrailingSlashes (String.ofList (c :: rest))).toList =
          c :: Text.dropSuffixWhile (· == '/') rest := by
        simpa [Text.dropTrailingSlashes] using Text.dropSuffixWhile_append_of_not
          (p := (· == '/')) (l := [c]) (by simpa using hslash) (by simp) rest
      refine ⟨?_, ?_, fun hc => hquery (hkept.subset hc), fun hc => hfragment (hkept.subset hc)⟩
      · simpa using hscheme.2
      · rw [BaseUrl.authority, hhead, List.takeWhile_cons_of_pos (by simpa using hslash)]
        simp [String.ext_iff]

/-- What follows the address does not reach back over its first slash. -/
theorem address_append_parts (u : BaseUrl) {cs : List Char} (h : cs.takeWhile (· != '/') = []) :
    (u.address.toList ++ cs).takeWhile (· != '/') = u.authority.toList ∧
      (u.address.toList ++ cs).dropWhile (· != '/') = u.path.toList ++ cs := by
  have hdrop : cs.dropWhile (· != '/') = cs := by
    simpa [h] using List.takeWhile_append_dropWhile (p := (· != '/')) (l := cs)
  rw [authority, BaseUrl.path, String.toList_ofList, String.toList_ofList, List.takeWhile_append,
    List.dropWhile_append, h, hdrop, List.append_nil]
  constructor
  · split
    case isTrue hall => exact ((List.takeWhile_prefix _).eq_of_length hall).symm
    case isFalse => rfl
  · split
    case isTrue hall => rw [List.isEmpty_iff.mp hall, List.nil_append]
    case isFalse => rfl

/-- A path that starts with a slash stands behind the authority, and takes its query with it. -/
theorem parts_join {u : BaseUrl} (hu : u.Valid) {path : String}
    (hstart : path = "" ∨ path.startsWith "/") (hpath : ∀ c ∈ ['?', '#'], c ∉ path.toList)
    {query : Option String} (hquery : ∀ text ∈ query, '#' ∉ text.toList) :
    UrlParts.ofText? (u.join (path ++ (query.map ("?" ++ ·)).getD "")) =
      some ⟨u.scheme, u.authority, u.path ++ path, query, none⟩ := by
  have hcolon : ':' ∉ u.scheme.toList := fun h => absurd (hu.scheme _ h) (by decide)
  have hslash : path.toList.takeWhile (· != '/') = [] := by
    rcases hstart with rfl | hstart
    · rfl
    · obtain ⟨cs, hcs⟩ := List.head?_eq_some_iff.mp (Path.startsWith_slash_iff.mp hstart)
      rw [hcs]
      rfl
  have hrest : ∀ c ∈ ['?', '#'], c ∉ u.address.toList ++ path.toList := by
    simpa [hu.query, hu.fragment] using hpath
  obtain ⟨hauthority, hbehind⟩ := address_append_parts u hslash
  have hurl : (u.join (path ++ (query.map ("?" ++ ·)).getD "")).toList =
      u.scheme.toList ++ ':' :: '/' :: '/' ::
        (u.address.toList ++ path.toList ++ (query.map ('?' :: ·.toList)).getD []) := by
    cases query <;> simp [BaseUrl.join, text]
  rw [UrlParts.ofText?_eq hurl hcolon hrest hquery, hauthority, hbehind, String.ofList_toList,
    String.ofList_toList, String.ofList_append, String.ofList_toList, String.ofList_toList]

end BaseUrl
end RestClient
