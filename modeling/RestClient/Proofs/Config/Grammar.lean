import RestClient.Proofs.Config.UrlParts

namespace RestClient

namespace UrlParts

/-- The scheme and the authority of a URL. -/
def origin? (url : String) : Option (String × String) :=
  (ofText? url).map fun parts => (parts.scheme, parts.authority)

def isAuthorityChar (c : Char) : Bool := c != '/' && c != '?' && c != '#'

theorem cut_fst (mark : Char) (cs : List Char) : (cut mark cs).1 = cs.takeWhile (· != mark) := by
  unfold cut
  split
  case h_1 hnone =>
    have hall := List.takeWhile_append_dropWhile (p := (· != mark)) (l := cs)
    rw [hnone, List.append_nil] at hall
    exact hall.symm
  case h_2 => rfl

/-- The authority ends where a path, a query or a fragment begins. -/
theorem origin?_eq {url : String} {scheme rest : List Char}
    (hurl : url.toList = scheme ++ ':' :: '/' :: '/' :: rest) (hscheme : ':' ∉ scheme) :
    origin? url =
      some (String.ofList scheme, String.ofList (rest.takeWhile isAuthorityChar)) := by
  have hauthority : (cut '?' (cut '#' rest).1).1.takeWhile (· != '/') =
      rest.takeWhile isAuthorityChar := by
    rw [cut_fst, cut_fst, List.takeWhile_takeWhile, List.takeWhile_takeWhile]
    congr 1
    funext c
    rw [Bool.eq_iff_iff]
    simp [isAuthorityChar, and_assoc]
  rw [origin?, ofText?, hurl, BaseUrl.splitScheme?_append hscheme, ← hauthority]
  rfl

end UrlParts

namespace BaseUrl

/-- The text is a scheme of letters, `://`, and what begins with a host and has neither a query nor
a fragment. -/
structure Spells (text scheme rest : String) : Prop where
  text_eq : text = scheme ++ "://" ++ rest
  scheme_ne : scheme ≠ ""
  letters : ∀ c ∈ scheme.toList, c.isAlpha
  rest_ne : rest ≠ ""
  host : ∀ c ∈ rest.toList.head?, c ≠ ':' ∧ c ≠ '/'
  plain : ∀ c ∈ rest.toList, c ≠ '?' ∧ c ≠ '#'

variable {s text scheme rest : String} {u : BaseUrl}

theorem splitScheme?_eq_some {cs before after : List Char}
    (h : splitScheme? cs = some (before, after)) : cs = before ++ ':' :: '/' :: '/' :: after := by
  induction cs generalizing before with
  | nil => cases h
  | cons c cs ih =>
    unfold splitScheme? at h
    split at h
    case h_1 heq =>
      obtain ⟨rfl, rfl⟩ := Prod.mk.inj (Option.some.inj h)
      exact heq
    case h_2 _ heq =>
      obtain ⟨⟨before', after'⟩, hsplit, hparts⟩ := Option.map_eq_some_iff.mp h
      obtain ⟨rfl, rfl⟩ := Prod.mk.inj hparts
      obtain ⟨rfl, rfl⟩ := List.cons.inj heq
      rw [ih hsplit, List.cons_append]
    case h_3 => cases h

theorem isScheme_iff : isScheme scheme.toList ↔ scheme ≠ "" ∧ ∀ c ∈ scheme.toList, c.isAlpha := by
  rw [isScheme, Bool.and_eq_true, List.all_eq_true]
  simp

theorem isAddress_iff : isAddress rest.toList ↔
    rest ≠ "" ∧ (∀ c ∈ rest.toList.head?, c ≠ ':' ∧ c ≠ '/') ∧
      ∀ c ∈ rest.toList, c ≠ '?' ∧ c ≠ '#' := by
  rw [Ne, ← String.toList_eq_nil_iff]
  cases rest.toList with
  | nil => simp [isAddress]
  | cons c cs => simp [isAddress]

theorem Spells.colon_not_mem (h : Spells text scheme rest) : ':' ∉ scheme.toList :=
  fun hc => absurd (h.letters _ hc) (by decide)

theorem Spells.toList_eq (h : Spells text scheme rest) :
    text.toList = scheme.toList ++ ':' :: '/' :: '/' :: rest.toList := by
  simp [h.text_eq]

theorem Spells.origin? (h : Spells text scheme rest) : UrlParts.origin? text =
    some (scheme, String.ofList (rest.toList.takeWhile UrlParts.isAuthorityChar)) := by
  rw [UrlParts.origin?_eq h.toList_eq h.colon_not_mem, String.ofList_toList]

theorem spells_of_splitScheme? {before after : List Char}
    (hsplit : splitScheme? text.toList = some (before, after))
    (hvalid : isScheme before && isAddress after) :
    Spells text (String.ofList before) (String.ofList after) := by
  rw [Bool.and_eq_true, ← String.toList_ofList (l := before), ← String.toList_ofList (l := after),
    isScheme_iff, isAddress_iff] at hvalid
  obtain ⟨⟨hscheme, hletters⟩, hrest, hhost, hplain⟩ := hvalid
  have htext : text = String.ofList before ++ "://" ++ String.ofList after := by
    rw [← String.toList_inj, splitScheme?_eq_some hsplit]
    simp
  exact ⟨htext, hscheme, hletters, hrest, hhost, hplain⟩

theorem ofText_of_blank (h : Text.trim s = "") : ofText s = .error .emptyBaseUrl := by
  rw [ofText, h]
  rfl

theorem ofText_of_spells (h : Spells (Text.trim s) scheme rest) :
    ofText s = .ok ⟨scheme, Text.dropTrailingSlashes rest⟩ := by
  have hne : (Text.trim s).isEmpty = false := by
    rw [h.text_eq]
    simp
  have hsplit : splitScheme? (Text.trim s).toList = some (scheme.toList, rest.toList) := by
    rw [h.toList_eq, splitScheme?_append h.colon_not_mem]
  have hvalid : (isScheme scheme.toList && isAddress rest.toList) = true := by
    rw [Bool.and_eq_true, isScheme_iff, isAddress_iff]
    exact ⟨⟨h.scheme_ne, h.letters⟩, h.rest_ne, h.host, h.plain⟩
  unfold ofText
  simp only [hne, hsplit, hvalid, String.ofList_toList]
  rfl

theorem ofText_of_not_spells (hne : Text.trim s ≠ "")
    (h : ¬ ∃ scheme rest, Spells (Text.trim s) scheme rest) :
    ofText s = .error (.invalidBaseUrl (Text.trim s)) := by
  have hempty : (Text.trim s).isEmpty = false := by simpa using hne
  unfold ofText
  simp only [hempty, Bool.false_eq_true, if_false]
  split
  case h_1 before after hsplit =>
    split
    case isTrue hvalid => exact absurd ⟨_, _, spells_of_splitScheme? hsplit hvalid⟩ h
    case isFalse => rfl
  case h_2 => rfl

theorem ofText_eq_ok_iff : ofText s = .ok u ↔
    ∃ rest, Spells (Text.trim s) u.scheme rest ∧ u.address = Text.dropTrailingSlashes rest := by
  constructor
  · intro hu
    by_cases hne : Text.trim s = ""
    · rw [ofText_of_blank hne] at hu
      cases hu
    · by_cases hspelled : ∃ scheme rest, Spells (Text.trim s) scheme rest
      · obtain ⟨scheme, rest, h⟩ := hspelled
        rw [ofText_of_spells h] at hu
        cases hu
        exact ⟨rest, h, rfl⟩
      · rw [ofText_of_not_spells hne hspelled] at hu
        cases hu
  · rintro ⟨rest, h, haddress⟩
    rw [ofText_of_spells h, ← haddress]

theorem exists_ofText_iff :
    (∃ u, ofText s = .ok u) ↔ ∃ scheme rest, Spells (Text.trim s) scheme rest := by
  constructor
  · rintro ⟨u, hu⟩
    obtain ⟨rest, h, -⟩ := ofText_eq_ok_iff.mp hu
    exact ⟨u.scheme, rest, h⟩
  · rintro ⟨scheme, rest, h⟩
    exact ⟨_, ofText_of_spells h⟩

theorem Spells.text_ne (h : Spells text scheme rest) : text ≠ "" := by
  rw [h.text_eq]
  simp

theorem ofText_eq_empty_iff : ofText s = .error .emptyBaseUrl ↔ Text.trim s = "" := by
  refine ⟨fun h => ?_, ofText_of_blank⟩
  by_contra hne
  by_cases hspelled : ∃ scheme rest, Spells (Text.trim s) scheme rest
  · obtain ⟨u, hu⟩ := exists_ofText_iff.mpr hspelled
    rw [hu] at h
    cases h
  · rw [ofText_of_not_spells hne hspelled] at h
    cases h

theorem ofText_eq_invalid_iff : ofText s = .error (.invalidBaseUrl (Text.trim s)) ↔
    Text.trim s ≠ "" ∧ ¬ ∃ scheme rest, Spells (Text.trim s) scheme rest := by
  refine ⟨fun h => ⟨fun hempty => ?_, fun hspelled => ?_⟩, fun h => ofText_of_not_spells h.1 h.2⟩
  · rw [ofText_of_blank hempty] at h
    cases h
  · obtain ⟨u, hu⟩ := exists_ofText_iff.mpr hspelled
    rw [hu] at h
    cases h

namespace Spells

/-- The address begins with no slash, so that something is left of it. -/
theorem exists_kept (h : Spells text scheme rest) : ∃ c cs, c ≠ '/' ∧ rest.toList.head? = some c ∧
    Text.dropSuffixWhile (· == '/') rest.toList = c :: cs := by
  obtain ⟨c, cs, hcs⟩ := List.exists_cons_of_ne_nil (mt String.toList_eq_nil_iff.mp h.rest_ne)
  have hc : c ≠ '/' := (h.host c (by simp [hcs])).2
  refine ⟨c, Text.dropSuffixWhile (· == '/') cs, hc, by simp [hcs], ?_⟩
  rw [hcs]
  exact Text.dropSuffixWhile_append_of_not (l := [c]) (by simpa using hc) (by simp) cs

theorem dropTrailingSlashes (h : Spells text scheme rest) :
    Spells (Text.dropTrailingSlashes text) scheme (Text.dropTrailingSlashes rest) := by
  obtain ⟨c, cs, -, hhead, hkept⟩ := h.exists_kept
  have htoList : (Text.dropTrailingSlashes rest).toList = c :: cs := by
    rw [Text.toList_dropTrailingSlashes, hkept]
  have hbegin : c :: cs <+: rest.toList := hkept ▸ Text.dropSuffixWhile_prefix _ rest.toList
  constructor
  case text_eq =>
    have hne : Text.dropSuffixWhile (· == '/') rest.toList ≠ [] := by simp [hkept]
    have htext : text.toList = (scheme ++ "://").toList ++ rest.toList := by
      rw [h.text_eq, String.toList_append]
    rw [← String.toList_inj, String.toList_append, Text.dropTrailingSlashes, htext,
      Text.dropSuffixWhile_append hne, htoList, hkept, String.toList_ofList]
  case scheme_ne => exact h.scheme_ne
  case letters => exact h.letters
  case rest_ne =>
    intro hempty
    simp [hempty] at htoList
  case host =>
    intro d hd
    rw [htoList, List.head?_cons, ← hhead] at hd
    exact h.host d hd
  case plain =>
    intro d hd
    exact h.plain d (hbegin.subset (htoList ▸ hd))

/-- What follows after a slash changes neither the scheme nor the authority. -/
theorem origin?_append (h : Spells text scheme rest) {url : String} {tail : List Char}
    (hurl : url.toList = text.toList ++ tail) (htail : ∀ c ∈ tail.head?, c = '/') :
    UrlParts.origin? url = UrlParts.origin? text := by
  have hstop : ∀ c ∈ tail.head?, UrlParts.isAuthorityChar c = false := by
    intro c hc
    rw [htail c hc]
    rfl
  have hparts : url.toList = scheme.toList ++ ':' :: '/' :: '/' :: (rest.toList ++ tail) := by
    rw [hurl, h.toList_eq]
    simp
  rw [h.origin?, UrlParts.origin?_eq hparts h.colon_not_mem, String.ofList_toList,
    Text.takeWhile_append_of_head? hstop]

end Spells

theorem spells_of_ofText (h : ofText s = .ok u) :
    Spells u.text u.scheme u.address ∧ u.text = Text.dropTrailingSlashes (Text.trim s) := by
  obtain ⟨rest, hspells, haddress⟩ := ofText_eq_ok_iff.mp h
  have hkept := hspells.dropTrailingSlashes
  have htext : u.text = Text.dropTrailingSlashes (Text.trim s) := by
    rw [hkept.text_eq, ← haddress]
    rfl
  rw [← haddress, ← htext] at hkept
  exact ⟨hkept, htext⟩

/-- A text is a base URL just when it spells one without the blanks around it. Its slashes at the
end are dropped, which changes neither its scheme nor its authority; nor does a path that is
joined. -/
theorem ofText_grammar (s : String) :
    Text.Trims Text.isBlank s.toList (Text.trim s).toList ∧
    (ofText s = .error .emptyBaseUrl ↔ Text.trim s = "") ∧
    ((∃ u, ofText s = .ok u) ↔ ∃ scheme rest, Spells (Text.trim s) scheme rest) ∧
    (ofText s = .error (.invalidBaseUrl (Text.trim s)) ↔
      Text.trim s ≠ "" ∧ ¬ ∃ scheme rest, Spells (Text.trim s) scheme rest) ∧
    ∀ u, ofText s = .ok u →
      (∃ rest, Spells (Text.trim s) u.scheme rest) ∧ Spells u.text u.scheme u.address ∧
      (∃ n, (Text.trim s).toList = u.text.toList ++ List.replicate n '/') ∧
      u.text.toList.getLast? ≠ some '/' ∧
      UrlParts.origin? u.text = UrlParts.origin? (Text.trim s) ∧
      ∀ path, path.startsWith "/" → u.join path = u.text ++ path ∧
        UrlParts.origin? (u.join path) = UrlParts.origin? (Text.trim s) := by
  refine ⟨Text.trims_trim s, ofText_eq_empty_iff, exists_ofText_iff, ofText_eq_invalid_iff,
    fun u hu => ?_⟩
  obtain ⟨hspells, htext⟩ := spells_of_ofText hu
  obtain ⟨rest, hrest, -⟩ := ofText_eq_ok_iff.mp hu
  obtain ⟨n, hn⟩ := Text.exists_dropTrailingSlashes (Text.trim s)
  have hlast : u.text.toList.getLast? ≠ some '/' := by
    intro hslash
    rw [htext, Text.toList_dropTrailingSlashes] at hslash
    exact absurd (Text.getLast?_dropSuffixWhile '/' hslash) (by decide)
  have hslashes : ∀ c ∈ (List.replicate n '/').head?, c = '/' :=
    fun c hc => List.eq_of_mem_replicate (List.mem_of_mem_head? hc)
  have horigin : UrlParts.origin? u.text = UrlParts.origin? (Text.trim s) :=
    (hspells.origin?_append (htext ▸ hn) hslashes).symm
  refine ⟨⟨rest, hrest⟩, hspells, ⟨n, htext ▸ hn⟩, hlast, horigin, fun path hpath => ⟨rfl, ?_⟩⟩
  have hstart : ∀ c ∈ path.toList.head?, c = '/' := by
    intro c hc
    rw [Path.startsWith_slash_iff.mp hpath] at hc
    exact (Option.some.inj hc).symm
  rw [← horigin]
  exact hspells.origin?_append (String.toList_append) hstart

theorem user_and_port_grammar :
    let s := "\u3000 httpS://me:p@Host:80/v1://x//\n"
    let u : BaseUrl := ⟨"httpS", "me:p@Host:80/v1://x"⟩
    ofText s = .ok u ∧ "/t?a#b".startsWith "/" ∧
      UrlParts.origin? (u.join "/t?a#b") = UrlParts.origin? (Text.trim s) ∧
      UrlParts.origin? (Text.trim s) = some ("httpS", "me:p@Host:80") := by
  intro s u
  have hu : ofText s = .ok u := by decide +kernel
  have hslash : "/t?a#b".startsWith "/" := by decide +kernel
  obtain ⟨-, -, -, -, hkept⟩ := ofText_grammar s
  obtain ⟨-, -, -, -, -, hjoin⟩ := hkept u hu
  exact ⟨hu, hslash, (hjoin _ hslash).2, by decide +kernel⟩

theorem not_isBlank_of_isAlpha {c : Char} (h : c.isAlpha) : Text.isBlank c = false :=
  Destination.isBlank_of_isPlainAscii
    (Destination.isPlainAscii_of_isAlphanum (Bool.or_eq_true_iff.mpr (.inl h)))

theorem Spells.not_isBlank_head (h : Spells text scheme rest) :
    ∀ c ∈ text.toList.head?, Text.isBlank c = false := by
  obtain ⟨c, cs, hcs⟩ := List.exists_cons_of_ne_nil (mt String.toList_eq_nil_iff.mp h.scheme_ne)
  have hc : c.isAlpha := h.letters c (by simp [hcs])
  intro d hd
  rw [h.toList_eq, hcs, List.cons_append, List.head?_cons] at hd
  rw [← Option.some.inj hd]
  exact not_isBlank_of_isAlpha hc

/-- A base URL ends in a blank when the text it was read from has one before its last slashes. -/
def endsInBlank (u : BaseUrl) : Bool := u.text.toList.getLast?.any Text.isBlank

theorem endsInBlank_eq_false_iff :
    u.endsInBlank = false ↔ ∀ c ∈ u.text.toList.getLast?, Text.isBlank c = false := by
  rw [endsInBlank]
  cases u.text.toList.getLast? <;> simp

/-- What is trimmed and then loses its slashes stays as it is when that is done again, unless a
blank has come to its end. -/
theorem ofText_text_iff (h : ofText s = .ok u) :
    ofText u.text = .ok u ↔ u.endsInBlank = false := by
  obtain ⟨hspells, -⟩ := spells_of_ofText h
  rw [endsInBlank_eq_false_iff]
  constructor
  · intro hagain
    obtain ⟨-, htext⟩ := spells_of_ofText hagain
    obtain ⟨n, hn⟩ := Text.exists_dropTrailingSlashes (Text.trim u.text)
    rw [← htext] at hn
    have htrims := Text.trims_trim u.text
    -- What is trimmed from the text begins with all of it, so that nothing was trimmed.
    have hsame : (Text.trim u.text).toList = u.text.toList :=
      htrims.eq_of_prefix ⟨List.replicate n '/', hn.symm⟩
    exact hsame ▸ htrims.last
  · intro hlast
    obtain ⟨rest, -, haddress⟩ := ofText_eq_ok_iff.mp h
    have htrim : Text.trim u.text = u.text := Text.trim_eq_self hspells.not_isBlank_head hlast
    refine ofText_eq_ok_iff.mpr ⟨u.address, htrim.symm ▸ hspells, ?_⟩
    have hkept : ∀ c ∈ u.address.toList.getLast?, (c == '/') = false := by
      rw [haddress, Text.toList_dropTrailingSlashes]
      exact fun c => Text.getLast?_dropSuffixWhile c
    rw [Text.dropTrailingSlashes, Text.dropSuffixWhile_eq_self hkept, String.ofList_toList]

end BaseUrl
end RestClient
