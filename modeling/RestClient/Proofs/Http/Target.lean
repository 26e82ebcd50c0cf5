import RestClient.Config
import RestClient.Http.Target
import RestClient.Proofs.Text.Trim

namespace RestClient

/-- What stands before the first slash of the address. -/
def BaseUrl.authority (u : BaseUrl) : String :=
  String.ofList (u.address.toList.takeWhile (· != '/'))

/-- The authorities of the test service. -/
def BaseUrl.testAuthorities : List String := ["a.test", "b.test"]

/-- The base URL of a test service. -/
structure BaseUrl.IsTest (u : BaseUrl) : Prop where
  scheme : u.scheme = "http"
  authority : u.authority ∈ testAuthorities

namespace Destination

/-- A character that a host name keeps as it is. -/
def isHostChar (c : Char) : Bool := isPlainAscii c && !isSlash c && c != '?' && c != '#'

theorem isPlainAscii_of_isAlphanum {c : Char} (h : c.isAlphanum) : isPlainAscii c := by
  have hcode : decide (c.val ≥ 'A'.val ∧ c.val ≤ 'Z'.val) ||
      (c.val ≥ 'a'.val && c.val ≤ 'z'.val) || (c.val ≥ '0'.val && c.val ≤ '9'.val) := h
  simp only [Bool.or_eq_true, Bool.and_eq_true, decide_eq_true_eq, ge_iff_le,
    UInt32.le_iff_toNat_le] at hcode
  change ((65 ≤ c.toNat ∧ c.toNat ≤ 90) ∨ (97 ≤ c.toNat ∧ c.toNat ≤ 122)) ∨
    (48 ≤ c.toNat ∧ c.toNat ≤ 57) at hcode
  simp only [isPlainAscii, Bool.and_eq_true, decide_eq_true_eq]
  omega

theorem isBlank_of_isPlainAscii {c : Char} (h : isPlainAscii c) : Text.isBlank c = false := by
  simp only [isPlainAscii, Bool.and_eq_true, decide_eq_true_eq] at h
  simp only [Text.isBlank, Bool.or_eq_false_iff, Bool.and_eq_false_iff, decide_eq_false_iff_not,
    beq_eq_false_iff_ne]
  omega

theorem isControlOrSpace_of_isPlainAscii {c : Char} (h : isPlainAscii c) :
    isControlOrSpace c = false := by
  simp only [isPlainAscii, Bool.and_eq_true, decide_eq_true_eq] at h
  simpa [isControlOrSpace] using h.1

theorem isTabOrNewline_of_isPlainAscii {c : Char} (h : isPlainAscii c) :
    isTabOrNewline c = false := by
  by_contra hblank
  simp only [isTabOrNewline, Bool.not_eq_false, Bool.or_eq_true, beq_iff_eq] at hblank
  rcases hblank with (rfl | rfl) | rfl <;> exact absurd h (by decide)

/-- Cleaning a URL leaves what it begins with, up to a blank. -/
theorem clean_append {l : List Char} (h : ∀ c ∈ l, isPlainAscii c) (hne : l ≠ []) (r : List Char) :
    ∃ r', clean (l ++ r) = l ++ r' := by
  have hcontrol : ∀ c ∈ l, isControlOrSpace c = false :=
    fun c hc => isControlOrSpace_of_isPlainAscii (h c hc)
  have hkept : l.filter (!isTabOrNewline ·) = l :=
    List.filter_eq_self.mpr fun c hc => by simp [isTabOrNewline_of_isPlainAscii (h c hc)]
  rw [clean, Text.trimChars, Text.dropWhile_append_of_not hcontrol hne,
    Text.dropSuffixWhile_append_of_not hcontrol hne, List.filter_append, hkept]
  exact ⟨_, rfl⟩

theorem authority_ofAddress {host : List Char} (h : ∀ c ∈ host, isHostChar c) (hne : host ≠ [])
    (rest : List Char) : (ofAddress (host ++ '/' :: rest)).authority = String.ofList host := by
  simp only [isHostChar, Bool.and_eq_true, Bool.not_eq_true', bne_iff_ne] at h
  simp only [ofAddress]
  -- The cuts at a fragment, at a query and at the first slash all lie behind the host.
  rw [List.takeWhile_append_of_pos (by simpa using fun c hc => (h c hc).2),
    List.takeWhile_cons_of_pos (by decide),
    List.takeWhile_append_of_pos (by simpa using fun c hc => (h c hc).1.2),
    List.takeWhile_cons_of_pos (by decide),
    Text.dropWhile_append_of_not (fun c hc => (h c hc).1.1.2) hne,
    List.takeWhile_append_of_pos (by simpa using fun c hc => (h c hc).1.1.2),
    List.takeWhile_cons_of_neg (by decide), List.append_nil]

theorem address_append (u : BaseUrl) {path : String} (h : path.startsWith "/") :
    ∃ rest, u.address.toList ++ path.toList = u.authority.toList ++ '/' :: rest := by
  obtain ⟨cs, hcs⟩ := String.startsWith_string_iff.mp h
  have hpath : path.toList = '/' :: cs := hcs.symm
  have hsplit := List.takeWhile_append_dropWhile (p := (· != '/')) (l := u.address.toList)
  rw [BaseUrl.authority, String.toList_ofList, hpath]
  -- The address ends with its authority, or goes on with a slash of its own.
  cases hd : u.address.toList.dropWhile (· != '/') with
  | nil =>
    rw [hd, List.append_nil] at hsplit
    exact ⟨cs, by rw [hsplit]⟩
  | cons c d =>
    have hc : c = '/' := by
      simpa [hd] using List.head_dropWhile_not (· != '/') (l := u.address.toList) (by simp [hd])
    refine ⟨d ++ '/' :: cs, ?_⟩
    conv_lhs => rw [← hsplit, hd, hc]
    simp

/-- The requests below a base URL go to its authority. -/
theorem authority_ofUrl_join {u : BaseUrl} (hscheme : u.scheme.toList.all isPlainAscii)
    (hhost : u.authority.toList.all isHostChar) (hne : u.authority ≠ "") {path : String}
    (hpath : path.startsWith "/") :
    (ofUrl u.scheme (u.join path)).authority = u.authority := by
  obtain ⟨rest, hrest⟩ := address_append u hpath
  rw [List.all_eq_true] at hhost
  let start := u.scheme.toList ++ [':', '/', '/']
  have hurl : (u.join path).toList = start ++ u.authority.toList ++ ['/'] ++ rest := by
    simp [start, BaseUrl.join, BaseUrl.text, hrest]
  have hauthority : u.authority.toList.all isPlainAscii := by
    rw [List.all_eq_true]
    intro c hc
    have hchar := hhost c hc
    simp only [isHostChar, Bool.and_eq_true] at hchar
    exact hchar.1.1.1
  have hplain : (start ++ u.authority.toList ++ ['/']).all isPlainAscii := by
    have hseparator : [':', '/', '/'].all isPlainAscii := by decide
    have hslash : ['/'].all isPlainAscii := by decide
    simp only [start, List.all_append, hscheme, hseparator, hauthority, hslash, Bool.and_self]
  obtain ⟨rest', hclean⟩ := clean_append (List.all_eq_true.mp hplain) (by simp) rest
  have hlength : start.length = u.scheme.length + 3 := by
    rw [← String.length_toList]
    simp [start]
  rw [ofUrl, afterScheme, hurl, hclean, List.append_assoc, List.append_assoc,
    List.drop_left' hlength, List.singleton_append,
    authority_ofAddress hhost (mt String.toList_eq_nil_iff.mp hne), String.ofList_toList]

theorem authority_ofUrl_join_of_isTest {u : BaseUrl} (hu : u.IsTest) {path : String}
    (hpath : path.startsWith "/") :
    (ofUrl u.scheme (u.join path)).authority = u.authority := by
  have htest : ∀ authority ∈ BaseUrl.testAuthorities,
      authority.toList.all isHostChar ∧ authority ≠ "" := by
    decide +kernel
  have hscheme : "http".toList.all isPlainAscii := by decide +kernel
  obtain ⟨hhost, hne⟩ := htest u.authority hu.authority
  exact authority_ofUrl_join (hu.scheme ▸ hscheme) hhost hne hpath

end Destination
end RestClient
