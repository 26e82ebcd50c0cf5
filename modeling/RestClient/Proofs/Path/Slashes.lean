import RestClient.Proofs.Path.Joining
import RestClient.Proofs.Path.Rooted
import RestClient.Proofs.Text.Trim

namespace RestClient.Text

def slashes (n : Nat) : String := String.ofList (List.replicate n '/')

theorem dropSuffixWhile_append_of_forall {α : Type} {p : α → Bool} {r : List α} (h : ∀ c ∈ r, p c)
    (l : List α) : dropSuffixWhile p (l ++ r) = dropSuffixWhile p l := by
  rw [dropSuffixWhile, List.reverse_append, List.dropWhile_append_of_pos (by simpa using h)]
  rfl

theorem dropTrailingSlashes_append_slashes (s : String) (n : Nat) :
    dropTrailingSlashes (s ++ slashes n) = dropTrailingSlashes s := by
  have hslashes : ∀ c ∈ (slashes n).toList, c == '/' := by simp [slashes]
  rw [dropTrailingSlashes, String.toList_append, dropSuffixWhile_append_of_forall hslashes]
  rfl

/-- The slashes at the end are all in the second text, unless it consists of them. -/
theorem dropTrailingSlashes_append (s t : String) :
    dropTrailingSlashes (s ++ t) =
      if dropTrailingSlashes t = "" then dropTrailingSlashes s else s ++ dropTrailingSlashes t := by
  split
  case isTrue h =>
    obtain ⟨n, hn⟩ := exists_dropTrailingSlashes t
    rw [h, String.toList_empty, List.nil_append] at hn
    have ht : t = slashes n := by rw [slashes, ← hn, String.ofList_toList]
    rw [ht, dropTrailingSlashes_append_slashes]
  case isFalse h =>
    have hne : dropSuffixWhile (· == '/') t.toList ≠ [] := by
      rwa [← toList_dropTrailingSlashes, ne_eq, String.toList_eq_nil_iff]
    rw [← String.toList_inj, String.toList_append, toList_dropTrailingSlashes,
      toList_dropTrailingSlashes, String.toList_append, dropSuffixWhile_append hne]

theorem dropTrailingSlashes_dropTrailingSlashes (s : String) :
    dropTrailingSlashes (dropTrailingSlashes s) = dropTrailingSlashes s := by
  obtain ⟨n, hn⟩ := exists_dropTrailingSlashes s
  have hs : s = dropTrailingSlashes s ++ slashes n := by
    rw [← String.toList_inj, String.toList_append, slashes, String.toList_ofList, ← hn]
  rw [← dropTrailingSlashes_append_slashes (dropTrailingSlashes s) n, ← hs]

end RestClient.Text

namespace RestClient.Path

open Text

/-- What a join adds to its base. -/
def rooted (template : String) : String := separator template ++ template

theorem startsWith_slash_rooted (template : String) : (rooted template).startsWith "/" := by
  rw [rooted, separator]
  split
  case isTrue h => simpa using h
  case isFalse => exact startsWith_slash_append (startsWith_slash_iff.mpr rfl) template

theorem rooted_rooted (template : String) : rooted (rooted template) = rooted template := by
  rw [rooted, separator, if_pos (startsWith_slash_rooted template), String.empty_append]

theorem dropTrailingSlashes_rooted (template : String) :
    dropTrailingSlashes (rooted template) =
      if dropTrailingSlashes template = "" then ""
      else separator template ++ dropTrailingSlashes template := by
  have hseparator : dropTrailingSlashes (separator template) = "" := by
    rw [separator]
    split <;> decide
  rw [rooted, dropTrailingSlashes_append, hseparator]

theorem join_eq_rooted (base : String) {template : String} (h : template ≠ "") :
    join base template = dropTrailingSlashes base ++ rooted template :=
  join_of_ne_empty base h

theorem dropTrailingSlashes_join (base template : String) :
    dropTrailingSlashes (join base template) =
      dropTrailingSlashes base ++ dropTrailingSlashes (rooted template) := by
  by_cases h : template = ""
  · have hroot : dropTrailingSlashes (rooted "") = "" := by decide
    rw [h, hroot, String.append_empty]
    by_cases hbase : dropTrailingSlashes base = ""
    · have hslash : dropTrailingSlashes "/" = "" := by decide
      simp [join, hbase, hslash]
    · simp [join, hbase, dropTrailingSlashes_dropTrailingSlashes]
  · rw [join_eq_rooted base h, dropTrailingSlashes_append, dropTrailingSlashes_dropTrailingSlashes]
    split
    case isTrue hempty => rw [hempty, String.append_empty]
    case isFalse => rfl

theorem rooted_join (base : String) {template : String} (h : template ≠ "") :
    rooted (join base template) = dropTrailingSlashes (rooted base) ++ rooted template := by
  rw [dropTrailingSlashes_rooted]
  split
  case isTrue hbase => rw [join_eq_rooted base h, hbase, String.empty_append, rooted_rooted]
  case isFalse hbase =>
    have hne : base ≠ "" := by
      rintro rfl
      exact hbase (by decide)
    have hseparator : separator (join base template) = separator base := by
      rw [separator, separator]
      exact ite_congr (propext (startsWith_slash_join_iff hne template)) (fun _ => rfl) fun _ => rfl
    rw [rooted, hseparator, join_eq_rooted base h, String.append_assoc]

theorem join_assoc (a b : String) {c : String} (hc : c ≠ "") :
    join (join a b) c = join a (join b c) := by
  have hne : join b c ≠ "" := by
    intro hempty
    have hroot := startsWith_slash_rooted c
    rw [join_eq_rooted b hc, String.append_eq_empty_iff] at hempty
    rw [hempty.2] at hroot
    exact absurd hroot (by decide)
  calc join (join a b) c
      = dropTrailingSlashes (join a b) ++ rooted c := join_eq_rooted _ hc
    _ = dropTrailingSlashes a ++ (dropTrailingSlashes (rooted b) ++ rooted c) := by
      rw [dropTrailingSlashes_join, String.append_assoc]
    _ = dropTrailingSlashes a ++ rooted (join b c) := by rw [rooted_join b hc]
    _ = join a (join b c) := (join_eq_rooted a hne).symm

/-- The slashes at the end of a base do not matter, however many there are, nor does it matter which
of two joins comes first. A joined path is the base up to its last slashes and what is joined to it,
with one slash between them that is put there only if there is none. -/
theorem join_slashes (a b : String) {c : String} (hc : c ≠ "") :
    (∀ n, join (a ++ slashes n) c = join a c) ∧
    join (join a b) c = join a (join b c) ∧
    ∃ stem n, a = stem ++ slashes n ∧ stem.toList.getLast? ≠ some '/' ∧
      join a c = stem ++ (if c.startsWith "/" then "" else "/") ++ c := by
  refine ⟨?_, join_assoc a b hc, dropTrailingSlashes a, ?_⟩
  · intro n
    rw [join_eq_rooted _ hc, join_eq_rooted _ hc, dropTrailingSlashes_append_slashes]
  · obtain ⟨n, hn⟩ := exists_dropTrailingSlashes a
    refine ⟨n, ?_, ?_, ?_⟩
    · rw [← String.toList_inj, String.toList_append, slashes, String.toList_ofList, ← hn]
    · rw [toList_dropTrailingSlashes]
      intro hlast
      have hnot := getLast?_dropSuffixWhile '/' hlast
      exact absurd hnot (by decide)
    · rw [join_eq_rooted a hc, rooted, separator, String.append_assoc]

/-- A part between two others that consists of slashes is lost with them. -/
theorem middle_slashes_lost :
    "items//" ≠ "" ∧ join ("/shop/" ++ slashes 2) "items//" = "/shop/items//" ∧
      join (join "/shop/" "//") "items//" = join "/shop/" (join "//" "items//") ∧
      join (join "/shop/" "//") "items//" = "/shop/items//" := by
  have hc : "items//" ≠ "" := by decide
  obtain ⟨htrailing, hassoc, -⟩ := join_slashes "/shop/" "//" hc
  have hjoined : join "/shop/" "items//" = "/shop/items//" := by decide +kernel
  have hrest : join "//" "items//" = "/items//" := by decide +kernel
  refine ⟨hc, (htrailing 2).trans hjoined, hassoc, ?_⟩
  rw [hassoc, hrest]
  decide +kernel

end RestClient.Path
