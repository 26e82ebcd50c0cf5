import RestClient.Proofs.Catalog.Invocations
import RestClient.Proofs.Http.Query
import RestClient.Proofs.Resource.OptionalArguments

namespace RestClient

open Entries (present)

theorem SortOrder.ofName?_name (order : SortOrder) : ofName? order.name = some order := by
  cases order <;> decide

theorem SortOrder.name_injective : Function.Injective name := by
  intro order order' h
  have horder := ofName?_name order
  rw [h, ofName?_name] at horder
  exact (Option.some.inj horder).symm

namespace ListParams

/-- The arguments of a list, one slot for each parameter. -/
def slots (p : ListParams) : List (String × Option Json) := [
  ("states", p.states.map fun states => .array (states.map .string)),
  ("per_page", p.perPage.map fun n => .int n.toNat),
  ("page", p.page.map fun n => .int n.toNat),
  ("sort", p.sort.map .string),
  ("order", p.order.map fun order => .string order.name)]

/-- The texts of the parameters that are set, in the order in which lists declare them. -/
def wireFields (p : ListParams) : Entries String := present [
  ("states", p.states.map (",".intercalate ·)),
  ("per_page", p.perPage.map fun n => toString n.toNat),
  ("page", p.page.map fun n => toString n.toNat),
  ("sort", p.sort),
  ("order", p.order.map SortOrder.name)]

variable {p p' : ListParams}

theorem slots_arguments (p : ListParams) : Arguments.Slots p.slots where
  nodup := by
    have hnames : p.slots.map Prod.fst = listQueryParams := rfl
    rw [hnames]
    decide
  not_null := by simp [slots, Json.int]

theorem arguments_eq (p : ListParams) : p.arguments = Arguments.ofPairs (present p.slots) := by
  rcases p with ⟨_ | _, _ | _, _ | _, _ | _, _ | _⟩ <;> rfl

theorem paramText?_texts (texts : List String) :
    (Json.array (texts.map .string)).paramText? = some (",".intercalate texts) := by
  have hscalars : (texts.map Json.string).filterMap Json.scalarText? = texts := by
    rw [List.filterMap_map]
    exact List.filterMap_some
  rw [Json.paramText?, hscalars]

theorem paramText?_string (text : String) : (Json.string text).paramText? = some text := rfl

theorem paramText?_nat (n : Nat) : (Json.int n).paramText? = some (toString n) := by
  rw [Nat.toString_eq_ofList_toDigits]
  rfl

theorem queryFields_arguments {d : Descriptor} (h : d.queryParams = listQueryParams)
    (p : ListParams) : Operation.queryFields d p.arguments = p.wireFields := by
  rw [arguments_eq, Operation.queryFields_present p.slots_arguments (List.Subset.refl _) h]
  simp only [slots, List.map_cons, List.map_nil, Option.bind_map, Function.comp_def,
    paramText?_texts, paramText?_nat, paramText?_string, Option.bind_fun_some]
  simp only [wireFields, Option.map_eq_bind, Function.comp_def]

theorem toString_injective : Function.Injective (toString : Nat → String) := by
  intro m n h
  have hvalue := congrArg (fun s : String => Nat.ofDigitChars 10 s.toList 0) h
  simpa [Nat.toString_eq_ofList_toDigits] using hvalue

/-- Texts that can be told apart after they are joined by commas. -/
def Separable (texts : List String) : Prop := texts ≠ [] ∧ ∀ text ∈ texts, ',' ∉ text.toList

theorem splitOn_intercalate {texts : List String} (h : Separable texts) :
    (",".intercalate texts).toList.splitOn ',' = texts.map String.toList := by
  rw [String.toList_intercalate]
  apply List.splitOn_intercalate
  · simpa using h.2
  · simpa using h.1

theorem eq_of_intercalate_eq {texts texts' : List String} (h : Separable texts)
    (h' : Separable texts') (heq : ",".intercalate texts = ",".intercalate texts') :
    texts = texts' := by
  have hlists := splitOn_intercalate h
  rw [heq, splitOn_intercalate h'] at hlists
  exact List.map_injective_iff.mpr (fun _ _ => String.toList_inj.mp) hlists.symm

theorem wireFields_eq_iff (h : ∀ states ∈ p.states, Separable states)
    (h' : ∀ states ∈ p'.states, Separable states) : p.wireFields = p'.wireFields ↔ p = p' := by
  refine ⟨fun heq => ?_, congrArg wireFields⟩
  have hnodup : listQueryParams.Nodup := by decide
  have hword : Function.Injective fun n : UInt32 => toString n.toNat :=
    fun _ _ hn => UInt32.toNat_inj.mp (toString_injective hn)
  have hstates : p.states = p'.states := by
    have hjoined : p.states.map (",".intercalate ·) = p'.states.map (",".intercalate ·) :=
      Entries.eq_of_present_eq "states" heq hnodup hnodup (by simp) (by simp)
    cases hs : p.states with
    | none =>
      rw [hs, Option.map_none, eq_comm, Option.map_eq_none_iff] at hjoined
      exact hjoined.symm
    | some states =>
      rw [hs, Option.map_some, eq_comm, Option.map_eq_some_iff] at hjoined
      obtain ⟨states', hs', hjoined⟩ := hjoined
      rw [hs', eq_of_intercalate_eq (h' _ hs') (h _ hs) hjoined]
  have hperPage : p.perPage = p'.perPage :=
    Option.map_injective hword
      (Entries.eq_of_present_eq "per_page" heq hnodup hnodup (by simp) (by simp))
  have hpage : p.page = p'.page :=
    Option.map_injective hword
      (Entries.eq_of_present_eq "page" heq hnodup hnodup (by simp) (by simp))
  have hsort : p.sort = p'.sort :=
    Entries.eq_of_present_eq "sort" heq hnodup hnodup (by simp) (by simp)
  have horder : p.order = p'.order :=
    Option.map_injective SortOrder.name_injective
      (Entries.eq_of_present_eq "order" heq hnodup hnodup (by simp) (by simp))
  cases p
  cases p'
  simp_all

theorem request_arguments {o : Operation} {path : String} (hmethod : o.descriptor.method = .get)
    (hquery : o.descriptor.queryParams = listQueryParams)
    (htemplate : o.template = ⟨[.literal path]⟩) (p : ListParams) :
    o.request p.arguments = { method := .get, path, query := p.wireFields } := by
  have hpath (value : String → String) : o.template.filled value = path := by
    simp [htemplate]
  rw [Operation.request, hpath, hmethod, queryFields_arguments hquery]
  rfl

end ListParams

/-- A helper that lists by typed parameters: its resource, and the operation and the path that it
calls. -/
structure Listing where
  plan : Resource.Plan
  invocation : ListParams → Invocation
  operation : String
  path : String

namespace Listing

def all : List Listing := [
  ⟨Orders.plan, .listWith, "list", "/users/me/orders"⟩,
  ⟨Products.plan, .listWith, "list", "/products"⟩,
  ⟨Users.plan, .listUniqueCoffees, "listUniqueCoffees", "/users/me/coffees"⟩]

variable {l : Listing} {r : Resource}

theorem prepare_eq (hl : l ∈ all) (hr : l.plan.build = .ok r) (p : ListParams) :
    (l.invocation p).prepare r =
      .ok { method := .get, path := l.path, query := p.wireFields } := by
  have hall : ∀ l ∈ all, ∃ entry ∈ l.plan.declared, entry.2.method = .get ∧
      entry.2.urlParams = [] ∧ entry.2.queryParams = listQueryParams ∧ entry.1 = l.operation ∧
      l.plan.Declares ⟨l.operation, l.plan.basePath, entry.2, ⟨[.literal l.path]⟩⟩ := by
    decide +kernel
  have hcall : ∀ l ∈ all, ∀ p, (l.invocation p).call = .ok ⟨l.operation, p.arguments⟩ := by
    simp only [all, List.forall_mem_cons]
    exact ⟨fun _ => rfl, fun _ => rfl, fun _ => rfl, by simp⟩
  obtain ⟨⟨_, d⟩, -, hmethod, hurl, hquery, -, ho⟩ := hall l hl
  have hgiven : ∀ param ∈ d.urlParams, ¬ p.arguments.Lacks param := by
    rw [show d.urlParams = [] from hurl]
    simp
  rw [Invocation.prepare_of_call hr ho (hcall l hl p),
    Operation.prepare_of_given (Operation.bound_of_compile ho.2) hgiven,
    ListParams.request_arguments hmethod hquery rfl]

theorem no_mark_in_path (hl : l ∈ all) : '?' ∉ l.path.toList := by
  have hall : ∀ l ∈ all, '?' ∉ l.path.toList := by decide +kernel
  exact hall l hl

/-- The query of a list has the parameters that are set, in the order in which lists declare them,
and nothing else. So lists by other parameters have another path and query, where the states can be
told apart after they are joined. -/
theorem query_injective (hl : l ∈ all) :
    ∃ r, l.plan.build = .ok r ∧ ∀ p,
      Arguments.ofJson p.toJson = .ok p.arguments ∧
      ∃ q, (l.invocation p).prepare r = .ok q ∧ q.method = .get ∧ q.path = l.path ∧
        q.query = p.wireFields ∧ q.body = none ∧
        ∀ p' q', (l.invocation p').prepare r = .ok q' →
          (∀ states ∈ p.states, ListParams.Separable states) →
          (∀ states ∈ p'.states, ListParams.Separable states) →
          (q.pathAndQuery = q'.pathAndQuery ↔ p = p') := by
  have hplan : ∀ l ∈ all, l.plan ∈ Catalog.plans := by simp [all, Catalog.plans]
  obtain ⟨r, hr⟩ := Catalog.exists_build (hplan l hl)
  refine ⟨r, hr, fun p => ⟨rfl, _, prepare_eq hl hr p, rfl, rfl, rfl, rfl, ?_⟩⟩
  intro p' q' hq' hseparable hseparable'
  obtain rfl := Except.ok.inj ((prepare_eq hl hr p').symm.trans hq')
  have hpath := no_mark_in_path hl
  rw [Request.pathAndQuery_eq_iff hpath hpath,
    ← ListParams.wireFields_eq_iff hseparable hseparable']
  exact and_iff_right rfl

/-- An empty state, marks of a query in states and in a name, and a state that looks like two. -/
theorem hostile_query_injective :
    let p : ListParams := { states := some ["", "a&page=2"], perPage := some 0, sort := some "?é" }
    let p' : ListParams := { p with states := some ["", "a", "page=2"], order := some .asc }
    ∃ r q q', Users.plan.build = .ok r ∧
      (Invocation.listUniqueCoffees p).prepare r = .ok q ∧
      (Invocation.listUniqueCoffees p').prepare r = .ok q' ∧
      q.query = [("states", ",a&page=2"), ("per_page", "0"), ("sort", "?é")] ∧
      q.pathAndQuery ≠ q'.pathAndQuery := by
  intro p p'
  have hl : ⟨Users.plan, .listUniqueCoffees, "listUniqueCoffees", "/users/me/coffees"⟩ ∈ all := by
    simp [all]
  obtain ⟨r, hr, hlist⟩ := query_injective hl
  obtain ⟨-, q, hq, -, -, hquery, -, hiff⟩ := hlist p
  obtain ⟨-, q', hq', -⟩ := hlist p'
  have hseparable : ∀ states ∈ p.states, ListParams.Separable states := by
    rintro states ⟨⟩
    exact ⟨by decide, by decide +kernel⟩
  have hseparable' : ∀ states ∈ p'.states, ListParams.Separable states := by
    rintro states ⟨⟩
    exact ⟨by decide, by decide +kernel⟩
  have hne : p ≠ p' := by decide +kernel
  exact ⟨r, q, q', hr, hq, hq', hquery.trans (by decide +kernel),
    mt (hiff p' q' hq' hseparable hseparable').mp hne⟩

end Listing
end RestClient
