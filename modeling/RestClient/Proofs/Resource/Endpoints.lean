import RestClient.Proofs.Config.UrlParts
import RestClient.Proofs.Http.RequestTarget
import RestClient.Proofs.Resource.Preparation

namespace RestClient

/-- The parts of a URL that goes on with the path and the query of a request. -/
def UrlParts.below (parts : UrlParts) (q : Request) : UrlParts :=
  { parts with
    path := parts.path ++ q.path
    query := if q.query.isEmpty then none else some q.queryString }

/-- Joined to a base URL, the request adds its path and its query, and leaves all other parts. -/
def Request.LeadsBelow (q : Request) (u : BaseUrl) : Prop :=
  ∃ parts, UrlParts.ofText? u.text = some parts ∧
    UrlParts.ofText? (u.join q.pathAndQuery) = some (parts.below q)

variable {q : Request} {u : BaseUrl}

theorem Request.pathAndQuery_eq (q : Request) :
    q.pathAndQuery = q.path ++ ((if q.query.isEmpty then none else some q.queryString).map
      ("?" ++ ·)).getD "" := by
  rw [pathAndQuery]
  split
  · simp
  · simp [String.append_assoc]

namespace BaseUrl

theorem parts_text (hu : u.Valid) :
    UrlParts.ofText? u.text = some ⟨u.scheme, u.authority, u.path, none, none⟩ := by
  have hparts : UrlParts.ofText? (u.join ("" ++ ((none : Option String).map ("?" ++ ·)).getD "")) =
      some ⟨u.scheme, u.authority, u.path ++ "", none, none⟩ :=
    parts_join hu (.inl rfl) (by simp) (by simp)
  simpa [join] using hparts

theorem leadsBelow_of_valid (hu : u.Valid) (hstart : q.path.startsWith "/")
    (hmarks : ∀ c ∈ ['?', '#'], c ∉ q.path.toList) : q.LeadsBelow u := by
  refine ⟨_, parts_text hu, ?_⟩
  rw [q.pathAndQuery_eq]
  apply parts_join hu (.inr hstart) hmarks
  intro text htext hnumber
  split at htext
  · cases htext
  · obtain rfl := Option.some.inj htext
    exact absurd (Encoding.isQueryChar_of_mem_queryText hnumber) (by decide)

/-- Requests lead below every base URL if and only if their path is one that a URL can go on
with. -/
theorem leadsBelow_iff (hne : q.path ≠ "") :
    (∀ s u, ofText s = .ok u → q.LeadsBelow u) ↔
      q.path.startsWith "/" ∧ ∀ c ∈ ['?', '#'], c ∉ q.path.toList := by
  constructor
  · intro h
    -- Below a base without a path of its own, the path of the URL is that of the request.
    have hbase : ofText "http://a.test" = .ok ⟨"http", "a.test"⟩ := by decide +kernel
    have htext : UrlParts.ofText? (text ⟨"http", "a.test"⟩) =
        some ⟨"http", "a.test", "", none, none⟩ := by
      decide +kernel
    obtain ⟨parts, hparts, hbelow⟩ := h _ _ hbase
    obtain rfl := Option.some.inj (hparts.symm.trans htext)
    obtain ⟨hstart, hmarks⟩ := UrlParts.path_of_ofText? hbelow
    rw [UrlParts.below, String.empty_append] at hstart hmarks
    exact ⟨hstart.resolve_left hne, hmarks⟩
  · rintro ⟨hstart, hmarks⟩ s u hu
    exact leadsBelow_of_valid (valid_of_ofText hu) hstart hmarks

end BaseUrl

namespace Resource

/-- The requests of a resource lead below every base URL if and only if their path starts with a
slash and holds no mark of a query or a fragment. It starts with a slash if and only if the base
path of the resource does, and a mark in it is a literal of the template. Where it starts with a
slash, they are sent to the host of the base URL. -/
theorem endpoint_iff {p : Plan} {r : Resource} (hr : p.build = .ok r)
    {o : Operation} (ho : o ∈ r.operations) {a : Arguments} {q : Request}
    (hq : o.prepare a = .ok q) :
    ((∀ s u, BaseUrl.ofText s = .ok u → q.LeadsBelow u) ↔
      q.path.startsWith "/" ∧ ∀ c ∈ ['?', '#'], c ∉ q.path.toList) ∧
    (q.path.startsWith "/" ↔ p.basePath.startsWith "/") ∧
    (∀ c ∈ ['?', '#'], c ∈ q.path.toList ↔ .char c ∈ o.template.pieces) ∧
    (q.path.startsWith "/" → ∀ s u, BaseUrl.ofText s = .ok u →
      u.authority.toList.all Destination.isHostChar →
      (Destination.ofUrl u.scheme (u.join q.pathAndQuery)).authority = u.authority) := by
  obtain ⟨-, hcompile⟩ := (Plan.registered_of_build hr).2.compiled o ho
  have hbase : p.basePath ≠ "" := by
    rintro hempty
    rw [Plan.build, hempty] at hr
    cases hr
  obtain ⟨hslash, hne⟩ := Operation.path_of_prepare hcompile hbase hq
  refine ⟨BaseUrl.leadsBelow_iff hne, hslash, ?_, ?_⟩
  · obtain ⟨-, rfl⟩ := (Operation.prepare_eq_ok_iff (Operation.bound_of_compile hcompile)).mp hq
    intro c hc
    have hplain : Encoding.isComponentChar c = false := by
      rcases List.mem_cons.mp hc with rfl | hc
      · decide
      · rw [List.mem_singleton.mp hc]
        decide
    exact Path.Template.mem_filled_iff hplain
  · intro hstart s u hu hhost
    have hvalid := BaseUrl.valid_of_ofText hu
    have hscheme : u.scheme.toList.all Destination.isPlainAscii := by
      rw [List.all_eq_true]
      intro c hc
      apply Destination.isPlainAscii_of_isAlphanum
      rw [Char.isAlphanum, hvalid.scheme c hc, Bool.true_or]
    exact Destination.authority_ofUrl_join hscheme hhost hvalid.authority
      (Request.startsWith_slash_pathAndQuery hstart)

/-- Values cannot lead away from a base URL, whatever they look like. -/
theorem hostile_endpoint :
    let p : Plan := {
      basePath := "/shops/" ++ Path.slot "shop" ++ "/orders/"
      methods := [("find", {
        method := .get, path := some (Path.slot "id"), urlParams := ["shop", "id"],
        queryParams := ["page"] })] }
    let a := Arguments.ofPairs
      [("id", .string "//b.test"), ("page", .string "#2"), ("shop", .string "a?b")]
    ∃ r o q u, p.build = .ok r ∧ o ∈ r.operations ∧ o.prepare a = .ok q ∧
      q.pathAndQuery = "/shops/a%3Fb/orders/%2F%2Fb.test?page=%232" ∧
      BaseUrl.ofText "https://a.test:8443/v1/" = .ok u ∧ q.LeadsBelow u := by
  intro p a
  have hprepared : (p.build.toOption.bind fun r => (r.operation? "find").bind fun o =>
      (o.prepare a).toOption.map fun q => (q.path, q.pathAndQuery)) =
      some ("/shops/a%3Fb/orders/%2F%2Fb.test", "/shops/a%3Fb/orders/%2F%2Fb.test?page=%232") := by
    decide +kernel
  obtain ⟨r, o, q, hr, ho, hq, -, hprepared⟩ := exists_prepared hprepared
  obtain ⟨hpath, htext⟩ := Prod.mk.inj hprepared
  have ho := (operation?_eq_some ho).1
  have hbase : BaseUrl.ofText "https://a.test:8443/v1/" = .ok ⟨"https", "a.test:8443/v1"⟩ := by
    decide +kernel
  have hstart : q.path.startsWith "/" := by
    rw [hpath]
    decide +kernel
  have hmarks : ∀ c ∈ ['?', '#'], c ∉ q.path.toList := by
    rw [List.forall_mem_cons, List.forall_mem_singleton, hpath]
    decide +kernel
  exact ⟨r, o, q, _, hr, ho, hq, htext, hbase,
    (endpoint_iff hr ho hq).1.mpr ⟨hstart, hmarks⟩ _ _ hbase⟩

/-- Without a slash before it, the base path of a resource becomes a part of the host's name. -/
theorem relative_endpoint :
    let p : Plan := { basePath := "users", basics := [.list] }
    ∃ r o q u parts, p.build = .ok r ∧ o ∈ r.operations ∧ o.prepare .empty = .ok q ∧
      q.path = "users" ∧ BaseUrl.ofText "http://a.test" = .ok u ∧
      UrlParts.ofText? (u.join q.pathAndQuery) = some parts ∧ u.authority = "a.test" ∧
      parts.authority = "a.testusers" := by
  intro p
  have hprepared : (p.build.toOption.bind fun r => (r.operation? "list").bind fun o =>
      (o.prepare .empty).toOption.map fun q => (q.path, q.pathAndQuery)) =
      some ("users", "users") := by
    decide +kernel
  obtain ⟨r, o, q, hr, ho, hq, -, hprepared⟩ := exists_prepared hprepared
  obtain ⟨hpath, htext⟩ := Prod.mk.inj hprepared
  refine ⟨r, o, q, ⟨"http", "a.test"⟩, ⟨"http", "a.testusers", "", none, none⟩, hr,
    (operation?_eq_some ho).1, hq, hpath, by decide +kernel, ?_, by decide +kernel, rfl⟩
  rw [htext]
  decide +kernel

end Resource
end RestClient
