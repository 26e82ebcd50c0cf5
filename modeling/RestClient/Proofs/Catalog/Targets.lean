import RestClient.Catalog.Resources
import RestClient.Proofs.Path.PlainSegments
import RestClient.Proofs.Resource.Preparation

namespace RestClient.Catalog

open Operation (urlText?)

/-- The resources of the service. -/
def plans : List Resource.Plan := [Users.plan, Orders.plan, Products.plan]

variable {p : Resource.Plan} {r : Resource} {o : Operation} {a : Arguments} {q : Request}

theorem plain_of_mem_operations (hp : p ∈ plans) (hr : p.build = .ok r) (ho : o ∈ r.operations) :
    o.template.Plain := by
  -- The templates are those of the declared descriptors, so that the plans need not be built.
  have hall : ∀ p ∈ plans, ∀ entry ∈ p.declared,
      ∀ t ∈ (Path.Template.parse (Path.join p.basePath (entry.2.path.getD ""))).toOption,
        t.Plain := by
    decide +kernel
  obtain ⟨hdeclared, hcompile⟩ := (Resource.Plan.registered_of_build hr).2.compiled o ho
  obtain ⟨-, -, -, hsound⟩ := Operation.compile_eq_ok_iff.mp hcompile
  exact hall p hp _ hdeclared _ (Except.toOption_eq_some_iff.mpr hsound.parse)

/-- A call of the service's operations dispatches its request. The path of it has the segments of
the operation's template, and arrives as it was prepared if and only if no value in it is `.` or
`..`. -/
theorem call_target_iff (hp : p ∈ plans) (hr : p.build = .ok r) {c : Connection} (hc : c.Sendable)
    (hbase : c.base ∈ BaseUrl.testRoots) {t : Transport} (ht : t.Reaches BaseUrl.testAuthorities)
    {name : String} (hq : r.prepare name a = .ok q) :
    ∃ o, r.operation? name = some o ∧
      q.path.toList.tail.splitOnP Destination.isSlash =
        o.template.filledSegments (fun param => (urlText? a param).getD "") ∧
      (c.call t r ⟨name, a⟩).Dispatches t c.base c.token q (.transport .network) ∧
      ∀ w, (c.call t r ⟨name, a⟩).sent.head? = some w →
        (w.target = q.pathAndQuery ↔ ∀ param ∈ o.descriptor.urlParams,
          urlText? a param ≠ some "." ∧ urlText? a param ≠ some "..") := by
  obtain ⟨o, hfound, hcompile, hprepare⟩ := Resource.exists_operation_of_prepare hr hq
  have hbound := Operation.bound_of_compile hcompile
  have hplain := plain_of_mem_operations hp hr (Resource.operation?_eq_some hfound).1
  obtain ⟨hgiven, hrequest⟩ := (Operation.prepare_eq_ok_iff hbound).mp hprepare
  obtain ⟨cs, hpath, hsafe, hsegments⟩ :=
    Path.Template.filled_eq_cons hplain fun param => (urlText? a param).getD ""
  have hpath : q.path.toList = '/' :: cs := by rw [hrequest, Operation.request, hpath]
  have hslash : q.path.startsWith "/" := by
    rw [Path.startsWith_slash_iff, hpath, List.head?_cons]
  have hdispatches := Connection.dispatches_of_valid hc ht
    (Operation.plain_of_prepare hbound hprepare) hslash
    (Operation.verify_of_prepare hbound hprepare)
  have hcall : c.call t r ⟨name, a⟩ =
      ((c.send t q).mapError ApiError.transport).andThen fun r => .ok r.body := by
    rw [Connection.call, Call.prepare, hq]
    rfl
  rw [hcall]
  refine ⟨o, hfound, by rw [hpath, List.tail_cons, hsegments], hdispatches.relay _ _, ?_⟩
  intro w hsent
  rw [Connection.target_of_head?_sent hsent,
    Destination.target_eq_pathAndQuery_iff hbase hpath hsafe, hsegments,
    Path.Template.no_dot_segment_iff hplain]
  -- The values of the placeholders are those of the URL parameters, all of which are given.
  constructor
  · intro hvalues param hparam
    have hvalue := hvalues param ((hbound param).mpr hparam)
    rw [Operation.urlText?_eq_some_getD (hgiven param hparam)]
    exact ⟨fun h => hvalue.1 (Option.some.inj h), fun h => hvalue.2 (Option.some.inj h)⟩
  · intro hvalues param hparam
    have hparam := (hbound param).mp hparam
    have hvalue := hvalues param hparam
    rw [Operation.urlText?_eq_some_getD (hgiven param hparam)] at hvalue
    exact ⟨fun h => hvalue.1 (congrArg some h), fun h => hvalue.2 (congrArg some h)⟩

/-- A value with slashes and dots is one segment all the same. -/
theorem slash_id_target :
    let c : Connection := ⟨⟨"http", "a.test"⟩, some ⟨"secret", by decide⟩, "shop"⟩
    let t := Transport.canned BaseUrl.testAuthorities none
    let a := Arguments.ofPairs [("id", .string "../7?é"), ("item_id", .string "...")]
    ∃ r q w, Orders.plan.build = .ok r ∧ r.prepare "update_item" a = .ok q ∧
      (c.call t r ⟨"update_item", a⟩).sent = [w] ∧ w.target = q.pathAndQuery ∧
      w.target = "/users/me/orders/..%2F7%3F%C3%A9/items/..." := by
  intro c t a
  have hplan : Orders.plan ∈ plans := by simp [plans]
  have hc : c.Sendable := by
    refine ⟨⟨rfl, by decide +kernel⟩, by decide +kernel, ?_⟩
    rintro _ ⟨⟩
    decide +kernel
  have hbase : c.base ∈ BaseUrl.testRoots := by decide +kernel
  have ht : t.Reaches BaseUrl.testAuthorities := Transport.reaches_canned _ _
  have hprepared : (Orders.plan.build.toOption.bind fun r => (r.operation? "update_item").bind
      fun o => (o.prepare a).toOption.map fun q =>
        (q.pathAndQuery, o.descriptor.urlParams, decide (q.Fits c.base))) =
      some ("/users/me/orders/..%2F7%3F%C3%A9/items/...", ["id", "item_id"], true) := by
    decide +kernel
  obtain ⟨r, o, q, hr, ho, -, hq, hprepared⟩ := Resource.exists_prepared hprepared
  obtain ⟨hpath, hprepared⟩ := Prod.mk.inj hprepared
  obtain ⟨hparams, hfits⟩ := Prod.mk.inj hprepared
  obtain ⟨o', hfound, -, hdispatches, harrives⟩ := call_target_iff hplan hr hc hbase ht hq
  obtain rfl := Option.some.inj (ho.symm.trans hfound)
  obtain ⟨w, hsent, -⟩ := hdispatches.exists_sent_canned (of_decide_eq_true hfits)
  have hvalues : ∀ param ∈ ["id", "item_id"],
      urlText? a param ≠ some "." ∧ urlText? a param ≠ some ".." := by
    decide +kernel
  have htarget := (harrives w (by rw [hsent]; rfl)).mpr (hparams ▸ hvalues)
  exact ⟨r, q, w, hr, hq, hsent, htarget, htarget.trans hpath⟩

/-- To delete the order of two dots is to address the user. -/
theorem dotted_id_target :
    let c : Connection := ⟨⟨"http", "a.test"⟩, none, "shop"⟩
    let t := Transport.canned BaseUrl.testAuthorities none
    let a := Arguments.ofPairs [("id", .string "..")]
    ∃ r q w, Orders.plan.build = .ok r ∧ r.prepare "del" a = .ok q ∧
      q.pathAndQuery = "/users/me/orders/.." ∧ (c.call t r ⟨"del", a⟩).sent = [w] ∧
      w.target = "/users/me/" := by
  intro c t a
  have hsent : (Orders.plan.build.toOption.bind fun r => (r.operation? "del").bind fun o =>
      (o.prepare a).toOption.map fun q =>
        (q.pathAndQuery, (c.call t r ⟨"del", a⟩).sent.map (·.target))) =
      some ("/users/me/orders/..", ["/users/me/"]) := by
    decide +kernel
  obtain ⟨r, o, q, hr, -, -, hq, hsent⟩ := Resource.exists_prepared hsent
  obtain ⟨hpath, htargets⟩ := Prod.mk.inj hsent
  obtain ⟨w, hw, htarget⟩ := List.map_eq_singleton_iff.mp htargets
  exact ⟨r, q, w, hr, hq, hpath, hw, htarget⟩

end RestClient.Catalog
