import RestClient.Proofs.Catalog.Invocations
import RestClient.Proofs.Path.Decoding
import RestClient.Proofs.Resource.OptionalArguments

namespace RestClient

open Encoding (encodeComponent)
open Entries (present)
open Operation (urlText?)

/-- A text that goes into a path of delimited values is determined by the request. -/
theorem Operation.eq_of_request_eq {o : Operation} (ho : o.template.Delimited) {a a' : Arguments}
    (h : o.request a = o.request a') {name text text' : String}
    (hmem : name ∈ o.template.placeholders) (ha : a.value? name = some (.string text))
    (ha' : a'.value? name = some (.string text')) : text = text' := by
  have hvalue := (Path.Template.filled_eq_iff ho).mp (congrArg Request.path h) name hmem
  rwa [getD_urlText?_of_string ha, getD_urlText?_of_string ha'] at hvalue

namespace Orders

/-- The operation that changes an item. -/
def itemOperation : Operation where
  name := "update_item"
  basePath := path
  descriptor := {
    method := .put
    path := some (Path.slot "id" ++ "/items/" ++ Path.slot "item_id")
    urlParams := ["id", "item_id"]
    payloadParams := some [productIdField, preparationField, coffeeTypeField] }
  template := ⟨[.literal "/users/me/orders/", .placeholder "id", .literal "/items/",
    .placeholder "item_id"]⟩

theorem declares_itemOperation : plan.Declares itemOperation := by decide +kernel

theorem bound_itemOperation : itemOperation.Bound :=
  Operation.bound_of_compile declares_itemOperation.2

namespace ItemUpdate

/-- The fields of the form, of which the product alone is always there. -/
def formSlots (u : ItemUpdate) : List (String × Option String) := [
  ("item[product_attributes][id]", some u.productId),
  ("item[product_attributes][options][preparation]", u.preparation),
  ("item[product_attributes][options][coffee_type_id]", u.coffeeTypeId)]

def slots (u : ItemUpdate) : List (String × Option String) :=
  ("id", some u.orderId) :: ("item_id", some u.itemId) :: u.formSlots

/-- The request for the change. -/
def request (u : ItemUpdate) : Request where
  method := .put
  path := "/users/me/orders/" ++ encodeComponent u.orderId ++ "/items/" ++ encodeComponent u.itemId
  body := some (present (textSlots u.formSlots))
  bodyType := some .form

variable {u u' : ItemUpdate}

theorem call_updateItem (u : ItemUpdate) :
    (Invocation.updateItem u).call = .ok ⟨itemOperation.name, textArguments u.slots⟩ := by
  rcases u with ⟨_, _, _, _ | _, _ | _⟩ <;> rfl

theorem nodup_slots (u : ItemUpdate) : (u.slots.map Prod.fst).Nodup := by
  have hnames : u.slots.map Prod.fst =
      ["id", "item_id", productIdField, preparationField, coffeeTypeField] := rfl
  rw [hnames]
  decide

theorem value?_orderId (u : ItemUpdate) :
    (textArguments u.slots).value? "id" = some (.string u.orderId) := by
  have hslot : ("id", some u.orderId) ∈ u.slots := by simp [slots]
  exact value?_textArguments u.nodup_slots hslot

theorem value?_itemId (u : ItemUpdate) :
    (textArguments u.slots).value? "item_id" = some (.string u.itemId) := by
  have hslot : ("item_id", some u.itemId) ∈ u.slots := by simp [slots]
  exact value?_textArguments u.nodup_slots hslot

theorem request_itemOperation (u : ItemUpdate) :
    itemOperation.request (textArguments u.slots) = u.request := by
  have hform : u.formSlots ⊆ u.slots := fun slot hslot =>
    List.mem_cons_of_mem _ (List.mem_cons_of_mem _ hslot)
  have hpath : itemOperation.template.filled
      (fun name => (urlText? (textArguments u.slots) name).getD "") = u.request.path := by
    simp [itemOperation, request, Operation.getD_urlText?_of_string u.value?_orderId,
      Operation.getD_urlText?_of_string u.value?_itemId, String.append_assoc]
  have hquery : [] ⊆ u.slots := List.nil_subset _
  rw [Operation.request_textArguments u.nodup_slots hquery hform rfl rfl rfl, hpath]
  rfl

theorem prepare_of_orderId_empty (h : u.orderId = "") :
    itemOperation.prepare (textArguments u.slots) =
      .error (.missingArgument "update_item" "id") := by
  have hparams : itemOperation.descriptor.urlParams = [] ++ "id" :: ["item_id"] := rfl
  exact Operation.prepare_of_lacking hparams (by simp)
    ((Operation.lacks_iff_of_string u.value?_orderId).mpr h)

theorem prepare_of_itemId_empty (hne : u.orderId ≠ "") (h : u.itemId = "") :
    itemOperation.prepare (textArguments u.slots) =
      .error (.missingArgument "update_item" "item_id") := by
  have hparams : itemOperation.descriptor.urlParams = ["id"] ++ "item_id" :: [] := rfl
  have hbefore : ∀ name ∈ ["id"], ¬ (textArguments u.slots).Lacks name := by
    simpa [Operation.lacks_iff_of_string u.value?_orderId] using hne
  exact Operation.prepare_of_lacking hparams hbefore
    ((Operation.lacks_iff_of_string u.value?_itemId).mpr h)

theorem prepare_of_ids (hid : u.orderId ≠ "") (hitem : u.itemId ≠ "") :
    itemOperation.prepare (textArguments u.slots) = .ok u.request := by
  have hgiven : ∀ name ∈ itemOperation.descriptor.urlParams,
      ¬ (textArguments u.slots).Lacks name := by
    simp only [itemOperation, List.forall_mem_cons, Operation.lacks_iff_of_string u.value?_orderId,
      Operation.lacks_iff_of_string u.value?_itemId]
    exact ⟨hid, hitem, by simp⟩
  rw [Operation.prepare_of_given bound_itemOperation hgiven, request_itemOperation]

theorem formFields_request (u : ItemUpdate) : u.request.formFields = present u.formSlots :=
  Request.formFields_of_body rfl

theorem request_eq_iff : u.request = u'.request ↔ u = u' := by
  refine ⟨fun h => ?_, congrArg request⟩
  have hdelimited : itemOperation.template.Delimited := by decide +kernel
  have hrequest := h
  rw [← request_itemOperation, ← request_itemOperation] at hrequest
  have horderId : u.orderId = u'.orderId :=
    Operation.eq_of_request_eq hdelimited hrequest (by decide) u.value?_orderId u'.value?_orderId
  have hitemId : u.itemId = u'.itemId :=
    Operation.eq_of_request_eq hdelimited hrequest (by decide) u.value?_itemId u'.value?_itemId
  have hform : present u.formSlots = present u'.formSlots := by
    rw [← formFields_request, h, formFields_request]
  have hnodup : [productIdField, preparationField, coffeeTypeField].Nodup := by decide
  have hproduct : some u.productId = some u'.productId :=
    Entries.eq_of_present_eq productIdField hform hnodup hnodup
      (by simp [formSlots, productIdField]) (by simp [formSlots, productIdField])
  have hpreparation : u.preparation = u'.preparation :=
    Entries.eq_of_present_eq preparationField hform hnodup hnodup
      (by simp [formSlots, preparationField]) (by simp [formSlots, preparationField])
  have hcoffeeType : u.coffeeTypeId = u'.coffeeTypeId :=
    Entries.eq_of_present_eq coffeeTypeField hform hnodup hnodup
      (by simp [formSlots, coffeeTypeField]) (by simp [formSlots, coffeeTypeField])
  cases u
  cases u'
  simp_all

end ItemUpdate

end Orders

namespace Users

/-- The operation that applies a voucher. -/
def voucherOperation : Operation where
  name := "applyVoucher"
  basePath := path
  descriptor := { onUser .post "/vouchers" with
    queryParams := ["source"], payloadParams := some ["code"] }
  template := ⟨[.literal "/users/", .placeholder "user_id", .literal "/vouchers"]⟩

theorem declares_voucherOperation : plan.Declares voucherOperation := by decide +kernel

theorem bound_voucherOperation : voucherOperation.Bound :=
  Operation.bound_of_compile declares_voucherOperation.2

/-- A voucher of a user, and where it comes from. -/
structure Voucher where
  userId : String
  code : String
  source : Option String
  deriving DecidableEq

namespace Voucher

def slots (v : Voucher) : List (String × Option String) :=
  [("user_id", some v.userId), ("code", some v.code), ("source", v.source)]

/-- The helper that applies the voucher. -/
def invocation (v : Voucher) : Invocation := .applyVoucher v.userId v.code v.source

/-- The request that applies the voucher. -/
def request (v : Voucher) : Request where
  method := .post
  path := "/users/" ++ encodeComponent v.userId ++ "/vouchers"
  query := present [("source", v.source)]
  body := some [("code", .string v.code)]
  bodyType := some .form

variable {v v' : Voucher}

theorem call_invocation (v : Voucher) :
    v.invocation.call = .ok ⟨voucherOperation.name, textArguments v.slots⟩ := by
  rcases v with ⟨_, _, _ | _⟩ <;> rfl

theorem nodup_slots (v : Voucher) : (v.slots.map Prod.fst).Nodup := by
  have hnames : v.slots.map Prod.fst = ["user_id", "code", "source"] := rfl
  rw [hnames]
  decide

theorem value?_userId (v : Voucher) :
    (textArguments v.slots).value? "user_id" = some (.string v.userId) := by
  have hslot : ("user_id", some v.userId) ∈ v.slots := by simp [slots]
  exact value?_textArguments v.nodup_slots hslot

theorem request_voucherOperation (v : Voucher) :
    voucherOperation.request (textArguments v.slots) = v.request := by
  have hpath : voucherOperation.template.filled
      (fun name => (urlText? (textArguments v.slots) name).getD "") = v.request.path := by
    simp [voucherOperation, request, Operation.getD_urlText?_of_string v.value?_userId,
      String.append_assoc]
  have hquery : [("source", v.source)] ⊆ v.slots := by simp [slots]
  have hbody : [("code", some v.code)] ⊆ v.slots := by simp [slots]
  rw [Operation.request_textArguments v.nodup_slots hquery hbody rfl rfl rfl, hpath]
  rfl

theorem lacks_userId_iff : (textArguments v.slots).Lacks "user_id" ↔ v.userId = "" :=
  Operation.lacks_iff_of_string v.value?_userId

theorem prepare_of_userId_empty (h : v.userId = "") :
    voucherOperation.prepare (textArguments v.slots) =
      .error (.missingArgument "applyVoucher" "user_id") := by
  have hparams : voucherOperation.descriptor.urlParams = [] ++ "user_id" :: [] := rfl
  exact Operation.prepare_of_lacking hparams (by simp) (lacks_userId_iff.mpr h)

theorem prepare_of_userId (h : v.userId ≠ "") :
    voucherOperation.prepare (textArguments v.slots) = .ok v.request := by
  have hgiven : ∀ name ∈ voucherOperation.descriptor.urlParams,
      ¬ (textArguments v.slots).Lacks name := by
    have hparams : voucherOperation.descriptor.urlParams = ["user_id"] := rfl
    simpa [hparams, lacks_userId_iff] using h
  rw [Operation.prepare_of_given bound_voucherOperation hgiven, request_voucherOperation]

theorem request_eq_iff : v.request = v'.request ↔ v = v' := by
  refine ⟨fun h => ?_, congrArg request⟩
  have hdelimited : voucherOperation.template.Delimited := by decide +kernel
  have hrequest := h
  rw [← request_voucherOperation, ← request_voucherOperation] at hrequest
  have huserId : v.userId = v'.userId :=
    Operation.eq_of_request_eq hdelimited hrequest (by decide) v.value?_userId v'.value?_userId
  have hcode : v.code = v'.code := by simpa [request] using congrArg Request.body h
  have hquery : present [("source", v.source)] = present [("source", v'.source)] :=
    congrArg Request.query h
  have hsource : v.source = v'.source :=
    Entries.eq_of_present_eq "source" hquery (by simp) (by simp) (by simp) (by simp)
  cases v
  cases v'
  simp_all

end Voucher

end Users

namespace Invocation

variable {r : Resource}

theorem prepare_updateItem (hr : Orders.plan.build = .ok r) (u : Orders.ItemUpdate) :
    (updateItem u).prepare r = Orders.itemOperation.prepare (textArguments u.slots) :=
  prepare_of_call hr Orders.declares_itemOperation u.call_updateItem

theorem prepare_applyVoucher (hr : Users.plan.build = .ok r) (v : Users.Voucher) :
    v.invocation.prepare r = Users.voucherOperation.prepare (textArguments v.slots) :=
  prepare_of_call hr Users.declares_voucherOperation v.call_invocation

/-- A change to an item is refused for the first of its ids that is empty, and a voucher for an
empty user id; otherwise the request carries all that the helper was given, so that other things
given make another request. -/
theorem helper_injective :
    ∃ orders users, Orders.plan.build = .ok orders ∧ Users.plan.build = .ok users ∧
      (∀ u : Orders.ItemUpdate,
        (u.orderId = "" →
          (updateItem u).Refused orders (.missingArgument "update_item" "id")) ∧
        (u.orderId ≠ "" → u.itemId = "" →
          (updateItem u).Refused orders (.missingArgument "update_item" "item_id")) ∧
        (u.orderId ≠ "" → u.itemId ≠ "" → ∃ q, (updateItem u).prepare orders = .ok q ∧
          q.method = .put ∧ q.query = [] ∧ q.bodyType = some .form ∧
          q.formFields = present u.formSlots ∧
          ∀ u' : Orders.ItemUpdate, u'.orderId ≠ "" → u'.itemId ≠ "" →
            ((updateItem u').prepare orders = .ok q ↔ u' = u))) ∧
      ∀ v : Users.Voucher,
        (v.userId = "" ↔
          v.invocation.Refused users (.missingArgument "applyVoucher" "user_id")) ∧
        (v.userId ≠ "" → ∃ q, v.invocation.prepare users = .ok q ∧
          q.method = .post ∧ q.query = present [("source", v.source)] ∧
          q.bodyType = some .form ∧ q.body = some [("code", .string v.code)] ∧
          ∀ v' : Users.Voucher, v'.userId ≠ "" →
            (v'.invocation.prepare users = .ok q ↔ v' = v)) := by
  obtain ⟨orders, horders⟩ := Catalog.exists_build (p := Orders.plan) (by simp [Catalog.plans])
  obtain ⟨users, husers⟩ := Catalog.exists_build (p := Users.plan) (by simp [Catalog.plans])
  refine ⟨orders, users, horders, husers,
    fun u => ⟨fun h => ?_, fun hid h => ?_, fun hid hitem => ?_⟩,
    fun v => ⟨⟨fun h => ?_, fun h => ?_⟩, fun hid => ?_⟩⟩
  · exact refused_of_prepare
      ((prepare_updateItem horders u).trans (Orders.ItemUpdate.prepare_of_orderId_empty h))
  · exact refused_of_prepare
      ((prepare_updateItem horders u).trans (Orders.ItemUpdate.prepare_of_itemId_empty hid h))
  · refine ⟨u.request, ?_, rfl, rfl, rfl, u.formFields_request, fun u' hid' hitem' => ?_⟩
    · rw [prepare_updateItem horders, Orders.ItemUpdate.prepare_of_ids hid hitem]
    · rw [prepare_updateItem horders, Orders.ItemUpdate.prepare_of_ids hid' hitem', Except.ok.injEq,
        Orders.ItemUpdate.request_eq_iff]
  · exact refused_of_prepare
      ((prepare_applyVoucher husers v).trans (Users.Voucher.prepare_of_userId_empty h))
  · by_contra hid
    have hprepare := h.prepare
    rw [prepare_applyVoucher husers, Users.Voucher.prepare_of_userId hid] at hprepare
    cases hprepare
  · refine ⟨v.request, ?_, rfl, rfl, rfl, rfl, fun v' hid' => ?_⟩
    · rw [prepare_applyVoucher husers, Users.Voucher.prepare_of_userId hid]
    · rw [prepare_applyVoucher husers, Users.Voucher.prepare_of_userId hid', Except.ok.injEq,
        Users.Voucher.request_eq_iff]

/-- Ids that look like the rest of a path, a value that looks like another field, and options that
are set but empty. -/
theorem hostile_helper_injective :
    let u : Orders.ItemUpdate := ⟨"a/items/b", "%2F", "1&item[id]=2", some "", none⟩
    let u' : Orders.ItemUpdate := ⟨"a", "b/items/%2F", "1&item[id]=2", some "", none⟩
    let v : Users.Voucher := ⟨"me/vouchers?", "a&b", some ""⟩
    let v' : Users.Voucher := ⟨"me/vouchers?", "a&b", none⟩
    ∃ orders users q q', Orders.plan.build = .ok orders ∧ Users.plan.build = .ok users ∧
      (updateItem u).prepare orders = .ok q ∧
      q.formFields = [("item[product_attributes][id]", "1&item[id]=2"),
        ("item[product_attributes][options][preparation]", "")] ∧
      (updateItem u').prepare orders ≠ .ok q ∧
      v.invocation.prepare users = .ok q' ∧ q'.query = [("source", "")] ∧
      v'.invocation.prepare users ≠ .ok q' := by
  intro u u' v v'
  obtain ⟨orders, users, horders, husers, hitems, hvouchers⟩ := helper_injective
  obtain ⟨q, hq, -, -, -, hform, hu⟩ := (hitems u).2.2 (by decide) (by decide)
  obtain ⟨q', hq', -, hquery, -, -, hv⟩ := (hvouchers v).2 (by decide)
  refine ⟨orders, users, q, q', horders, husers, hq, hform.trans (by decide), ?_, hq',
    hquery.trans (by decide), ?_⟩
  · exact mt (hu u' (by decide) (by decide)).mp (by decide)
  · exact mt (hv v' (by decide)).mp (by decide)

end Invocation
end RestClient
