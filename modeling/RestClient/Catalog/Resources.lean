import RestClient.Catalog.ListParams
import RestClient.Catalog.Date

namespace RestClient.Users

def path : String := "/users"

/-- An operation below one user. -/
def onUser (method : Method) (rest : String) : Descriptor :=
  { method, path := some (Path.slot "user_id" ++ rest), urlParams := ["user_id"] }

def plan : Resource.Plan where
  basePath := path
  basics := [.list, .retrieve, .create]
  methods := [
    ("changePassword", onUser .patch "/password"),
    ("update", onUser .patch ""),
    ("updateEmail", onUser .patch "/email"),
    ("updateCard", onUser .patch "/card"),
    ("resetDeclinedCard", onUser .patch "/card/reset"),
    ("applyVoucher", { onUser .post "/vouchers" with
      queryParams := ["source"], payloadParams := some ["code"] }),
    ("cancel", onUser .patch "/cancel"),
    ("reactivate", { method := .post, path := some "me/return" }),
    ("contact", { method := .post, path := some "me/contact" }),
    ("listUniqueCoffees",
      { method := .get, path := some "me/coffees", queryParams := listQueryParams }),
    ("rateCoffee", { method := .post, path := some "me/coffee-ratings" }),
    ("deleteCoffeeRating",
      { method := .delete
        path := some ("me/coffee-ratings/" ++ Path.slot "sku"), urlParams := ["sku"] }),
    ("emailInvites", onUser .post "/invite"),
    ("start", { method := .get, path := some "me/start" })]

def resource : Except ResourceError Resource := plan.build

def listUniqueCoffees (p : ListParams) : Call := ⟨"listUniqueCoffees", p.arguments⟩

def applyVoucher (userId code : String) (source : Option String) : Call :=
  .of "applyVoucher"
    ([("user_id", .string userId), ("code", .string code)] ++ Call.optional "source" source)

end RestClient.Users

namespace RestClient.Products

def path : String := "/products"

def plan : Resource.Plan where
  basePath := path
  basics := [.list, .retrieve]

def resource : Except ResourceError Resource := plan.build

end RestClient.Products

namespace RestClient.Orders

def path : String := "/users/me/orders"

def dispatchDateField : String := "order[dispatch_date]"

def productIdField : String := "item[product_attributes][id]"

def preparationField : String := "item[product_attributes][options][preparation]"

def coffeeTypeField : String := "item[product_attributes][options][coffee_type_id]"

def plan : Resource.Plan where
  basePath := path
  basics := [.retrieve, .create, .update, .del]
  methods := [
    ("list", { method := .get, queryParams := listQueryParams }),
    ("skip", { method := .patch, path := some (Path.slot "id" ++ "/skip"), urlParams := ["id"] }),
    ("house_coffee", { method := .post, path := some "/house_coffee" }),
    ("update_item", {
      method := .put
      path := some (Path.slot "id" ++ "/items/" ++ Path.slot "item_id")
      urlParams := ["id", "item_id"]
      payloadParams := some [productIdField, preparationField, coffeeTypeField] })]

def resource : Except ResourceError Resource := plan.build

def skip (id : String) : Call := .of "skip" [("id", .string id)]

structure ItemUpdate where
  orderId : String
  itemId : String
  productId : String
  preparation : Option String := none
  coffeeTypeId : Option String := none
  deriving DecidableEq

def updateItem (u : ItemUpdate) : Call :=
  .of "update_item"
    ([("id", .string u.orderId), ("item_id", .string u.itemId),
      (productIdField, .string u.productId)] ++
      Call.optional preparationField u.preparation ++
      Call.optional coffeeTypeField u.coffeeTypeId)

def refusedDate (message : String) : PreconditionError :=
  .invalidArgument "update_dispatch_date" message

/-- A dispatch date is a real date, written with two dashes. -/
def checkDispatchDate (id date : String) : Except PreconditionError Unit :=
  if id.isEmpty || date.isEmpty then
    .error (refusedDate s!"You must supply valid arguments. You passed \"{id}\" and \"{date}\".")
  else if date.toList.count '-' = 2 ∧ (Date.parse? date).isSome then .ok ()
  else
    .error (refusedDate
      s!"You must supply a date with the signature YYYY-MM-DD. You passed \"{date}\".")

def updateDispatchDate (id date : String) : Except PreconditionError Call := do
  checkDispatchDate id date
  return .of BasicMethod.update.name [("id", .string id), (dispatchDateField, .string date)]

end RestClient.Orders
