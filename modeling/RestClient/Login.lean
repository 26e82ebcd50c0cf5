import RestClient.Http.Response
import RestClient.Resource.Arguments

namespace RestClient

/-- What a login answers: the id of the user and all other fields. -/
structure Login where
  userId : String
  extra : Entries Json

namespace Login

def path : String := "/tokens/"

def logoutPath : String := "/tokens/me"

/-- The login of an object. A user id that is no text is kept as its JSON text, and a missing one
is empty. -/
def ofFields (fields : Entries Json) : Login where
  userId := match fields.lookup "user_id" with
    | some (.string s) => s
    | some v => v.text
    | none => ""
  extra := Entries.swapRemove fields "user_id"

/-- The login of a body, or the reason why there is none. -/
def ofBody : Json → Except String Login
  | .object fields => .ok (ofFields fields)
  | v => .error s!"expected a JSON object, got {v.text}"

def get? (l : Login) (key : String) : Option Json := l.extra.lookup key

def token? (l : Login) : Option String :=
  ["access_token", "token"].findSome? fun key => (l.get? key).bind Json.string?

/-- All fields as one object; the user id stands last unless it has a place already. -/
def toJson (l : Login) : Json := .object (Entries.insert l.extra "user_id" (.string l.userId))

/-- All fields as one text, the user id first. -/
def text (l : Login) : String := (Json.object (("user_id", .string l.userId) :: l.extra)).text

def checkLogin (login password : String) : Except PreconditionError Unit :=
  if login.isEmpty || password.isEmpty then
    let shown := if password.isEmpty then "" else "*****"
    .error (.invalidArgument "login"
      s!"You must supply a valid login and password. You passed \"{login}\" and \"{shown}\".")
  else .ok ()

def checkLogout (code : String) : Except PreconditionError Unit :=
  if code.isEmpty then
    .error (.invalidArgument "logout"
      s!"You must supply a valid access code. You passed \"{code}\".")
  else .ok ()

end Login
end RestClient
