import RestClient.Http.Connection
import RestClient.Login
import RestClient.Resource.Basic

namespace RestClient

inductive ApiError where
  | precondition (e : PreconditionError)
  | transport (e : SendError)
  | unexpectedResponse (operation reason : String)

namespace ApiError

/-- The status of the response, where one was the error. -/
def status? : ApiError → Option Nat
  | .transport (.rejected e) => some e.code
  | _ => none

end ApiError

def unexpectedMessage (operation reason : String) : String :=
  s!"Unexpected response from {operation}: {reason}"

namespace Connection

def login (c : Connection) (t : Transport) (login password : String) : Exchange ApiError Login :=
  match Login.checkLogin login password with
  | .error e => .silent (.error (.precondition e))
  | .ok () =>
    let body := [("login", .string login), ("password", .string password)]
    ((c.submit t .post Login.path [] body).mapError .transport).andThen fun r =>
      (Login.ofBody r.body).mapError (.unexpectedResponse "login")

def logout (c : Connection) (t : Transport) (code : String) : Exchange ApiError Json :=
  match Login.checkLogout code with
  | .error e => .silent (.error (.precondition e))
  | .ok () =>
    ((c.submit t .post Login.logoutPath [] [("access_code", .string code)]).mapError
      .transport).andThen fun r => .ok r.body

/-- Sends a prepared request for its body. -/
def fetch (c : Connection) (t : Transport) (prepared : Except PreconditionError Request) :
    Exchange ApiError Json :=
  match prepared with
  | .error e => .silent (.error (.precondition e))
  | .ok r => ((c.send t r).mapError .transport).andThen fun r => .ok r.body

def call (c : Connection) (t : Transport) (r : Resource) (call : Call) : Exchange ApiError Json :=
  c.fetch t (call.prepare r)

end Connection
end RestClient
