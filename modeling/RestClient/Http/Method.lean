namespace RestClient

inductive Method where
  | get
  | post
  | put
  | patch
  | delete
  deriving DecidableEq

namespace Method

def name : Method → String
  | .get => "get"
  | .post => "post"
  | .put => "put"
  | .patch => "patch"
  | .delete => "delete"

/-- The method as it stands in a request line. -/
def verb : Method → String
  | .get => "GET"
  | .post => "POST"
  | .put => "PUT"
  | .patch => "PATCH"
  | .delete => "DELETE"

def carriesBody : Method → Bool
  | .post | .put | .patch => true
  | .get | .delete => false

end Method

inductive BodyType where
  | form
  | json
  deriving DecidableEq, Inhabited

namespace BodyType

def name : BodyType → String
  | .form => "form"
  | .json => "json"

def contentType : BodyType → String
  | .form => "application/x-www-form-urlencoded"
  | .json => "application/json"

end BodyType
end RestClient
