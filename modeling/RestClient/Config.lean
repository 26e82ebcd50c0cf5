import RestClient.Text.Basic

namespace RestClient

inductive ConfigError where
  | emptyBaseUrl
  | invalidBaseUrl (url : String)
  | emptyAccessToken
  | missingField (field : String)
  deriving DecidableEq

def ConfigError.message : ConfigError → String
  | .emptyBaseUrl => "Base URL cannot be empty. Please provide the Pact API base URL."
  | .invalidBaseUrl url =>
    s!"Invalid base URL '{url}'. Please provide a URL with scheme (e.g., 'https://api.pact.example/v1')."
  | .emptyAccessToken =>
    "Access token cannot be empty. Use `clear_access_token` to drop the credential."
  | .missingField field =>
    s!"Missing required field: '{field}'. This field must be set before building the configuration."

structure AccessToken where
  text : String
  text_ne : text ≠ ""
  deriving DecidableEq

namespace AccessToken

def ofText (s : String) : Except ConfigError AccessToken :=
  if h : s = "" then .error .emptyAccessToken else .ok ⟨s, h⟩

theorem ofText_eq_ok_iff {s : String} {token : AccessToken} :
    ofText s = .ok token ↔ token.text = s := by
  obtain ⟨text, hne⟩ := token
  rw [ofText]
  split
  case isTrue h => simpa [h] using hne
  case isFalse h => simp [eq_comm]

/-- What is shown in place of any token. -/
def redacted (_ : AccessToken) : String := "AccessToken(*****)"

end AccessToken

/-- A URL without query, fragment or trailing slash. -/
structure BaseUrl where
  scheme : String
  address : String
  deriving DecidableEq

namespace BaseUrl

def text (u : BaseUrl) : String := u.scheme ++ "://" ++ u.address

/-- The parts before and after the first `://`. -/
def splitScheme? : List Char → Option (List Char × List Char)
  | ':' :: '/' :: '/' :: cs => some ([], cs)
  | c :: cs => (splitScheme? cs).map fun (scheme, rest) => (c :: scheme, rest)
  | [] => none

def isScheme (cs : List Char) : Bool := !cs.isEmpty && cs.all Char.isAlpha

/-- The address begins with a host name and holds neither a query nor a fragment. -/
def isAddress (cs : List Char) : Bool :=
  match cs with
  | [] => false
  | c :: _ => c != ':' && c != '/' && cs.all fun c => c != '?' && c != '#'

def ofText (s : String) : Except ConfigError BaseUrl :=
  let url := Text.trim s
  if url.isEmpty then .error .emptyBaseUrl
  else match splitScheme? url.toList with
    | some (scheme, address) =>
      if isScheme scheme && isAddress address then
        .ok ⟨String.ofList scheme, Text.dropTrailingSlashes (String.ofList address)⟩
      else .error (.invalidBaseUrl url)
    | none => .error (.invalidBaseUrl url)

def join (u : BaseUrl) (path : String) : String := u.text ++ path

end BaseUrl

structure Config where
  baseUrl : BaseUrl
  token : Option AccessToken
  userAgentPrefix : Option String
  deriving DecidableEq

namespace Config

structure Draft where
  baseUrl : Option BaseUrl := none
  token : Option AccessToken := none
  userAgentPrefix : Option String := none

inductive Setting where
  | baseUrl (text : String)
  | token (text : String)
  | userAgentPrefix (text : String)

def Draft.set (d : Draft) : Setting → Except ConfigError Draft
  | .baseUrl text => do return { d with baseUrl := some (← BaseUrl.ofText text) }
  | .token text => do return { d with token := some (← AccessToken.ofText text) }
  | .userAgentPrefix text => .ok { d with userAgentPrefix := some text }

def Draft.build (d : Draft) : Except ConfigError Config :=
  match d.baseUrl with
  | some baseUrl => .ok ⟨baseUrl, d.token, d.userAgentPrefix⟩
  | none => .error (.missingField "base_url")

/-- The configuration that the settings make in order; the first refused one ends it. -/
def ofSettings (settings : List Setting) : Except ConfigError Config := do
  let draft ← settings.foldlM Draft.set {}
  draft.build

def userAgent (c : Config) : String :=
  let product := "Pact API Library v0.1.0 | Rust 1.75"
  match c.userAgentPrefix with
  | some text => text ++ " | " ++ product
  | none => product

end Config
end RestClient
