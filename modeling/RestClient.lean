import RestClient.Session
import RestClient.Proofs.Catalog.Targets
import RestClient.Proofs.Resource.Endpoints
import RestClient.Proofs.Resource.Routing
import RestClient.Proofs.Session.Dispatch
import RestClient.Proofs.Encoding.Reading
import RestClient.Proofs.Resource.Dependence
import RestClient.Proofs.Resource.Forms
import RestClient.Proofs.Http.Redaction
import RestClient.Proofs.Session.Secrecy
import RestClient.Proofs.Session.Credentials
import RestClient.Proofs.Http.Query
import RestClient.Proofs.Resource.BodyTypes
import RestClient.Proofs.Json.Parts
import RestClient.Proofs.Json.Scalars
import RestClient.Proofs.Json.Values
import RestClient.Proofs.Json.Parsed
import RestClient.Proofs.Http.Body
import RestClient.Proofs.Http.Headers
import RestClient.Proofs.Http.Reply
import RestClient.Proofs.Session.Replies
import RestClient.Proofs.Resource.Flaws
import RestClient.Proofs.Text.Bytes
import RestClient.Proofs.Resource.Registry
import RestClient.Proofs.Resource.StepwisePlans
import RestClient.Proofs.Path.Joining
import RestClient.Proofs.Resource.Mounting
import RestClient.Proofs.Entries.Order
import RestClient.Proofs.Resource.OrderedArguments
import RestClient.Proofs.Login
import RestClient.Proofs.Config.Grammar
import RestClient.Proofs.Session.Revalidation
import RestClient.Proofs.Catalog.Listing
import RestClient.Proofs.Catalog.DispatchDates
import RestClient.Proofs.Catalog.Helpers
import RestClient.Proofs.Path.Slashes
import RestClient.Proofs.Path.StrayBraces
import RestClient.Proofs.Http.HeaderLookup
import RestClient.Proofs.Http.Drafting
