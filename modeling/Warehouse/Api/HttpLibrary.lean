/-
# Warehouse.Api.HttpLibrary — cpp-httplib, as the HTTP layer uses it

cpp-httplib is not part of the repository, so it is a parameter: what `set_content` makes of a
response, which requests are turned away, which route is one for a request, and what is done for a
request altogether.  What the HTTP layer relies on is `HttpLibrary.Documented`.  Of a request for a
part of some content, for compressed content or for none, as a `HEAD`, the library makes a response
of its own; there only the calls of the handlers are relied on.
-/
import Warehouse.Api.CrossOrigin
import Warehouse.Application.WarehouseService

namespace Warehouse.Api

open Warehouse.Interaction

/-! ## Requests and responses -/

/-- What the server reads of an `httplib::Request`. -/
structure ServerRequest extends HttpRequest where
  method : Bytes
  path : Bytes
  headers : List (Bytes × Bytes) := []
  body : Bytes := []
  /-- `has_param` and `get_param_value` -/
  param : Bytes → Option Bytes := fun _ => none
  /-- `is_multipart_form_data()` -/
  isMultipartFormData : Bool := false
  /-- The names and the contents of the parts. -/
  files : List (Bytes × Bytes) := []

/-- An `httplib::Response`; the library replaces a status that nobody has set. -/
structure ServerResponse extends HttpResponse where
  status : ℤ := -1
  body : Bytes := []

/-- Code that calls the `LegacyWarehouseApi`. -/
abbrev ApiProgram : Type → Type := Program Request fun request => Outcome request.View

/-! ## What a server registers -/

/-- A route, by its method and its pattern. -/
structure Route where
  method : Bytes
  pattern : Bytes
  handler : ServerRequest → ServerResponse → ApiProgram ServerResponse

/-- The handlers of a server, and its routes in the order of their registration. -/
structure HttpSetup where
  /-- A response, if the handler returns `Handled`. -/
  preRouting : ServerRequest → ServerResponse → Option ServerResponse
  postRouting : ServerRequest → ServerResponse → ServerResponse
  errorHandler : ServerRequest → ServerResponse → ServerResponse
  routes : List Route

/-- What the server uses of cpp-httplib. -/
structure HttpLibrary where
  /-- `Response::set_content` -/
  setContent : ServerResponse → Bytes → Bytes → ServerResponse
  /-- The status of a request that no handler of a route gets to see: one that cannot be read, or
  whose content is too long. -/
  turnsAway : ServerRequest → Option ℤ
  /-- The request as it is when the pre-routing handler is called. -/
  early : ServerRequest → ServerRequest
  /-- The route is one for the request. -/
  fits : Route → ServerRequest → Bool
  /-- What a server with these handlers does for a request. -/
  handle : HttpSetup → ServerRequest → ApiProgram ServerResponse

/-! ## What the server relies on -/

/-- The content is asked for as it is, and all of it. -/
def ServerRequest.IsPlain (request : ServerRequest) : Prop :=
  request.method ≠ lit "HEAD" ∧ ∀ header ∈ request.headers,
    lowercaseAscii header.1 ≠ lit "range" ∧ lowercaseAscii header.1 ≠ lit "accept-encoding"

instance (request : ServerRequest) : Decidable request.IsPlain :=
  inferInstanceAs (Decidable (_ ∧ _))

/-- The request up to its content. -/
structure ServerRequest.SameHead (seen request : ServerRequest) : Prop where
  getHeaderValue : seen.getHeaderValue = request.getHeaderValue
  method : seen.method = request.method
  path : seen.path = request.path
  headers : seen.headers = request.headers
  isMultipartFormData : seen.isMultipartFormData = request.isMultipartFormData

/-- The names of the headers by which an origin is allowed. -/
def corsNames : List Bytes :=
  [lit "Access-Control-Allow-Origin", lit "Vary", lit "Access-Control-Allow-Headers",
    lit "Access-Control-Allow-Methods"]

/-- The headers with these names, in their order. -/
def ServerResponse.named (response : ServerResponse) (names : List Bytes) : List (Bytes × Bytes) :=
  response.headers.filter fun header => names.contains header.1

/-- How a response goes out: the error handler sees it if it is an error, the library adds headers
of its own, a content type only where there is none, and the post-routing handler comes last. -/
inductive Completes (setup : HttpSetup) (request : ServerRequest) (written sent : ServerResponse) :
    Prop
  | intro {seen : ServerRequest} {prepared : ServerResponse} {own : List (Bytes × Bytes)} :
      seen.SameHead request →
      prepared = (if 400 ≤ written.status then setup.errorHandler seen written else written) →
      (∀ header ∈ own, header.1 ∉ corsNames) →
      ((∃ header ∈ own, header.1 = lit "Content-Type") → prepared.named [lit "Content-Type"] = []) →
      sent = setup.postRouting seen { prepared with headers := prepared.headers ++ own } →
      Completes setup request written sent

/-- A pattern that is no more than a path. -/
def isLiteral (pattern : Bytes) : Bool :=
  pattern.all fun c => !(lit "^$\\.*+?()[]\x7b\x7d|:").contains c

/-- A `HEAD` is served by the routes of `GET`. -/
def Route.ServesMethod (route : Route) (request : ServerRequest) : Prop :=
  route.method = request.method ∨ route.method = lit "GET" ∧ request.method = lit "HEAD"

/-- The four ways of a request. -/
inductive HttpLibrary.Serves (library : HttpLibrary) (setup : HttpSetup) (request : ServerRequest) :
    ApiProgram ServerResponse → Prop
  | turnedAway {status : ℤ} {sent : ServerResponse} :
      library.turnsAway request = some status → 400 ≤ status →
      (request.IsPlain → Completes setup request { status } sent) →
      Serves library setup request (.ret sent)
  | handled {written sent : ServerResponse} :
      setup.preRouting (library.early request) {} = some written →
      (request.IsPlain → Completes setup request written sent) →
      Serves library setup request (.ret sent)
  | routed {route : Route} {send : ServerResponse → ServerResponse} :
      library.turnsAway request = none → setup.preRouting (library.early request) {} = none →
      setup.routes.find? (fun route => library.fits route request) = some route →
      (request.IsPlain → ∀ written, Completes setup request
        (if written.status = -1 then { written with status := 200 } else written) (send written)) →
      Serves library setup request (route.handler request {} >>= fun written => .ret (send written))
  | unrouted {status : ℤ} {sent : ServerResponse} :
      setup.routes.find? (fun route => library.fits route request) = none → 400 ≤ status →
      (request.IsPlain → Completes setup request { status } sent) →
      Serves library setup request (.ret sent)

/-- What the documentation of cpp-httplib says of these. -/
structure HttpLibrary.Documented (library : HttpLibrary) : Prop where
  /-- `set_content` replaces the content and its type. -/
  setContent : ∀ response content mime,
    (library.setContent response content mime).status = response.status ∧
      (library.setContent response content mime).body = content ∧
      (library.setContent response content mime).headers.filter (·.1 == lit "Content-Type") =
        [(lit "Content-Type", mime)] ∧
      (library.setContent response content mime).headers.filter (·.1 != lit "Content-Type") =
        response.headers.filter (·.1 != lit "Content-Type")
  early : ∀ request, (library.early request).SameHead request
  /-- A route is one for requests with its method. -/
  method : ∀ route request, library.fits route request = true → route.ServesMethod request
  /-- A path is matched by itself, and by nothing else. -/
  literal : ∀ route request, isLiteral route.pattern = true →
    (library.fits route request = true ↔ route.ServesMethod request ∧ request.path = route.pattern)
  handle : ∀ setup request, library.Serves setup request (library.handle setup request)

end Warehouse.Api
