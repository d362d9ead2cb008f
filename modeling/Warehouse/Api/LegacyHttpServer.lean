/-
# Warehouse.Api.LegacyHttpServer — the handlers of the HTTP layer

`legacy_http_server.cpp`, function by function.  A route reads a request, makes at most one call of
the `LegacyWarehouseApi`, and writes a response; functions that return `false` after they have
written an error are functions into `Except`, with the response as the error.

cpp-httplib and nlohmann/json are not part of the repository, and are parameters: what the one does
with the handlers is `HttpLibrary`, and of the other it is used what `parse` and `dump` return.
-/
import Warehouse.Api.GoodsNumber
import Warehouse.Api.HttpLibrary
import Warehouse.Api.ReferenceServer
import Warehouse.Api.StaticFiles

namespace Warehouse.Api

open Warehouse.Interaction Warehouse.Files

/-! ## JSON -/

/-- `nlohmann::json` -/
inductive Json
  | null
  | boolean (value : Bool)
  | number (text : Bytes)
  | string (value : Bytes)
  | array (items : List Json)
  | object (members : List (Bytes × Json))

/-- `json::find`, in an object. -/
def Json.find (body : Json) (key : Bytes) : Option Json :=
  match body with
  | .object members => members.lookup key
  | _ => none

/-- `json::is_object` -/
def Json.isObject : Json → Bool
  | .object _ => true
  | _ => false

/-- What the server uses of nlohmann/json. -/
structure JsonLibrary where
  /-- `json::parse`; `none` where it throws a `json::exception`. -/
  parse : Bytes → Option Json
  /-- `json::dump(-1, ' ', false, error_handler_t::replace)` -/
  dump : Json → Bytes

/-- The libraries of the server. -/
structure Libraries where
  json : JsonLibrary
  http : HttpLibrary

/-! ## The server -/

/-- `HttpServerOptions`, all of it. -/
structure ServerOptions extends HttpServerOptions where
  publicDirectory : Path := lit "public"
  maxQueuedRequests : ℕ := 16
  maxHeaderBytes : ℕ := 16 * 1024
  maxJsonBodyBytes : ℕ := 1024 * 1024
  maxPayloadBytes : ℕ := 21 * 1024 * 1024
  maxAttachmentBytes : ℕ := 20 * 1024 * 1024
  readTimeoutSeconds : ℤ := 15
  writeTimeoutSeconds : ℤ := 15
  idleIntervalSeconds : ℤ := 1

/-- The options as the constructor of `LegacyHttpServer::Impl` leaves them. -/
def ServerOptions.bounded (options : ServerOptions) : ServerOptions :=
  let maxJsonBodyBytes := max 1 options.maxJsonBodyBytes
  let maxPayloadBytes := max maxJsonBodyBytes options.maxPayloadBytes
  { options with
    workerThreads := max 1 options.workerThreads
    maxQueuedRequests := max 1 options.maxQueuedRequests
    maxHeaderBytes := max 1 options.maxHeaderBytes
    maxJsonBodyBytes
    maxPayloadBytes
    maxAttachmentBytes := min options.maxAttachmentBytes maxPayloadBytes }

/-- A server: its options, already bounded, and what it calls. -/
structure LegacyHttpServer where
  options : ServerOptions
  libraries : Libraries
  static : StaticFiles

/-! ## Writing responses -/

/-- `setJson` -/
def setJson (libraries : Libraries) (response : ServerResponse) (status : ℤ) (value : Json) :
    ServerResponse :=
  libraries.http.setContent { response with status } (libraries.json.dump value)
    (lit "application/json; charset=utf-8")

/-- `setError` -/
def setError (libraries : Libraries) (response : ServerResponse) (status : ℤ) (message : Bytes) :
    ServerResponse :=
  setJson libraries response status (.object [(lit "error", .string message)])

/-- `goodsJson` -/
def goodsJson (goods : GoodsView) : Json :=
  .object [(lit "id", .string (formattedGoodsId goods.numericId)), (lit "name", .string goods.name),
    (lit "location", .string goods.location), (lit "status", .string goods.status),
    (lit "storedAt", .string goods.storedAt), (lit "takenAt", .string goods.takenAt),
    (lit "operator", .string goods.operatorName)]

/-- `setApplicationError` -/
def setApplicationError (libraries : Libraries) (response : ServerResponse)
    (code : LegacyApplicationErrorCode) (operation : Operation) : ServerResponse :=
  let (status, message) := applicationError code operation
  setError libraries response status message

/-! ## Reading requests -/

/-- `parseObject` -/
def parseObject (libraries : Libraries) (request : ServerRequest) (response : ServerResponse)
    (maxBytes : ℕ) : Except ServerResponse Json :=
  if request.body.length > maxBytes then .error (setError libraries response 413 (lit "请求体过大"))
  else match libraries.json.parse request.body with
    | none => .error (setError libraries response 400 (lit "请求格式错误"))
    | some body =>
        if !body.isObject then .error (setError libraries response 400 (lit "请求格式错误")) else .ok body

/-- `requiredString` -/
def requiredString (libraries : Libraries) (body : Json) (key : Bytes) (response : ServerResponse) :
    Except ServerResponse Bytes :=
  match body.find key with
  | some (.string value) => .ok value
  | _ => .error (setError libraries response 400 (lit "请求格式错误"))

/-- `optionalString` -/
def optionalString (libraries : Libraries) (body : Json) (key : Bytes) (response : ServerResponse) :
    Except ServerResponse Bytes :=
  match body.find key with
  | none => .ok []
  | some (.string value) => .ok value
  | some _ => .error (setError libraries response 400 (lit "请求格式错误"))

/-- What a token follows. -/
def bearerPrefix : Bytes := lit "Bearer "

/-- `bearerToken` -/
def bearerToken (libraries : Libraries) (request : ServerRequest) (response : ServerResponse) :
    Except ServerResponse Bytes :=
  let authorization := request.getHeaderValue (lit "Authorization")
  if authorization.take bearerPrefix.length ≠ bearerPrefix ∨
      authorization.length = bearerPrefix.length then
    .error (setError libraries response 401 (lit "请先登录"))
  else .ok (authorization.drop bearerPrefix.length)

/-! ## Routes -/

/-- The response to an error of the application, or what is written upon success. -/
def answered {α : Type} (libraries : Libraries) (response : ServerResponse) (operation : Operation)
    (write : α → ServerResponse) : Outcome α → ServerResponse
  | .error code => setApplicationError libraries response code operation
  | .ok value => write value

section Server

variable (server : LegacyHttpServer) (request : ServerRequest) (response : ServerResponse)

/-- `server_.Post("/api/login", ..)` -/
def LegacyHttpServer.postLogin : ApiProgram ServerResponse :=
  let read : Except ServerResponse LoginCommand := do
    let body ← parseObject server.libraries request response server.options.maxJsonBodyBytes
    let username ← requiredString server.libraries body (lit "username") response
    let password ← requiredString server.libraries body (lit "password") response
    return ⟨username, password⟩
  match read with
  | .error response => .ret response
  | .ok command => do
      let result ← Program.perform (Request.login command)
      return answered server.libraries response .login (fun view : LoginView =>
        setJson server.libraries response 200 (.object [(lit "token", .string view.token),
          (lit "role", .string view.role), (lit "username", .string view.username)])) result

/-- `server_.Get("/api/goods", ..)` -/
def LegacyHttpServer.getGoods : ApiProgram ServerResponse :=
  match bearerToken server.libraries request response with
  | .error response => .ret response
  | .ok token => do
      let name := (request.param (lit "name")).getD []
      let status := (request.param (lit "status")).getD []
      let result ← Program.perform (Request.listGoods ⟨token, name, status⟩)
      return answered server.libraries response .list (fun items : List GoodsView =>
        setJson server.libraries response 200 (.object [(lit "items", .array (items.map goodsJson))]))
        result

/-- `server_.Post("/api/goods", ..)` -/
def LegacyHttpServer.postGoods : ApiProgram ServerResponse :=
  let read : Except ServerResponse CreateGoodsCommand := do
    let token ← bearerToken server.libraries request response
    let body ← parseObject server.libraries request response server.options.maxJsonBodyBytes
    let name ← requiredString server.libraries body (lit "name") response
    let location ← optionalString server.libraries body (lit "location") response
    return ⟨token, name, location⟩
  match read with
  | .error response => .ret response
  | .ok command => do
      let result ← Program.perform (Request.createGoods command)
      return answered server.libraries response .create (fun goods : GoodsView =>
        setJson server.libraries response 201 (.object [(lit "item", goodsJson goods)])) result

/-- `server_.Post("/api/goods/take", ..)` -/
def LegacyHttpServer.postTake : ApiProgram ServerResponse :=
  let read : Except ServerResponse TakeGoodsCommand := do
    let token ← bearerToken server.libraries request response
    let body ← parseObject server.libraries request response server.options.maxJsonBodyBytes
    let suppliedId ← requiredString server.libraries body (lit "id") response
    return ⟨token, suppliedId⟩
  match read with
  | .error response => .ret response
  | .ok command => do
      let result ← Program.perform (Request.takeGoods command)
      return answered server.libraries response .take (fun goods : GoodsView =>
        setJson server.libraries response 200 (.object [(lit "item", goodsJson goods)])) result

/-- `server_.Get(R"(/.*)", ..)` -/
def LegacyHttpServer.getFile : ApiProgram ServerResponse :=
  .ret (match serveStatic server.static server.options.publicDirectory request.path with
    | .ok (.error status message) => setError server.libraries response status message
    | .ok (.content _ content mime) => server.libraries.http.setContent response content mime
    | .error _ => response)

/-- `server_.Options(R"(/.*)", ..)` -/
def LegacyHttpServer.preflight : ApiProgram ServerResponse := .ret { response with status := 204 }

/-! ## `registerRoutes` -/

/-- `registerRoutes` -/
def LegacyHttpServer.registerRoutes (server : LegacyHttpServer) : List Route :=
  [⟨lit "OPTIONS", lit "/.*", fun _ response => LegacyHttpServer.preflight response⟩,
    ⟨lit "POST", lit "/api/login", server.postLogin⟩,
    ⟨lit "GET", lit "/api/goods", server.getGoods⟩,
    ⟨lit "POST", lit "/api/goods", server.postGoods⟩,
    ⟨lit "POST", lit "/api/goods/take", server.postTake⟩,
    ⟨lit "GET", lit "/.*", server.getFile⟩]

/-! ## `configureServer` -/

/-- `attachmentExceedsLimit` -/
def attachmentExceedsLimit (request : ServerRequest) (limit : ℕ) : Bool :=
  request.files.any fun entry => decide (entry.2.length > limit)

/-- The loop over the headers. -/
def headerBytes (request : ServerRequest) : ℕ :=
  request.headers.foldl (fun bytes header => bytes + (header.1.length + header.2.length + 4)) 0

/-- The pre-routing handler; a response, if it is `Handled`. -/
def LegacyHttpServer.preRouting : Option ServerResponse :=
  if headerBytes request > server.options.maxHeaderBytes then
    some (setError server.libraries response 431 (lit "请求头过大"))
  else if request.isMultipartFormData then
    if attachmentExceedsLimit request server.options.maxAttachmentBytes then
      some (setError server.libraries response 413 (lit "附件过大"))
    else none
  else none

/-- The post-routing handler. -/
def LegacyHttpServer.postRouting : ServerResponse :=
  { response with
    toHttpResponse := applyCors server.options.toHttpServerOptions request.toHttpRequest
      response.toHttpResponse }

/-- The error handler. -/
def LegacyHttpServer.errorHandler : ServerResponse :=
  if !response.body.isEmpty then response
  else if response.status = 413 then setError server.libraries response 413 (lit "请求体过大")
  else if response.status = 431 then setError server.libraries response 431 (lit "请求头过大")
  else if (lit "/api/").isPrefixOf request.path then
    setError server.libraries response 404 (lit "接口不存在")
  else if request.method ≠ lit "GET" then setError server.libraries response 405 (lit "方法不支持")
  else setError server.libraries response 404 (lit "资源不存在")

/-- The handlers and the routes that the constructor leaves with the library. -/
def LegacyHttpServer.setup (server : LegacyHttpServer) : HttpSetup where
  preRouting := server.preRouting
  postRouting := server.postRouting
  errorHandler := server.errorHandler
  routes := server.registerRoutes

/-- A request, handed to the library. -/
def LegacyHttpServer.handle : ApiProgram ServerResponse :=
  server.libraries.http.handle server.setup request

end Server

end Warehouse.Api
