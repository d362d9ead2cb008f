/-
# Warehouse.Api.HttpExchange — what a request asks for, and what the response says

Two limits and six routes stand before the `LegacyWarehouseApi`.  What they let through is said here
once, without them: a request asks for a call, by its method, its path, its token and its body, or it
asks for none.  The call is made exactly if it is asked for, once; the response tells its result; and
every request that asks for none has a response all the same, a file, a preflight or an error that
says what it is.  What the responses say is said of plain requests; to others the library may respond
with a part of it, or with something of its own.
-/
import Warehouse.Api.LegacyHttpServer

namespace Warehouse.Api

open Warehouse.Interaction Warehouse.Files

/-! ## Requests that ask for a call -/

/-- The request comes with this token. -/
structure Bears (request : ServerRequest) (token : Bytes) : Prop where
  header : request.getHeaderValue (lit "Authorization") = lit "Bearer " ++ token
  token : token ≠ []

/-- The body of the request is an object, within the limit. -/
structure Carries (server : LegacyHttpServer) (request : ServerRequest) (body : Json) : Prop where
  length : request.body.length ≤ server.options.maxJsonBodyBytes
  parsed : server.libraries.json.parse request.body = some body
  object : body.isObject = true

/-- The library does not turn the request away, and none of the limits is exceeded; of the parts only
those count that are read before the routing. -/
structure Admitted (server : LegacyHttpServer) (request : ServerRequest) : Prop where
  accepted : server.libraries.http.turnsAway request = none
  headers : (request.headers.map fun header => header.1.length + header.2.length + 4).foldr
    (· + ·) 0 ≤ server.options.maxHeaderBytes
  attachments : request.isMultipartFormData = true →
    ∀ part ∈ (server.libraries.http.early request).files,
      part.2.length ≤ server.options.maxAttachmentBytes

/-- What an admitted request asks for. -/
inductive Asks (server : LegacyHttpServer) (request : ServerRequest) : Request → Prop
  | login {body : Json} {username password : Bytes} :
      request.method = lit "POST" → request.path = lit "/api/login" →
      Carries server request body →
      body.find (lit "username") = some (.string username) →
      body.find (lit "password") = some (.string password) →
      Asks server request (.login ⟨username, password⟩)
  | list {token : Bytes} :
      request.method = lit "GET" ∨ request.method = lit "HEAD" → request.path = lit "/api/goods" →
      Bears request token →
      Asks server request (.listGoods ⟨token, (request.param (lit "name")).getD [],
        (request.param (lit "status")).getD []⟩)
  | create {body : Json} {token name location : Bytes} :
      request.method = lit "POST" → request.path = lit "/api/goods" → Bears request token →
      Carries server request body → body.find (lit "name") = some (.string name) →
      body.find (lit "location") = some (.string location) ∨
        body.find (lit "location") = none ∧ location = [] →
      Asks server request (.createGoods ⟨token, name, location⟩)
  | take {body : Json} {token suppliedId : Bytes} :
      request.method = lit "POST" → request.path = lit "/api/goods/take" → Bears request token →
      Carries server request body → body.find (lit "id") = some (.string suppliedId) →
      Asks server request (.takeGoods ⟨token, suppliedId⟩)

/-! ## Responses -/

/-- The operation that a call belongs to. -/
def operationOf : Request → Operation
  | .login _ => .login
  | .listGoods _ => .list
  | .createGoods _ => .create
  | .takeGoods _ => .take

/-- What is said of a success. -/
def successOf : (call : Request) → call.View → ℤ × Json
  | .login _, view => (200, .object [(lit "token", .string view.token),
      (lit "role", .string view.role), (lit "username", .string view.username)])
  | .listGoods _, items => (200, .object [(lit "items", .array (items.map goodsJson))])
  | .createGoods _, goods => (201, .object [(lit "item", goodsJson goods)])
  | .takeGoods _, goods => (200, .object [(lit "item", goodsJson goods)])

/-- What is said of an error. -/
def errorJson (message : Bytes) : Json := .object [(lit "error", .string message)]

/-- What is said of the result of a call. -/
def resultOf (call : Request) : Outcome call.View → ℤ × Json
  | .ok view => successOf call view
  | .error code => ((applicationError code (operationOf call)).1,
      errorJson (applicationError code (operationOf call)).2)

/-- The headers that allow an origin. -/
def corsHeaders (server : LegacyHttpServer) (request : ServerRequest) : List (Bytes × Bytes) :=
  (applyCors server.options.toHttpServerOptions request.toHttpRequest {}).headers

/-- The response has this status and this content, and allows the origin of the request if it is to be
allowed. -/
structure Sends (server : LegacyHttpServer) (request : ServerRequest) (response : ServerResponse)
    (status : ℤ) (content mime : Bytes) : Prop where
  status : response.status = status
  body : response.body = content
  contentType : response.named [lit "Content-Type"] = [(lit "Content-Type", mime)]
  cors : response.named corsNames = corsHeaders server request

/-- A JSON response. -/
abbrev SendsJson (server : LegacyHttpServer) (request : ServerRequest) (response : ServerResponse)
    (said : ℤ × Json) : Prop :=
  Sends server request response said.1 (server.libraries.json.dump said.2) (lit "application/json; charset=utf-8")

/-- The statuses of errors. -/
def errorStatuses : List ℤ := [400, 401, 403, 404, 405, 413, 431, 500]

/-- The response to a request that asks for no call. -/
inductive Declines (server : LegacyHttpServer) (request : ServerRequest) (response : ServerResponse) :
    Prop
  | preflight : request.method = lit "OPTIONS" → response.status = 204 → response.body = [] →
      response.named corsNames = corsHeaders server request → Declines server request response
  | file {location : Location} {content mime : Bytes} : request.method = lit "GET" →
      serveStatic server.static server.options.publicDirectory request.path =
        .ok (.content location content mime) →
      Sends server request response 200 content mime → Declines server request response
  | error {status : ℤ} {message : Bytes} : status ∈ errorStatuses →
      SendsJson server request response (status, errorJson message) →
      Declines server request response

/-! ## Reading -/

section Reading

variable {α β : Type} {server : LegacyHttpServer} {libraries : Libraries} {request : ServerRequest}
  {response : ServerResponse}

/-- An error that is written while the request is read. -/
def Complains (libraries : Libraries) (response written : ServerResponse) : Prop :=
  ∃ status ∈ errorStatuses, ∃ message, written = setError libraries response status message

theorem complains {status : ℤ} {message : Bytes} (hstatus : status ∈ errorStatuses) :
    Complains libraries response (setError libraries response status message) :=
  ⟨status, hstatus, message, rfl⟩

/-- What is read is the one thing that is there; or nothing is there, and an error is written. -/
def Reads (libraries : Libraries) (response : ServerResponse) (there : α → Prop) :
    Except ServerResponse α → Prop
  | .ok value => ∀ other, there other ↔ other = value
  | .error written => (∀ value, ¬ there value) ∧ Complains libraries response written

variable {there : α → Prop} {more : α → β → Prop} {reading : Except ServerResponse α}
  {next : α → Except ServerResponse β}

theorem reads_pure (value : α) : Reads libraries response (fun other => other = value) (pure value) :=
  fun _ => Iff.rfl

/-- One reading after the other. -/
theorem Reads.bind (h : Reads libraries response there reading)
    (hnext : ∀ value, there value → Reads libraries response (more value) (next value)) :
    Reads libraries response (fun result => ∃ value, there value ∧ more value result)
      (reading >>= next) := by
  cases reading with
  | error written =>
      refine ⟨?_, h.2⟩
      rintro result ⟨value, hvalue, -⟩
      exact h.1 value hvalue
  | ok value =>
      have honly : (fun result => ∃ value, there value ∧ more value result) = more value := by
        funext result
        apply propext
        constructor
        · rintro ⟨other, hother, hmore⟩
          rwa [(h other).mp hother] at hmore
        · exact fun hmore => ⟨value, (h value).mpr rfl, hmore⟩
      rw [honly]
      exact hnext value ((h value).mpr rfl)

theorem Reads.congr {there' : α → Prop} (h : Reads libraries response there reading)
    (hsame : ∀ value, there value ↔ there' value) : Reads libraries response there' reading := by
  rwa [show there' = there from funext fun value => propext (hsame value).symm]

theorem reads_parseObject (server : LegacyHttpServer) (request : ServerRequest)
    (response : ServerResponse) :
    Reads server.libraries response (Carries server request)
      (parseObject server.libraries request response server.options.maxJsonBodyBytes) := by
  unfold parseObject
  by_cases hlong : request.body.length > server.options.maxJsonBodyBytes
  · rw [if_pos hlong]
    refine ⟨?_, complains (by decide)⟩
    intro body hcarries
    have hlength := hcarries.length
    omega
  rw [if_neg hlong]
  cases hparsed : server.libraries.json.parse request.body with
  | none =>
      refine ⟨?_, complains (by decide)⟩
      intro body hcarries
      rw [hcarries.parsed] at hparsed
      cases hparsed
  | some body =>
      cases hobject : body.isObject with
      | false =>
          simp only [hobject, Bool.not_false, if_true]
          refine ⟨?_, complains (by decide)⟩
          intro other hcarries
          obtain rfl := Option.some.inj (hparsed.symm.trans hcarries.parsed)
          rw [hcarries.object] at hobject
          cases hobject
      | true =>
          simp only [hobject, Bool.not_true, Bool.false_eq_true, if_false]
          intro other
          constructor
          · exact fun hcarries => Option.some.inj (hcarries.parsed.symm.trans hparsed)
          · rintro rfl
            exact ⟨by omega, hparsed, hobject⟩

theorem reads_requiredString (body : Json) (key : Bytes) :
    Reads libraries response (fun value => body.find key = some (.string value))
      (requiredString libraries body key response) := by
  unfold requiredString
  split
  · rename_i value hfound
    intro other
    rw [hfound]
    simp [eq_comm]
  · rename_i hnone
    exact ⟨fun value hvalue => hnone value hvalue, complains (by decide)⟩

theorem reads_optionalString (body : Json) (key : Bytes) :
    Reads libraries response (fun value => body.find key = some (.string value) ∨
      body.find key = none ∧ value = []) (optionalString libraries body key response) := by
  unfold optionalString
  split
  · rename_i hnone
    intro other
    simp [hnone]
  · rename_i value hfound
    intro other
    simp [hfound, eq_comm]
  · rename_i found hother hfound
    refine ⟨?_, complains (by decide)⟩
    rintro value (hvalue | ⟨hnone, -⟩)
    · exact hother value (Option.some.inj (hfound.symm.trans hvalue))
    · rw [hfound] at hnone
      cases hnone

/-- The prefix is compared, and what follows it is not empty. -/
theorem reads_bearerToken (libraries : Libraries) (request : ServerRequest) (response : ServerResponse) :
    Reads libraries response (Bears request) (bearerToken libraries request response) := by
  unfold bearerToken
  generalize hheader : request.getHeaderValue (lit "Authorization") = authorization
  have hbears : ∀ token, Bears request token ↔ authorization = bearerPrefix ++ token ∧ token ≠ [] := by
    intro token
    rw [← hheader]
    exact ⟨fun h => ⟨h.header, h.token⟩, fun h => ⟨h.1, h.2⟩⟩
  by_cases hwrong : authorization.take bearerPrefix.length ≠ bearerPrefix ∨
      authorization.length = bearerPrefix.length
  · simp only [if_pos hwrong]
    refine ⟨?_, complains (by decide)⟩
    intro token htoken
    obtain ⟨rfl, hsome⟩ := (hbears token).mp htoken
    rcases hwrong with hbearer | hlength
    · exact hbearer (List.take_left ..)
    · rw [List.length_append] at hlength
      exact hsome (List.eq_nil_of_length_eq_zero (by omega))
  · simp only [if_neg hwrong]
    obtain ⟨hbearer, hlength⟩ := not_or.mp hwrong
    have hsplit := List.take_append_drop bearerPrefix.length authorization
    rw [not_not.mp hbearer] at hsplit
    intro token
    rw [hbears]
    constructor
    · rintro ⟨hheader, -⟩
      rw [hheader, List.drop_left]
    · rintro rfl
      refine ⟨hsplit.symm, ?_⟩
      intro hnil
      rw [hnil, List.append_nil] at hsplit
      exact hlength (by rw [← hsplit])

end Reading

/-! ## Routes -/

section Routes

open Program

variable {α : Type} {server : LegacyHttpServer} {request : ServerRequest} {response : ServerResponse}

/-- The result of a call, written. -/
def told (server : LegacyHttpServer) (response : ServerResponse) (call : Request)
    (result : Outcome call.View) : ServerResponse :=
  setJson server.libraries response (resultOf call result).1 (resultOf call result).2

/-- A route makes the call that the request asks for and tells its result, or it complains. -/
inductive Handles (server : LegacyHttpServer) (request : ServerRequest) (response : ServerResponse) :
    ApiProgram ServerResponse → Prop
  | asks {call : Request} : (∀ other, Asks server request other ↔ other = call) →
      Handles server request response (.call call fun result => .ret (told server response call result))
  | complains {written : ServerResponse} : (∀ call, ¬ Asks server request call) →
      Complains server.libraries response written → Handles server request response (.ret written)

/-- A route that reads a command. -/
theorem handles_of_reads (toCall : α → Request) {there : α → Prop}
    {reading : Except ServerResponse α} {p : ApiProgram ServerResponse}
    (h : Reads server.libraries response there reading)
    (hasks : ∀ call, Asks server request call ↔ ∃ value, there value ∧ call = toCall value)
    (hok : ∀ value, reading = .ok value →
      p = .call (toCall value) fun result => .ret (told server response (toCall value) result))
    (herror : ∀ written, reading = .error written → p = .ret written) :
    Handles server request response p := by
  cases reading with
  | error written =>
      rw [herror written rfl]
      refine .complains ?_ h.2
      intro call hcall
      obtain ⟨value, hvalue, -⟩ := (hasks call).mp hcall
      exact h.1 value hvalue
  | ok value =>
      rw [hok value rfl]
      refine .asks ?_
      intro other
      rw [hasks]
      constructor
      · rintro ⟨found, hfound, rfl⟩
        rw [(h found).mp hfound]
      · rintro rfl
        exact ⟨value, (h value).mpr rfl, rfl⟩

theorem handles_postLogin (hmethod : request.method = lit "POST")
    (hpath : request.path = lit "/api/login") :
    Handles server request response (server.postLogin request response) := by
  have hreads := reads_parseObject server request response
    |>.bind fun body _ => reads_requiredString body (lit "username")
    |>.bind fun username _ => reads_requiredString body (lit "password")
    |>.bind fun password _ => reads_pure (LoginCommand.mk username password)
  refine handles_of_reads .login hreads ?_ ?_ ?_
  · intro call
    constructor
    · intro hasks
      cases hasks with
      | login _ _ hcarries husername hpassword =>
          exact ⟨_, ⟨_, hcarries, _, husername, _, hpassword, rfl⟩, rfl⟩
      | list _ hother => exact absurd (hpath.symm.trans hother) (by decide)
      | create _ hother => exact absurd (hpath.symm.trans hother) (by decide)
      | take _ hother => exact absurd (hpath.symm.trans hother) (by decide)
    · rintro ⟨_, ⟨body, hcarries, username, husername, password, hpassword, rfl⟩, rfl⟩
      exact .login hmethod hpath hcarries husername hpassword
  · intro command hread
    simp only [LegacyHttpServer.postLogin, hread]
    exact congrArg (Program.call _) (funext fun result => by cases result <;> rfl)
  · intro written hread
    simp only [LegacyHttpServer.postLogin, hread]

theorem handles_getGoods (hmethod : request.method = lit "GET" ∨ request.method = lit "HEAD")
    (hpath : request.path = lit "/api/goods") :
    Handles server request response (server.getGoods request response) := by
  have hreads : Reads server.libraries response (Bears request)
      (bearerToken server.libraries request response) := reads_bearerToken _ _ _
  refine handles_of_reads (fun token => .listGoods ⟨token, (request.param (lit "name")).getD [],
    (request.param (lit "status")).getD []⟩) hreads ?_ ?_ ?_
  · intro call
    constructor
    · intro hasks
      cases hasks with
      | list _ _ hbears => exact ⟨_, hbears, rfl⟩
      | login _ hother => exact absurd (hpath.symm.trans hother) (by decide)
      | create hpost => rcases hmethod with h | h <;> exact absurd (h.symm.trans hpost) (by decide)
      | take _ hother => exact absurd (hpath.symm.trans hother) (by decide)
    · rintro ⟨token, hbears, rfl⟩
      exact .list hmethod hpath hbears
  · intro token hread
    simp only [LegacyHttpServer.getGoods, hread]
    exact congrArg (Program.call _) (funext fun result => by cases result <;> rfl)
  · intro written hread
    simp only [LegacyHttpServer.getGoods, hread]

theorem handles_postGoods (hmethod : request.method = lit "POST")
    (hpath : request.path = lit "/api/goods") :
    Handles server request response (server.postGoods request response) := by
  have hreads := reads_bearerToken server.libraries request response
    |>.bind fun token _ => reads_parseObject server request response
    |>.bind fun body _ => reads_requiredString body (lit "name")
    |>.bind fun name _ => reads_optionalString body (lit "location")
    |>.bind fun location _ => reads_pure (CreateGoodsCommand.mk token name location)
  refine handles_of_reads .createGoods hreads ?_ ?_ ?_
  · intro call
    constructor
    · intro hasks
      cases hasks with
      | create _ _ hbears hcarries hname hlocation =>
          exact ⟨_, ⟨_, hbears, _, hcarries, _, hname, _, hlocation, rfl⟩, rfl⟩
      | login _ hother => exact absurd (hpath.symm.trans hother) (by decide)
      | list hget => rcases hget with h | h <;> exact absurd (hmethod.symm.trans h) (by decide)
      | take _ hother => exact absurd (hpath.symm.trans hother) (by decide)
    · rintro ⟨_, ⟨token, hbears, body, hcarries, name, hname, location, hlocation, rfl⟩, rfl⟩
      exact .create hmethod hpath hbears hcarries hname hlocation
  · intro command hread
    simp only [LegacyHttpServer.postGoods, hread]
    exact congrArg (Program.call _) (funext fun result => by cases result <;> rfl)
  · intro written hread
    simp only [LegacyHttpServer.postGoods, hread]

theorem handles_postTake (hmethod : request.method = lit "POST")
    (hpath : request.path = lit "/api/goods/take") :
    Handles server request response (server.postTake request response) := by
  have hreads := reads_bearerToken server.libraries request response
    |>.bind fun token _ => reads_parseObject server request response
    |>.bind fun body _ => reads_requiredString body (lit "id")
    |>.bind fun suppliedId _ => reads_pure (TakeGoodsCommand.mk token suppliedId)
  refine handles_of_reads .takeGoods hreads ?_ ?_ ?_
  · intro call
    constructor
    · intro hasks
      cases hasks with
      | take _ _ hbears hcarries hid => exact ⟨_, ⟨_, hbears, _, hcarries, _, hid, rfl⟩, rfl⟩
      | login _ hother => exact absurd (hpath.symm.trans hother) (by decide)
      | list _ hother => exact absurd (hpath.symm.trans hother) (by decide)
      | create _ hother => exact absurd (hpath.symm.trans hother) (by decide)
    · rintro ⟨_, ⟨token, hbears, body, hcarries, suppliedId, hid, rfl⟩, rfl⟩
      exact .take hmethod hpath hbears hcarries hid
  · intro command hread
    simp only [LegacyHttpServer.postTake, hread]
    exact congrArg (Program.call _) (funext fun result => by cases result <;> rfl)
  · intro written hread
    simp only [LegacyHttpServer.postTake, hread]

/-- The routes of requests that ask for a call. -/
theorem Asks.routed {call : Request} (h : Asks server request call) :
    request.method = lit "POST" ∧ (request.path = lit "/api/login" ∨
      request.path = lit "/api/goods" ∨ request.path = lit "/api/goods/take") ∨
    (request.method = lit "GET" ∨ request.method = lit "HEAD") ∧ request.path = lit "/api/goods" := by
  cases h with
  | login hmethod hpath => exact Or.inl ⟨hmethod, Or.inl hpath⟩
  | list hmethod hpath => exact Or.inr ⟨hmethod, hpath⟩
  | create hmethod hpath => exact Or.inl ⟨hmethod, Or.inr (Or.inl hpath)⟩
  | take hmethod hpath => exact Or.inl ⟨hmethod, Or.inr (Or.inr hpath)⟩

end Routes

/-! ## On the way out -/

section Completion

variable {server : LegacyHttpServer} {request seen : ServerRequest}
  {response written prepared sent : ServerResponse} {own : List (Bytes × Bytes)} {mime : Bytes}

theorem corsHeaders_names {header : Bytes × Bytes} (h : header ∈ corsHeaders server request) :
    header.1 ∈ corsNames := by
  rw [corsHeaders, applyCors_headers] at h
  split at h
  · simp only [List.nil_append, List.mem_cons, List.not_mem_nil, or_false] at h
    rcases h with rfl | rfl | rfl | rfl <;> simp [corsNames]
  · cases h

/-- The post-routing handler reads the origin, and adds headers at the end. -/
theorem postRouting_headers (hseen : seen.SameHead request) :
    (server.postRouting seen response).headers = response.headers ++ corsHeaders server request := by
  show (applyCors _ _ _).headers = _ ++ (applyCors _ _ _).headers
  rw [applyCors_headers, applyCors_headers, hseen.getHeaderValue]
  rfl

theorem named_postRouting_cors (hseen : seen.SameHead request)
    (hown : ∀ header ∈ own, header.1 ∉ corsNames) :
    (server.postRouting seen { prepared with headers := prepared.headers ++ own }).named corsNames =
      prepared.named corsNames ++ corsHeaders server request := by
  have hnothing : own.filter (fun header => corsNames.contains header.1) = [] := by
    rw [List.filter_eq_nil_iff]
    intro header hheader
    simpa using hown header hheader
  have hall : (corsHeaders server request).filter (fun header => corsNames.contains header.1) =
      corsHeaders server request := by
    rw [List.filter_eq_self]
    intro header hheader
    simpa using corsHeaders_names hheader
  rw [ServerResponse.named, postRouting_headers hseen, List.filter_append, List.filter_append,
    hnothing, hall, List.append_nil]
  rfl

theorem named_postRouting_type (hseen : seen.SameHead request)
    (hown : ∀ header ∈ own, header.1 ≠ lit "Content-Type") :
    (server.postRouting seen { prepared with headers := prepared.headers ++ own }).named
      [lit "Content-Type"] = prepared.named [lit "Content-Type"] := by
  have hnothing : own.filter (fun header => [lit "Content-Type"].contains header.1) = [] := by
    rw [List.filter_eq_nil_iff]
    intro header hheader
    simpa using hown header hheader
  have hnone : (corsHeaders server request).filter
      (fun header => [lit "Content-Type"].contains header.1) = [] := by
    rw [List.filter_eq_nil_iff]
    intro header hheader htype
    have hname := corsHeaders_names hheader
    rw [show header.1 = lit "Content-Type" by simpa using htype] at hname
    exact absurd hname (by decide)
  rw [ServerResponse.named, postRouting_headers hseen, List.filter_append, List.filter_append,
    hnothing, hnone, List.append_nil, List.append_nil]
  rfl

/-- A response with a content type is sent as it is. -/
theorem sends_prepared (hseen : seen.SameHead request)
    (hown : ∀ header ∈ own, header.1 ∉ corsNames)
    (htype : (∃ header ∈ own, header.1 = lit "Content-Type") →
      prepared.named [lit "Content-Type"] = [])
    (hheaders : prepared.headers = [(lit "Content-Type", mime)]) :
    Sends server request
      (server.postRouting seen { prepared with headers := prepared.headers ++ own })
      prepared.status prepared.body mime := by
  have hnamed : prepared.named [lit "Content-Type"] = [(lit "Content-Type", mime)] := by
    simp [ServerResponse.named, hheaders]
  have hother : ∀ header ∈ own, header.1 ≠ lit "Content-Type" := by
    intro header hheader hname
    rw [hnamed] at htype
    cases htype ⟨header, hheader, hname⟩
  refine ⟨rfl, rfl, ?_, ?_⟩
  · rw [named_postRouting_type hseen hother, hnamed]
  · have hnone : prepared.named corsNames = [] := by
      rw [ServerResponse.named, hheaders, List.filter_cons,
        show corsNames.contains (lit "Content-Type") = false by decide]
      rfl
    rw [named_postRouting_cors hseen hown, hnone, List.nil_append]

/-- Content that is no error, or says something, stays. -/
theorem sends_completes (h : Completes server.setup request written sent)
    (hheaders : written.headers = [(lit "Content-Type", mime)])
    (hcontent : written.body ≠ [] ∨ written.status < 400) :
    Sends server request sent written.status written.body mime := by
  obtain @⟨seen, prepared, own, hseen, hprepared, hown, htype, rfl⟩ := h
  have hkept : prepared = written := by
    rw [hprepared]
    split
    · rename_i herror
      have hbody : written.body.isEmpty = false := by
        rcases hcontent with hcontent | hsuccess
        · simpa using hcontent
        · omega
      show server.errorHandler seen written = written
      simp [LegacyHttpServer.errorHandler, hbody]
    · rfl
  subst hkept
  exact sends_prepared hseen hown htype hheaders

/-- The error handler writes over a response without content. -/
theorem complains_errorHandler (server : LegacyHttpServer) (request : ServerRequest) (status : ℤ) :
    Complains server.libraries { status } (server.errorHandler request { status }) := by
  unfold LegacyHttpServer.errorHandler
  simp only [List.isEmpty_nil, Bool.not_true, Bool.false_eq_true, if_false]
  split
  · exact complains (by decide)
  split
  · exact complains (by decide)
  split
  · exact complains (by decide)
  split
  · exact complains (by decide)
  · exact complains (by decide)

variable (hlibrary : server.libraries.http.Documented)

include hlibrary

/-- Content that is set has the type that it is set with. -/
theorem headers_setContent {content : Bytes} (hheaders : response.headers = []) :
    (server.libraries.http.setContent response content mime).headers =
      [(lit "Content-Type", mime)] := by
  obtain ⟨-, -, htype, hothers⟩ := hlibrary.setContent response content mime
  rw [hheaders, List.filter_nil, List.filter_eq_nil_iff] at hothers
  rw [← htype, eq_comm, List.filter_eq_self]
  intro header hheader
  simpa using hothers header hheader

/-- What is written as an error, or as a result, has a status, a content and a type. -/
theorem setJson_written (status : ℤ) (value : Json) (hheaders : response.headers = []) :
    (setJson server.libraries response status value).status = status ∧
      (setJson server.libraries response status value).body = server.libraries.json.dump value ∧
      (setJson server.libraries response status value).headers =
        [(lit "Content-Type", lit "application/json; charset=utf-8")] := by
  have hset := hlibrary.setContent { response with status } (server.libraries.json.dump value)
    (lit "application/json; charset=utf-8")
  exact ⟨hset.1, hset.2.1, headers_setContent hlibrary hheaders⟩

variable (hdump : ∀ value, server.libraries.json.dump value ≠ [])

include hdump

theorem sends_setJson {status : ℤ} {value : Json} (hheaders : response.headers = [])
    (h : Completes server.setup request (setJson server.libraries response status value) sent) :
    SendsJson server request sent (status, value) := by
  obtain ⟨hstatus, hbody, htype⟩ := setJson_written hlibrary status value hheaders
  have hsent := sends_completes h htype (Or.inl (by rw [hbody]; exact hdump value))
  rwa [hstatus, hbody] at hsent

/-- An error that was written is sent. -/
theorem declines_of_complains (hwritten : Complains server.libraries {} written)
    (h : Completes server.setup request written sent) : Declines server request sent := by
  obtain ⟨status, hstatus, message, rfl⟩ := hwritten
  exact .error hstatus (sends_setJson hlibrary hdump rfl h)

omit hdump in
/-- An error that nobody has written is written on the way. -/
theorem declines_unwritten {status : ℤ} (hstatus : 400 ≤ status)
    (h : Completes server.setup request { status } sent) : Declines server request sent := by
  obtain @⟨seen, prepared, own, hseen, hprepared, hown, htype, rfl⟩ := h
  rw [if_pos hstatus] at hprepared
  obtain ⟨code, hcode, message, hhandled⟩ := complains_errorHandler server seen status
  obtain rfl : prepared = setJson server.libraries { status } code (errorJson message) :=
    hprepared.trans hhandled
  obtain ⟨hcoded, hbody, hheaders⟩ := setJson_written hlibrary code (errorJson message)
    (show ({ status } : ServerResponse).headers = [] from rfl)
  have hsent := @sends_prepared server request seen _ own _ hseen hown htype hheaders
  exact .error hcode
    ⟨hsent.status.trans hcoded, hsent.body.trans hbody, hsent.contentType, hsent.cors⟩

end Completion

/-! ## Files -/

/-- Errors of `serveStatic`. -/
theorem serveStatic_error {env : StaticFiles} {publicDirectory : Path} {path message : Bytes}
    {status : ℕ} (h : serveStatic env publicDirectory path = .ok (.error status message)) :
    status = 404 ∨ status = 500 := by
  have hnotFound : ∀ {reply : StaticReply}, reply = .error status message → reply = notFound →
      status = 404 ∨ status = 500 := by
    rintro _ rfl hreply
    exact Or.inl (StaticReply.error.inj hreply).1
  unfold serveStatic at h
  split at h
  · exact Or.inl (StaticReply.error.inj (Except.ok.inj h)).1.symm
  split at h
  · exact Or.inr (StaticReply.error.inj (Except.ok.inj h)).1.symm
  dsimp only at h
  split at h
  · exact hnotFound (Except.ok.inj h) rfl
  split at h
  · exact hnotFound (Except.ok.inj h) rfl
  split at h
  · exact hnotFound (Except.ok.inj h) rfl
  split at h
  · exact hnotFound (Except.ok.inj h) rfl
  rename_i root _ _ candidate _
  rw [comparePrefix_all] at h
  cases hinside : (components root).isPrefixOf (components candidate) with
  | false =>
      rw [hinside] at h
      exact hnotFound (Except.ok.inj h) rfl
  | true =>
      rw [hinside] at h
      have hsent : sendFile env candidate = .error status message := Except.ok.inj h
      unfold sendFile at hsent
      split at hsent
      · exact hnotFound hsent rfl
      · split at hsent
        · exact hnotFound hsent rfl
        · cases hsent

/-! ## Exchanges -/

section Exchange

open Program

variable {server : LegacyHttpServer} {request : ServerRequest}

/-- The loop adds up. -/
theorem headerBytes_eq (request : ServerRequest) : headerBytes request =
    (request.headers.map fun header => header.1.length + header.2.length + 4).foldr (· + ·) 0 := by
  rw [headerBytes, ← List.foldl_map, List.foldr_eq_foldl]

/-- Requests are admitted that the library does not turn away and the pre-routing handler leaves
alone. -/
theorem admitted_iff (hlibrary : server.libraries.http.Documented) : Admitted server request ↔
    server.libraries.http.turnsAway request = none ∧
      server.preRouting (server.libraries.http.early request) {} = none := by
  have hhead := hlibrary.early request
  have hbytes : headerBytes (server.libraries.http.early request) = headerBytes request := by
    rw [headerBytes, hhead.headers, ← headerBytes]
  have hattachments : attachmentExceedsLimit (server.libraries.http.early request)
      server.options.maxAttachmentBytes = false ↔
      ∀ part ∈ (server.libraries.http.early request).files,
        part.2.length ≤ server.options.maxAttachmentBytes := by
    simp [attachmentExceedsLimit]
  rw [LegacyHttpServer.preRouting, hbytes, hhead.isMultipartFormData]
  constructor
  · intro h
    refine ⟨h.accepted, ?_⟩
    have hheaders := h.headers
    rw [← headerBytes_eq] at hheaders
    rw [if_neg (by omega)]
    split
    · rename_i hmultipart
      rw [hattachments.mpr (h.attachments hmultipart)]
      rfl
    · rfl
  · rintro ⟨haccepted, hleft⟩
    split at hleft
    · cases hleft
    rename_i hheaders
    refine ⟨haccepted, ?_, ?_⟩
    · rw [← headerBytes_eq]
      omega
    · intro hmultipart
      rw [if_pos hmultipart] at hleft
      apply hattachments.mp
      cases hexceeds : attachmentExceedsLimit (server.libraries.http.early request)
          server.options.maxAttachmentBytes with
      | false => rfl
      | true =>
          rw [hexceeds] at hleft
          cases hleft

/-- What the pre-routing handler writes is an error. -/
theorem complains_preRouting {seen : ServerRequest} {response : ServerResponse}
    (h : server.preRouting seen {} = some response) : Complains server.libraries {} response := by
  rw [LegacyHttpServer.preRouting] at h
  split at h
  · rw [← Option.some.inj h]
    exact complains (by decide)
  split at h
  · split at h
    · rw [← Option.some.inj h]
      exact complains (by decide)
    · cases h
  · cases h

/-- What is done for a request whose result is this program: the call that it asks for, or none. -/
def Exchanges (server : LegacyHttpServer) (request : ServerRequest)
    (p : ApiProgram ServerResponse) : Prop :=
  (∀ call, Admitted server request → Asks server request call →
    ∃ next, p = .call call next ∧ ∀ result, ∃ response, next result = .ret response ∧
      (request.IsPlain → SendsJson server request response (resultOf call result))) ∧
  ((∀ call, Admitted server request → ¬ Asks server request call) →
    ∃ response, p = .ret response ∧ (request.IsPlain → Declines server request response))

/-- A request that asks for nothing. -/
theorem exchanges_of_declines {response : ServerResponse}
    (hnothing : ∀ call, Admitted server request → ¬ Asks server request call)
    (h : request.IsPlain → Declines server request response) :
    Exchanges server request (.ret response) :=
  ⟨fun call hadmitted hasks => absurd hasks (hnothing call hadmitted), fun _ => ⟨_, rfl, h⟩⟩

theorem applicationError_status (operation : Operation) (code : LegacyApplicationErrorCode) :
    ((applicationError code operation).1 : ℤ) ∈ errorStatuses := by
  cases code <;> simp [applicationError, errorStatuses]

/-- Success is 200 or 201. -/
theorem successOf_status (call : Request) (view : call.View) :
    (successOf call view).1 = 200 ∨ (successOf call view).1 = 201 := by
  cases call with
  | login => exact Or.inl rfl
  | listGoods => exact Or.inl rfl
  | createGoods => exact Or.inr rfl
  | takeGoods => exact Or.inl rfl

/-- Nobody is told `-1`. -/
theorem resultOf_status (call : Request) (result : Outcome call.View) :
    (resultOf call result).1 ≠ -1 := by
  cases result with
  | error code =>
      intro hunset
      have hstatus : (resultOf call (.error code)).1 ∈ errorStatuses :=
        applicationError_status (operationOf call) code
      rw [hunset] at hstatus
      exact absurd hstatus (by decide)
  | ok view =>
      show (successOf call view).1 ≠ -1
      rcases successOf_status call view with h | h <;> omega

/-- How a response of a route goes out. -/
abbrev SendsOut (server : LegacyHttpServer) (request : ServerRequest)
    (send : ServerResponse → ServerResponse) : Prop :=
  request.IsPlain → ∀ written, Completes server.setup request
    (if written.status = -1 then { written with status := 200 } else written) (send written)

variable (hlibrary : server.libraries.http.Documented)
  (hdump : ∀ value, server.libraries.json.dump value ≠ []) {send : ServerResponse → ServerResponse}

include hlibrary hdump

/-- What a route has written as JSON goes out as it is. -/
theorem sends_out {status : ℤ} {value : Json} (hstatus : status ≠ -1)
    (hsend : SendsOut server request send) (hplain : request.IsPlain) :
    SendsJson server request (send (setJson server.libraries {} status value)) (status, value) := by
  have hset : (setJson server.libraries {} status value).status ≠ -1 := by
    rw [(setJson_written hlibrary status value rfl).1]
    exact hstatus
  have hout := hsend hplain (setJson server.libraries {} status value)
  rw [if_neg hset] at hout
  exact sends_setJson hlibrary hdump rfl hout

/-- A route that handles a request. -/
theorem exchanges_of_handles {p : ApiProgram ServerResponse} (h : Handles server request {} p)
    (hadmitted : Admitted server request) (hsend : SendsOut server request send) :
    Exchanges server request (p >>= fun written => .ret (send written)) := by
  cases h with
  | @asks call honly =>
      constructor
      · intro other _ hasks
        obtain rfl := (honly other).mp hasks
        refine ⟨_, rfl, ?_⟩
        intro result
        refine ⟨_, rfl, ?_⟩
        exact sends_out hlibrary hdump (resultOf_status other result) hsend
      · intro hnothing
        exact absurd ((honly call).mpr rfl) (hnothing call hadmitted)
  | complains hnothing hcomplains =>
      refine exchanges_of_declines (fun call _ => hnothing call) ?_
      intro hplain
      obtain ⟨status, hstatus, message, rfl⟩ := hcomplains
      have hset : status ≠ -1 := by
        rintro rfl
        exact absurd hstatus (by decide)
      exact .error hstatus (sends_out hlibrary hdump hset hsend hplain)

theorem exchanges_getFile (hmethod : request.method = lit "GET" ∨ request.method = lit "HEAD")
    (hnothing : ∀ call, ¬ Asks server request call) (hsend : SendsOut server request send) :
    Exchanges server request (server.getFile request {} >>= fun written => .ret (send written)) := by
  refine exchanges_of_declines (fun call _ => hnothing call) ?_
  intro hplain
  have hget : request.method = lit "GET" := hmethod.resolve_right hplain.1
  obtain ⟨reply, hreply, -⟩ :=
    serveStatic_checked server.static server.options.publicDirectory request.path
  simp only [hreply]
  cases reply with
  | error status message =>
      have hwritten : ((status : ℤ)) ∈ errorStatuses := by
        rcases serveStatic_error hreply with rfl | rfl <;> decide
      exact .error hwritten (sends_out hlibrary hdump (by omega) hsend hplain)
  | content location content mime =>
      obtain ⟨hstatus, hbody, -⟩ := hlibrary.setContent {} content mime
      have hout := hsend hplain (server.libraries.http.setContent {} content mime)
      rw [if_pos hstatus] at hout
      have hsuccess : (200 : ℤ) < 400 := by decide
      have hsent := sends_completes hout (headers_setContent hlibrary rfl) (Or.inr hsuccess)
      rw [hbody] at hsent
      exact .file hget hreply hsent

omit hdump in
/-- A route with a literal pattern is one for its method and its path. -/
theorem fits_literal {method path : Bytes}
    {handler : ServerRequest → ServerResponse → ApiProgram ServerResponse}
    (hliteral : isLiteral path = true) :
    server.libraries.http.fits ⟨method, path, handler⟩ request = true ↔
      (method = request.method ∨ method = lit "GET" ∧ request.method = lit "HEAD") ∧
        request.path = path :=
  hlibrary.literal ⟨method, path, handler⟩ request hliteral

omit hdump in
/-- A request for which there is no route, or only that of the files, asks for no call. -/
theorem asks_nothing
    (hlogin : ¬ server.libraries.http.fits ⟨lit "POST", lit "/api/login", server.postLogin⟩ request)
    (hlist : ¬ server.libraries.http.fits ⟨lit "GET", lit "/api/goods", server.getGoods⟩ request)
    (hcreate : ¬ server.libraries.http.fits ⟨lit "POST", lit "/api/goods", server.postGoods⟩ request)
    (htake : ¬ server.libraries.http.fits ⟨lit "POST", lit "/api/goods/take", server.postTake⟩
      request) (call : Request) : ¬ Asks server request call := by
  intro hasks
  rw [fits_literal hlibrary (by decide)] at hlogin hlist hcreate htake
  rcases hasks.routed with ⟨h, hpath | hpath | hpath⟩ | ⟨h | h, hpath⟩
  · exact hlogin ⟨Or.inl h.symm, hpath⟩
  · exact hcreate ⟨Or.inl h.symm, hpath⟩
  · exact htake ⟨Or.inl h.symm, hpath⟩
  · exact hlist ⟨Or.inl h.symm, hpath⟩
  · exact hlist ⟨Or.inr ⟨rfl, h⟩, hpath⟩

omit hlibrary hdump in
/-- A request for a preflight. -/
theorem exchanges_preflight (hmethod : request.method = lit "OPTIONS")
    (hsend : SendsOut server request send) :
    Exchanges server request (LegacyHttpServer.preflight {} >>= fun written => .ret (send written)) := by
  refine exchanges_of_declines ?_ ?_
  · intro call _ hasks
    rcases hasks.routed with ⟨h, -⟩ | ⟨h | h, -⟩ <;> exact absurd (hmethod.symm.trans h) (by decide)
  · intro hplain
    obtain @⟨seen, prepared, own, hseen, hprepared, hown, -, hsent⟩ := hsend hplain { status := 204 }
    obtain rfl : prepared = { status := 204 } := hprepared
    rw [hsent]
    exact .preflight hmethod rfl rfl (named_postRouting_cors hseen hown)

/-- A request with a route. -/
theorem exchanges_routed {route : Route} (hadmitted : Admitted server request)
    (hfind : server.registerRoutes.find? (fun route => server.libraries.http.fits route request) =
      some route) (hsend : SendsOut server request send) :
    Exchanges server request (route.handler request {} >>= fun written => .ret (send written)) := by
  have hpost : ∀ {method : Bytes}, lit "POST" = method ∨ lit "POST" = lit "GET" ∧ method = lit "HEAD" →
      method = lit "POST" := by
    rintro method (rfl | ⟨hget, -⟩)
    · rfl
    · exact absurd hget (by decide)
  have hget : ∀ {method : Bytes}, lit "GET" = method ∨ lit "GET" = lit "GET" ∧ method = lit "HEAD" →
      method = lit "GET" ∨ method = lit "HEAD" := by
    rintro method (rfl | ⟨-, hhead⟩)
    · exact Or.inl rfl
    · exact Or.inr hhead
  rw [LegacyHttpServer.registerRoutes, List.find?_cons] at hfind
  split at hfind
  · rename_i hfits
    obtain rfl := Option.some.inj hfind
    have hmethod : request.method = lit "OPTIONS" := by
      rcases hlibrary.method _ _ hfits with h | ⟨h, -⟩
      · exact h.symm
      · exact absurd h (by decide)
    exact exchanges_preflight hmethod hsend
  rw [List.find?_cons] at hfind
  split at hfind
  · rename_i hfits
    obtain rfl := Option.some.inj hfind
    obtain ⟨hmethod, hpath⟩ := (fits_literal hlibrary (by decide)).mp hfits
    exact exchanges_of_handles hlibrary hdump (handles_postLogin (hpost hmethod) hpath) hadmitted
      hsend
  rename_i hlogin
  rw [List.find?_cons] at hfind
  split at hfind
  · rename_i hfits
    obtain rfl := Option.some.inj hfind
    obtain ⟨hmethod, hpath⟩ := (fits_literal hlibrary (by decide)).mp hfits
    exact exchanges_of_handles hlibrary hdump (handles_getGoods (hget hmethod) hpath) hadmitted hsend
  rename_i hlist
  rw [List.find?_cons] at hfind
  split at hfind
  · rename_i hfits
    obtain rfl := Option.some.inj hfind
    obtain ⟨hmethod, hpath⟩ := (fits_literal hlibrary (by decide)).mp hfits
    exact exchanges_of_handles hlibrary hdump (handles_postGoods (hpost hmethod) hpath) hadmitted
      hsend
  rename_i hcreate
  rw [List.find?_cons] at hfind
  split at hfind
  · rename_i hfits
    obtain rfl := Option.some.inj hfind
    obtain ⟨hmethod, hpath⟩ := (fits_literal hlibrary (by decide)).mp hfits
    exact exchanges_of_handles hlibrary hdump (handles_postTake (hpost hmethod) hpath) hadmitted
      hsend
  rename_i htake
  rw [List.find?_cons] at hfind
  split at hfind
  · rename_i hfits
    obtain rfl := Option.some.inj hfind
    exact exchanges_getFile hlibrary hdump (hget (hlibrary.method _ _ hfits))
      (asks_nothing hlibrary (by simp [hlogin]) (by simp [hlist]) (by simp [hcreate])
        (by simp [htake])) hsend
  · cases hfind

/-- Every request is one that a route handles, or one that is declined. -/
theorem exchanges_handle (request : ServerRequest) :
    Exchanges server request (server.handle request) := by
  have hserves : server.libraries.http.Serves server.setup request (server.handle request) :=
    hlibrary.handle server.setup request
  generalize server.handle request = p at hserves ⊢
  cases hserves with
  | turnedAway haway hstatus hcompletes =>
      refine exchanges_of_declines ?_ fun hplain =>
        declines_unwritten hlibrary hstatus (hcompletes hplain)
      intro call hadmitted
      rw [hadmitted.accepted] at haway
      cases haway
  | handled hwritten hcompletes =>
      refine exchanges_of_declines ?_ fun hplain =>
        declines_of_complains hlibrary hdump (complains_preRouting hwritten) (hcompletes hplain)
      intro call hadmitted
      have hleft : server.setup.preRouting (server.libraries.http.early request) {} = none :=
        ((admitted_iff hlibrary).mp hadmitted).2
      rw [hleft] at hwritten
      cases hwritten
  | routed haccepted hleft hfind hcompletes =>
      have hadmitted : Admitted server request := (admitted_iff hlibrary).mpr ⟨haccepted, hleft⟩
      exact exchanges_routed hlibrary hdump hadmitted hfind hcompletes
  | unrouted hfind hstatus hcompletes =>
      refine exchanges_of_declines (fun call _ => ?_) fun hplain =>
        declines_unwritten hlibrary hstatus (hcompletes hplain)
      have hnone : ∀ route ∈ server.registerRoutes,
          ¬ server.libraries.http.fits route request = true := List.find?_eq_none.mp hfind
      simp only [LegacyHttpServer.registerRoutes, List.forall_mem_cons] at hnone
      obtain ⟨-, hlogin, hlist, hcreate, htake, -⟩ := hnone
      exact asks_nothing hlibrary hlogin hlist hcreate htake call

/-- A request asks for one call. -/
theorem asks_unique {call other : Request} (hadmitted : Admitted server request)
    (hasks : Asks server request call) (hother : Asks server request other) : other = call := by
  obtain ⟨hcalls, -⟩ := exchanges_handle hlibrary hdump request
  obtain ⟨next, hhandle, -⟩ := hcalls call hadmitted hasks
  obtain ⟨next', hhandle', -⟩ := hcalls other hadmitted hother
  exact (Program.call.inj (hhandle'.symm.trans hhandle)).1

end Exchange

/-! ## A login -/

/-- A character inside a JSON string. -/
def jsonCharacter (c : UInt8) : Bytes :=
  if c = 34 then lit "\\\""
  else if c = 92 then lit "\\\\"
  else if c = 8 then lit "\\b"
  else if c = 12 then lit "\\f"
  else if c = 10 then lit "\\n"
  else if c = 13 then lit "\\r"
  else if c = 9 then lit "\\t"
  else [c]

def jsonString (value : Bytes) : Bytes := lit "\"" ++ value.flatMap jsonCharacter ++ lit "\""

/-- The members of an object are written in the order of their keys. -/
def insertMember (member : Bytes × Bytes) : List (Bytes × Bytes) → List (Bytes × Bytes)
  | [] => [member]
  | other :: members =>
      if member.1 ≤ other.1 then member :: other :: members else other :: insertMember member members

mutual

/-- `dump`, of texts that need no replacement and have no other control characters. -/
def compactJson : Json → Bytes
  | .null => lit "null"
  | .boolean value => if value then lit "true" else lit "false"
  | .number text => if text.isEmpty then lit "0" else text
  | .string value => jsonString value
  | .array items => lit "[" ++ (lit ",").intercalate (compactItems items) ++ lit "]"
  | .object members =>
      lit "\x7b" ++ (lit ",").intercalate ((compactMembers members).map fun member =>
        jsonString member.1 ++ lit ":" ++ member.2) ++ lit "\x7d"

def compactItems : List Json → List Bytes
  | [] => []
  | item :: items => compactJson item :: compactItems items

def compactMembers : List (Bytes × Json) → List (Bytes × Bytes)
  | [] => []
  | (key, value) :: members => insertMember (key, compactJson value) (compactMembers members)

end

theorem compactJson_ne_nil (value : Json) : compactJson value ≠ [] := by
  cases value with
  | null => decide
  | boolean value => cases value <;> decide
  | number text =>
      rw [compactJson]
      split
      · decide
      · rename_i hsome
        simpa using hsome
  | string value => simp [compactJson, jsonString, show lit "\"" ≠ [] by decide]
  | array items => simp [compactJson, show lit "[" ≠ [] by decide]
  | object members => simp [compactJson, show lit "\x7b" ≠ [] by decide]

/-- Enough of the library for one text. -/
def oneText (text : Bytes) (value : Json) : JsonLibrary where
  parse body := if body = text then some value else none
  dump := compactJson

/-- A response goes out, with its length. -/
def sendWithLength (setup : HttpSetup) (request : ServerRequest) (written : ServerResponse) :
    ServerResponse :=
  let prepared := if 400 ≤ written.status then setup.errorHandler request written else written
  setup.postRouting request { prepared with
    headers := prepared.headers ++ [(lit "Content-Length", toDecimal prepared.body.length)] }

/-- A route is one for the request; every pattern that is no path stands for all of them. -/
def fitsSimply (route : Route) (request : ServerRequest) : Bool :=
  (route.method == request.method ||
      route.method == lit "GET" && request.method == lit "HEAD") &&
    if isLiteral route.pattern then request.path == route.pattern else request.path.head? == some 47

/-- A library that can read every request, and reads the content after the pre-routing handler. -/
def patientLibrary : HttpLibrary where
  setContent response content mime :=
    { headers := response.headers.filter (·.1 != lit "Content-Type") ++ [(lit "Content-Type", mime)]
      status := response.status
      body := content }
  turnsAway _ := none
  early request := { request with body := [], files := [] }
  fits := fitsSimply
  handle setup request :=
    match setup.preRouting { request with body := [], files := [] } {} with
    | some written => .ret (sendWithLength setup request written)
    | none =>
        match setup.routes.find? fun route => fitsSimply route request with
        | some route => do
            let written ← route.handler request {}
            return sendWithLength setup request
              (if written.status = -1 then { written with status := 200 } else written)
        | none => .ret (sendWithLength setup request { status := 404 })

theorem completes_sendWithLength (setup : HttpSetup) (request : ServerRequest)
    (written : ServerResponse) :
    Completes setup request written (sendWithLength setup request written) := by
  have hlength : lit "Content-Length" ∉ corsNames ∧ lit "Content-Length" ≠ lit "Content-Type" := by
    decide
  refine .intro ⟨rfl, rfl, rfl, rfl, rfl⟩ rfl ?_ ?_ rfl
  · intro header hheader
    rw [List.mem_singleton.mp hheader]
    exact hlength.1
  · rintro ⟨header, hheader, hname⟩
    rw [List.mem_singleton.mp hheader] at hname
    exact absurd hname hlength.2

theorem fitsSimply_method {route : Route} {request : ServerRequest} :
    (route.method == request.method ||
      route.method == lit "GET" && request.method == lit "HEAD") = true ↔
      route.ServesMethod request := by
  simp [Route.ServesMethod]

theorem patientLibrary_documented : patientLibrary.Documented where
  setContent response content mime := by
    refine ⟨rfl, rfl, ?_, ?_⟩
    · simp [patientLibrary, List.filter_filter]
    · simp [patientLibrary, List.filter_filter]
  early request := ⟨rfl, rfl, rfl, rfl, rfl⟩
  method route request hfits := by
    have hfits : fitsSimply route request = true := hfits
    rw [fitsSimply, Bool.and_eq_true] at hfits
    exact fitsSimply_method.mp hfits.1
  literal route request hliteral := by
    show fitsSimply route request = true ↔ _
    rw [fitsSimply, Bool.and_eq_true, fitsSimply_method, if_pos hliteral, beq_iff_eq]
  handle setup request := by
    show patientLibrary.Serves setup request (match setup.preRouting _ {} with
      | some written => _
      | none => _)
    cases hleft : setup.preRouting { request with body := [], files := [] } {} with
    | some written => exact .handled hleft fun _ => completes_sendWithLength setup request written
    | none =>
        dsimp only
        cases hfind : setup.routes.find? fun route => fitsSimply route request with
        | some route =>
            exact .routed rfl hleft hfind fun _ written => completes_sendWithLength setup request _
        | none => exact .unrouted hfind (by decide) fun _ => completes_sendWithLength setup request _

/-- The body of a login. -/
def loginBody : Bytes := lit "\x7b\"username\":\"alice\",\"password\":\"secret\"\x7d"

def loginServer : LegacyHttpServer where
  options := ServerOptions.bounded {}
  libraries :=
    { json := oneText loginBody
        (.object [(lit "password", .string (lit "secret")), (lit "username", .string (lit "alice"))])
      http := patientLibrary }
  static := publicServer

def loginRequest : ServerRequest where
  getHeaderValue _ := []
  method := lit "POST"
  path := lit "/api/login"
  body := loginBody

end Warehouse.Api
