/-
# Warehouse.Api.HttpRuns — overlapping requests, from the socket to the tables

Every worker of the HTTP server takes a request through the routes and the application to the
database, and any number of them do so at once.  What a client may conclude from the response: a
success is the effect of one moment between the request and the response, and a status below 500 that
is none says that nothing was changed.
-/
import Warehouse.Api.HttpExchange
import Warehouse.Backend.Refusals
import Warehouse.Interaction.MappedClients

namespace Warehouse.Api

open Warehouse.Interaction Warehouse.Mysql Warehouse.Backend RowSystem

/-! ## The server over the database -/

/-- `LegacyWarehouseService` behind the `LegacyWarehouseApi`. -/
def performApi (host : Host) (lease : Except SqlError Unit) :
    Handler Request (fun request => Outcome request.View) (ExecutorCall LegacyStatement)
      ExecutorCall.Answer ServiceState :=
  fun call s => serve host lease call s

/-- An HTTP request, and everything that it meets. -/
structure HttpIncoming where
  server : LegacyHttpServer
  request : ServerRequest
  host : Host
  lease : Except SqlError Unit
  service : ServiceState

/-- What the worker does for it. -/
def HttpIncoming.program (incoming : HttpIncoming) : LegacyProgram ServerResponse := do
  let (response, _) ← (incoming.server.handle incoming.request).interpret
    (performApi incoming.host incoming.lease) incoming.service
  return response

/-- The requests around the database. -/
abbrev HttpRequests : Type :=
  RowSystem (ExecutorCall LegacyStatement) ExecutorCall.Answer LegacyKey LegacyRecord ServerResponse

/-- No request has begun. -/
def httpArrivals (incoming : ℕ → HttpIncoming) (rows : LegacyRows) (counter : ℕ) : HttpRequests :=
  init (fun i => (incoming i).program) rows counter

/-- What the client asks for. -/
def HttpIncoming.AsksFor (incoming : HttpIncoming) (call : Request) : Prop :=
  Admitted incoming.server incoming.request ∧ Asks incoming.server incoming.request call

/-- The tables at a moment, as they are committed. -/
abbrev storedAt (run : ℕ → HttpRequests) (k : ℕ) : Tables := LegacyRows.tables (run k).store.rows

/-- The request takes effect at this moment, after it was sent. -/
structure HttpEffect (dialect : Dialect) (incoming : ℕ → HttpIncoming) (run : ℕ → HttpRequests)
    (n i : ℕ) (call : Request) (view : call.View) (k : ℕ) : Prop where
  asked : (incoming i).AsksFor call
  acts : Acts dialect (incoming i).host (incoming i).service (storedAt run k) call view
    (storedAt run (k + 1))
  sent : ∀ m ≤ n, ((run m).clients i).program = (incoming i).program → m ≤ k

/-- The request has been responded to. -/
def Responded (i : ℕ) (response : ServerResponse) (c : HttpRequests) : Prop :=
  (c.clients i).program = .ret response

/-! ## Behind the routes -/

section Behind

open Program

variable {incoming : HttpIncoming}

/-- What a worker does is what the application does for one of its requests, with the response made
of the result. -/
inductive HttpIncoming.Behind (incoming : HttpIncoming) (plain : Incoming)
    (respond : Reply → ServerResponse) : Prop
  | asks {call : Request} : incoming.AsksFor call →
      plain = ⟨incoming.host, incoming.lease, incoming.service, call⟩ →
      (incoming.request.IsPlain → ∀ result, SendsJson incoming.server incoming.request
        (respond ⟨call, result⟩) (resultOf call result)) →
      Behind incoming plain respond
  | declines {reply : Reply} : (∀ call, ¬ incoming.AsksFor call) → plain.program = .ret reply →
      Behind incoming plain respond

/-- A request without a session is turned away at once. -/
def strangers (incoming : HttpIncoming) : Incoming :=
  ⟨incoming.host, incoming.lease, { sessions := fun _ => none }, .listGoods ⟨[], [], []⟩⟩

theorem program_strangers (incoming : HttpIncoming) :
    (strangers incoming).program = .ret ⟨.listGoods ⟨[], [], []⟩, .error .unauthenticated⟩ := by
  have hserved : serve incoming.host incoming.lease (.listGoods ⟨[], [], []⟩)
      { sessions := fun _ => none } =
      .ret (.error .unauthenticated, { sessions := fun _ => none }) := interpret_authenticated _ _
  show (serve _ _ _ _ >>= _) = _
  rw [strangers, hserved]
  rfl

theorem exists_behind (hlibrary : incoming.server.libraries.http.Documented)
    (hdump : ∀ value, incoming.server.libraries.json.dump value ≠ []) :
    ∃ plain respond, incoming.program = plain.program.mapped respond ∧
      incoming.Behind plain respond := by
  classical
  obtain ⟨hasks, hdeclines⟩ := exchanges_handle hlibrary hdump incoming.request
  by_cases hcall : ∃ call, incoming.AsksFor call
  · obtain ⟨call, hasked⟩ := hcall
    obtain ⟨next, hhandle, hnext⟩ := hasks call hasked.1 hasked.2
    choose respond hrespond hsends using hnext
    let respondTo : Reply → ServerResponse := fun reply =>
      if hsame : reply.1 = call then respond (hsame ▸ reply.2) else {}
    have hsame : ∀ result, respondTo ⟨call, result⟩ = respond result := fun _ => dif_pos rfl
    refine ⟨⟨incoming.host, incoming.lease, incoming.service, call⟩, respondTo, ?_,
      .asks hasked rfl fun hplain result => hsame result ▸ hsends result hplain⟩
    unfold HttpIncoming.program Program.mapped Incoming.program
    rw [hhandle, interpret_call, bind_assoc, bind_assoc]
    congr 1
    funext answered
    rw [hrespond]
    exact congrArg Program.ret (hsame answered.1).symm
  · obtain ⟨response, hhandle, -⟩ :=
      hdeclines fun call hadmitted hasked => hcall ⟨call, hadmitted, hasked⟩
    refine ⟨strangers incoming, fun _ => response, ?_,
      .declines (fun call hasked => hcall ⟨call, hasked⟩) (program_strangers incoming)⟩
    unfold HttpIncoming.program
    rw [hhandle, program_strangers]
    rfl

end Behind

/-! ## Runs of requests -/

section Runs

open Program

variable {dialect : Dialect} {incoming : ℕ → HttpIncoming} {rows₀ : LegacyRows} {counter n k i : ℕ}
  {run : ℕ → HttpRequests} {response : ServerResponse}

/-- The run of the application behind a run of the server. -/
structure Fronts (dialect : Dialect) (incoming : ℕ → HttpIncoming) (rows₀ : LegacyRows)
    (run : ℕ → HttpRequests) (n : ℕ) (plain : ℕ → Incoming) (respond : ℕ → Reply → ServerResponse)
    (before : ℕ → Requests) : Prop where
  overlap : Overlap dialect plain rows₀ before n
  same : ∀ k ≤ n, run k = (before k).mapped respond
  programs : ∀ i, (incoming i).program = (plain i).program.mapped (respond i)
  behind : ∀ i, (incoming i).Behind (plain i) (respond i)

theorem exists_fronts (hlibrary : ∀ i, (incoming i).server.libraries.http.Documented)
    (hdump : ∀ i value, (incoming i).server.libraries.json.dump value ≠ [])
    (hrun : IsRun (legacyMeaning dialect).server run n)
    (hstart : run 0 = httpArrivals incoming rows₀ counter) :
    ∃ plain respond before, Fronts dialect incoming rows₀ run n plain respond before := by
  choose plain respond hprograms hbehind using fun i => exists_behind (hlibrary i) (hdump i)
  have hfirst : run 0 = (arrivals plain rows₀ counter).mapped respond := by
    rw [hstart]
    refine congrArg (RowSystem.mk _) (funext fun i => ?_)
    simp only [mappedClient, arrivals, init, hprograms]
  obtain ⟨before, hsteps, hbefore, hsame⟩ := run_of_mapped hrun hfirst
  exact ⟨plain, respond, before, overlap_of_run hsteps hbefore, hsame, hprograms, hbehind⟩

variable {plain : ℕ → Incoming} {respond : ℕ → Reply → ServerResponse} {before : ℕ → Requests}
  (h : Fronts dialect incoming rows₀ run n plain respond before)

include h

theorem Fronts.stored (hk : k ≤ n) : storedAt run k = tablesAt before k := by
  rw [storedAt, h.same k hk]
  rfl

/-- A request that has not begun has not begun behind the routes. -/
theorem Fronts.whole (hk : k ≤ n) (hwhole : ((run k).clients i).program = (incoming i).program) :
    ((before k).clients i).program = (plain i).program := by
  rw [h.same k hk, h.programs i] at hwhole
  exact (h.overlap.begun k hk i).rest.eq_of_mapped hwhole

theorem Fronts.replied (hk : k ≤ n) (hresponded : Responded i response (run k)) :
    ∃ reply, ((before k).clients i).program = .ret reply ∧ respond i reply = response := by
  rw [Responded, h.same k hk] at hresponded
  exact ret_of_mapped hresponded

/-- An effect behind the routes is one before them. -/
theorem Fronts.effect {view : (plain i).request.View} (hk : k < n)
    (heffect : TakesEffect dialect plain before n i view k) :
    ∃ call view', HttpEffect dialect incoming run n i call view' k ∧
      (⟨(plain i).request, view⟩ : Σ request : Request, request.View) = ⟨call, view'⟩ := by
  cases h.behind i with
  | declines _ hidle =>
      -- a request that returns at once is never in the middle of anything
      have hrest := (h.overlap.begun n (Nat.le_refl n) i).rest
      rw [hidle] at hrest
      have hlast := heffect.sent n (Nat.le_refl n) (hrest.of_ret.trans hidle.symm)
      omega
  | @asks call hasked hplain _ =>
      obtain ⟨hacts, hsent⟩ := heffect
      rw [← h.stored (by omega), ← h.stored (by omega)] at hacts
      have hlater : ∀ m ≤ n, ((run m).clients i).program = (incoming i).program → m ≤ k :=
        fun m hm hwhole => hsent m hm (h.whole hm hwhole)
      generalize hrequest : plain i = request at view hacts
      rw [hrequest] at hplain
      subst hplain
      exact ⟨call, view, ⟨hasked, hacts, hlater⟩, rfl⟩

/-- A response that was given is that to the result behind the routes. -/
theorem Fronts.responded {call : Request} (hplain : (plain i).request = call)
    (hresponded : Responded i response (run n)) :
    ∃ result : Outcome call.View, ((before n).clients i).program = .ret ⟨call, result⟩ ∧
      respond i ⟨call, result⟩ = response := by
  obtain ⟨reply, hreply, hresponse⟩ := h.replied (Nat.le_refl n) hresponded
  obtain ⟨w, -, ⟨result, hresult, -⟩, -⟩ := h.overlap.returned (Nat.le_refl n) hreply
  subst hplain
  rw [hresult] at hreply hresponse
  exact ⟨result, hreply, hresponse⟩

end Runs

/-! ## What a client may conclude -/

section Conclusions

open Program

variable {dialect : Dialect} {incoming : ℕ → HttpIncoming} {rows₀ : LegacyRows} {counter n i : ℕ}
  {run : ℕ → HttpRequests} {response : ServerResponse}

/-- A status below 400 is that of a success. -/
theorem ok_of_status {call : Request} {result : Outcome call.View}
    (hstatus : (resultOf call result).1 < 400) : ∃ view, result = .ok view := by
  cases result with
  | ok view => exact ⟨view, rfl⟩
  | error code =>
      have herror : ((applicationError code (operationOf call)).1 : ℤ) ∈ errorStatuses :=
        applicationError_status (operationOf call) code
      have hstatus : ((applicationError code (operationOf call)).1 : ℤ) < 400 := hstatus
      simp only [errorStatuses, List.mem_cons, List.not_mem_nil, or_false] at herror
      omega

/-- A commit that fails is answered by 500. -/
theorem status_of_commitFailure {code : LegacyApplicationErrorCode} {operation : Operation}
    (hcode : code ∈ commitFailures) : (applicationError code operation).1 = 500 := by
  simp only [commitFailures, List.mem_cons, List.not_mem_nil, or_false] at hcode
  rcases hcode with rfl | rfl | rfl <;> rfl

end Conclusions

/-! ## Alice takes the pallet -/

section Witness

open RowSystem LoneSession

/-- The body of her request. -/
def takeBody : Bytes := lit "\x7b\"id\":\"G000001\"\x7d"

/-- The request of `takingPallet`, over HTTP. -/
def postingTake : HttpIncoming where
  server :=
    { options := ServerOptions.bounded {}
      libraries :=
        { json := oneText takeBody (.object [(lit "id", .string (lit "G000001"))])
          http := patientLibrary }
      static := publicServer }
  request :=
    { getHeaderValue := fun name =>
        if name = lit "Authorization" then lit "Bearer 4f6b" else []
      method := lit "POST"
      path := lit "/api/goods/take"
      body := takeBody }
  host := trustingHost
  lease := .ok ()
  service := { sessions := aliceSession }

theorem asksFor_postingTake : postingTake.AsksFor (.takeGoods ⟨lit "4f6b", lit "G000001"⟩) :=
  ⟨⟨rfl, by decide, nofun⟩, .take rfl rfl ⟨rfl, by decide⟩ ⟨by decide, rfl, rfl⟩ rfl⟩

/-- What a lone session does for a request, a run does. -/
theorem run_of_answers {incoming : HttpIncoming} {rows : LegacyRows}
    {events : SqlHistory LegacyStatement} {response : ServerResponse}
    (hrun : Program.Runs incoming.program events response)
    (hanswers : ∃ after, Program.Answers (answers (legacyMeaning byteDialect))
      { store := { rows := rows, counter := 2 } } events after)
    (hperformed : ∀ event ∈ events, event.1.performed event.2 = true) :
    ∃ (run : ℕ → HttpRequests) (n : ℕ), run 0 = httpArrivals (fun _ => incoming) rows 2 ∧
      IsRun (legacyMeaning byteDialect).server run n ∧ Responded 0 response (run n) := by
  obtain ⟨after, hanswers⟩ := hanswers
  obtain ⟨c, hreach, -, hreturned⟩ :=
    reachable_of_answers (c := httpArrivals (fun _ => incoming) rows 2) hrun hanswers hperformed
      rfl rfl rfl rfl
  obtain ⟨run, n, hstart, rfl, hsteps⟩ := run_of_reachable hreach
  exact ⟨run, n, hstart, hsteps, hreturned⟩

end Witness

end Warehouse.Api
