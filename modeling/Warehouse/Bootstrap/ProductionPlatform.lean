/-
# Warehouse.Bootstrap.ProductionPlatform — what the stages build, and how it is taken down

`production_platform.cpp`, as the platform under the composition root: every call of the root
becomes a program over the parts of the server.  The pointers of `Impl` are followed one by one, and
beside them a ledger says what really stands: a part that is used has to stand, a part that is built
finds what it refers to, and a part that is destroyed is referred to by nothing.  Every constructor
may fail, and what is not caught in the source may throw.

The stages are proved from what stands when they are reached, `stop` from anything; that the root
keeps to the order of the stages was proved over any platform, and is what puts the two together,
for a root by itself and for the one in a process.
-/
import Warehouse.Api.CrossOrigin
import Warehouse.Bootstrap.CompositionRoot
import Warehouse.Bootstrap.LegacyStartup
import Warehouse.Bootstrap.ServerProcess
import Warehouse.Interaction.Handler
import Warehouse.Mysql.Migration.Runner

namespace Warehouse.Bootstrap

open Warehouse.Interaction Warehouse.Interaction.Program

/-! ## The parts of the server -/

/-- The pointers of `ProductionPlatform::Impl`. -/
inductive Part
  | clientLibrary | pool | units | sessions | passwords | application | server
  deriving DecidableEq, Repr

/-- What a part is built over: it keeps references to it, or needs it underneath. -/
def Part.refersTo : Part → List Part
  | .pool => [.clientLibrary]
  | .units => [.pool]
  | .application => [.units, .sessions, .passwords]
  | .server => [.application]
  | _ => []

/-- What a constructor is given besides. -/
abbrev Part.Options : Part → Type
  | .pool => MySqlConfiguration
  | .server => Api.HttpServerOptions
  | _ => Unit

/-- The calls of the platform.  `spawn` makes the thread that runs `listenAfterBind`;
`beforeDeadline`, `completed` and `isRunning` are the three looks of the loop that waits for it. -/
inductive PlatformCall
  | load
  | wait
  | initializePasswordHashing
  | make (part : Part) (options : part.Options)
  | drop (part : Part)
  | acquire
  | giveBack
  | discoverMigrations
  | readMigrationBootstrapSql
  | migrate
  | runLegacyStartupChecks (configuration : LegacyStartupConfiguration)
  | bind (address : Bytes) (port : ℕ)
  | spawn
  | beforeDeadline
  | completed
  | isRunning
  | sleep
  | stopServer
  | join
  | releaseThreadContext

/-- What calls return; nothing if they throw and nobody catches.  A text comes with a failure. -/
abbrev PlatformCall.Answer : PlatformCall → Type
  | .load => Option ConfigurationSource
  | .wait => Option Unit
  | .initializePasswordHashing | .make .. | .acquire | .discoverMigrations
  | .readMigrationBootstrapSql => Option (Except Bytes Unit)
  | .migrate => Option Mysql.Migration.MigrationReport
  | .runLegacyStartupChecks _ => Option (Except StartupFailure Unit)
  | .spawn | .beforeDeadline | .isRunning => Bool
  | .bind .. | .completed => Option Bool
  | _ => Unit

/-- Code of the platform. -/
abbrev PlatformProgram : Type → Type := Program PlatformCall PlatformCall.Answer

/-- One call. -/
def ask (op : PlatformCall) : PlatformProgram op.Answer := perform op

/-- `ProductionPlatform::Impl`: which pointers are set, and whether the thread is joinable. -/
structure ProductionPlatform where
  http : HttpServerConfiguration := {}
  engaged : Part → Bool := fun _ => false
  listener : Bool := false

/-- `failure` -/
def failure (stage : StartupStage) (code message : Bytes) : StartupResult where
  failure := some { stage, code, message }

namespace ProductionPlatform

/-- Constructors one after the other, as far as none fails.  An exception that is caught is one of the
failures. -/
def makeParts (platform : ProductionPlatform) : List ((part : Part) × part.Options) →
    PlatformProgram (Option (Except Bytes Unit) × ProductionPlatform)
  | [] => return (some (.ok ()), platform)
  | ⟨part, options⟩ :: rest => do
      match ← ask (.make part options) with
      | none => return (none, platform)
      | some (.error text) => return (some (.error text), platform)
      | some (.ok ()) =>
          makeParts { platform with engaged := Function.update platform.engaged part true } rest

/-- `reset` on pointers, one after the other. -/
def dropParts (platform : ProductionPlatform) : List Part → PlatformProgram ProductionPlatform
  | [] => return platform
  | part :: rest => do
      if platform.engaged part then
        ask (.drop part)
      dropParts { platform with engaged := Function.update platform.engaged part false } rest

/-- `ProductionPlatform::initializeMySqlRuntime` -/
def initializeMySqlRuntime (platform : ProductionPlatform) (configuration : ServerConfiguration) :
    PlatformProgram (Option StartupResult × ProductionPlatform) := do
  match ← ask .initializePasswordHashing with
  | none => return (none, platform)
  | some (.error text) =>
      return (some (failure .mySqlRuntime (lit "libsodium_initialization_failed") text), platform)
  | some (.ok ()) =>
      let (made, platform) ← platform.makeParts [⟨.clientLibrary, ()⟩]
      match made with
      | none => return (none, platform)
      | some (.error text) =>
          return (some (failure .mySqlRuntime (lit "mysql_runtime_initialization_failed") text),
            platform)
      | some (.ok ()) => return (some {}, { platform with http := configuration.http })

/-- `ProductionPlatform::createDatabasePool` -/
def createDatabasePool (platform : ProductionPlatform) (configuration : ServerConfiguration) :
    PlatformProgram (Option StartupResult × ProductionPlatform) := do
  let (made, platform) ← platform.makeParts [⟨.pool, configuration.mysql⟩]
  match made with
  | none => return (none, platform)
  | some (.error text) =>
      return (some (failure .databasePool (lit "database_pool_creation_failed") text), platform)
  | some (.ok ()) =>
      match ← ask .acquire with
      | none => return (none, platform)
      | some (.error text) =>
          return (some (failure .databasePool (lit "database_connection_failed") text), platform)
      | some (.ok ()) => do
          -- the probe goes out of scope
          ask .giveBack
          return (some {}, platform)

/-- What `runMigrations` makes of a report. -/
def migrated (report : Mysql.Migration.MigrationReport) : StartupResult :=
  if report.status = .succeeded then {}
  else failure .migration (lit "migration_failed")
    (if report.failedStep.isEmpty then report.message
      else report.failedStep ++ lit ": " ++ report.message)

/-- `ProductionPlatform::runMigrations` -/
def runMigrations (platform : ProductionPlatform) :
    PlatformProgram (Option StartupResult × ProductionPlatform) := do
  match ← ask .discoverMigrations with
  | none => return (none, platform)
  | some (.error text) =>
      return (some (failure .migration (lit "migration_discovery_failed") text), platform)
  | some (.ok ()) =>
      match ← ask .readMigrationBootstrapSql with
      | none => return (none, platform)
      | some (.error text) =>
          return (some (failure .migration (lit "migration_bootstrap_discovery_failed") text),
            platform)
      | some (.ok ()) =>
          match ← ask .acquire with
          | none => return (none, platform)
          | some (.error text) =>
              return (some (failure .migration (lit "migration_connection_failed") text), platform)
          | some (.ok ()) => do
              let report ← ask .migrate
              -- the lease goes out of scope, also when the runner throws
              ask .giveBack
              return (report.map migrated, platform)

/-- `ProductionPlatform::runLegacyStartupChecks` -/
def runLegacyStartupChecks (platform : ProductionPlatform) (configuration : ServerConfiguration) :
    PlatformProgram (Option StartupResult × ProductionPlatform) := do
  match ← ask (.runLegacyStartupChecks configuration.legacy) with
  | none => return (none, platform)
  | some (.error e) => return (some (failure .legacyStartupCheck e.code e.message), platform)
  | some (.ok ()) => return (some {}, platform)

/-- `ProductionPlatform::assembleApplication` -/
def assembleApplication (platform : ProductionPlatform) :
    PlatformProgram (Option StartupResult × ProductionPlatform) := do
  let (made, platform) ← platform.makeParts
    [⟨.units, ()⟩, ⟨.sessions, ()⟩, ⟨.passwords, ()⟩, ⟨.application, ()⟩]
  match made with
  | none => return (none, platform)
  | some (.error text) =>
      return (some (failure .applicationAssembly (lit "application_assembly_failed") text),
        platform)
  | some (.ok ()) => return (some {}, platform)

/-- `ProductionPlatform::assembleApi` -/
def assembleApi (platform : ProductionPlatform) :
    PlatformProgram (Option StartupResult × ProductionPlatform) := do
  let (made, platform) ← platform.makeParts [⟨.server, Api.assembleOptions platform.http⟩]
  match made with
  | none => return (none, platform)
  | some (.error text) =>
      return (some (failure .apiAssembly (lit "api_assembly_failed") text), platform)
  | some (.ok ()) => return (some {}, platform)

/-- `if (impl_->listener.joinable()) impl_->listener.join()` -/
def joinListener (platform : ProductionPlatform) : PlatformProgram ProductionPlatform := do
  if platform.listener then
    ask .join
  return { platform with listener := false }

/-- The end of `startHttpListener`, behind its loop. -/
def giveUpListener (platform : ProductionPlatform) :
    PlatformProgram (Option StartupResult × ProductionPlatform) := do
  ask .stopServer
  let platform ← platform.joinListener
  return (some (failure .httpListen (lit "http_listen_timeout")
    (lit "HTTP listener did not become ready before the startup deadline")), platform)

/-- The loop of `startHttpListener`, with the rounds it has time for. -/
def awaitListener (platform : ProductionPlatform) :
    ℕ → PlatformProgram (Option StartupResult × ProductionPlatform)
  | 0 => platform.giveUpListener
  | rounds + 1 => do
      if ← ask .beforeDeadline then
        match ← ask .completed with
        | some listenerResult => do
            let platform ← platform.joinListener
            return (some (failure .httpListen (lit "http_listen_failed")
              (if listenerResult then lit "HTTP listener stopped before startup completed"
                else lit "HTTP listener failed before startup completed")), platform)
        | none =>
            if ← ask .isRunning then return (some {}, platform)
            else do
              ask .sleep
              platform.awaitListener rounds
      else platform.giveUpListener

/-- `readinessTimeout` over `pollInterval`: each round sleeps 5 of the 1000 milliseconds. -/
def readinessRounds : ℕ := 1000 / 5

/-- `ProductionPlatform::startHttpListener` -/
def startHttpListener (platform : ProductionPlatform) (configuration : ServerConfiguration) :
    PlatformProgram (Option StartupResult × ProductionPlatform) := do
  match ← ask (.bind configuration.http.bindAddress configuration.http.port) with
  | none => return (none, platform)
  | some false =>
      return (some (failure .httpListen (lit "http_bind_failed")
        (lit "HTTP listener could not bind to the configured address")), platform)
  | some true =>
      -- the constructor of `std::thread` is outside of any `try`
      if ← ask .spawn then
        awaitListener { platform with listener := true } readinessRounds
      else return (none, platform)

/-- `ProductionPlatform::stop` -/
def stop (platform : ProductionPlatform) : PlatformProgram ProductionPlatform := do
  if platform.engaged .server then
    ask .stopServer
  let platform ← platform.joinListener
  let platform ← platform.dropParts [.server, .application, .passwords, .sessions, .units, .pool]
  ask .releaseThreadContext
  platform.dropParts [.clientLibrary]

end ProductionPlatform

/-- The calls of the composition root, answered by a `ProductionPlatform`. -/
def production :
    Handler RootCall RootCall.Answer PlatformCall PlatformCall.Answer ProductionPlatform
  | .load, platform => ask .load >>= fun answer => return (answer, platform)
  | .wait, platform => ask .wait >>= fun answer => return (answer, platform)
  | .stop, platform => platform.stop >>= fun platform => return ((), platform)
  | .stage .initializeMySqlRuntime c, platform => platform.initializeMySqlRuntime c
  | .stage .createDatabasePool c, platform => platform.createDatabasePool c
  | .stage .runMigrations _, platform => platform.runMigrations
  | .stage .runLegacyStartupChecks c, platform => platform.runLegacyStartupChecks c
  | .stage .assembleApplication _, platform => platform.assembleApplication
  | .stage .assembleApi _, platform => platform.assembleApi
  | .stage .startHttpListener c, platform => platform.startHttpListener c

/-- A platform and a root over it, that are made, called, and destroyed in the opposite order. -/
def platformLife (methods : List RootMethod) : PlatformProgram (List (Option StartupResult)) := do
  let (starts, platform) ← (lifetime methods).interpret production {}
  let _ ← platform.stop
  return starts

/-! ## The ledger -/

/-- What the calls of a platform come to. -/
abbrev PlatformHistory : Type := History PlatformCall PlatformCall.Answer

/-- What there is: the parts that stand, a thread that is not joined, a lease, and whether the
thread of the platform may have a context of the client library. -/
structure Ledger where
  stands : Part → Bool := fun _ => false
  listening : Bool := false
  leased : Bool := false
  inContext : Bool := false

namespace Ledger

/-- The ledger after a call. -/
def after (t : Ledger) : Event PlatformCall PlatformCall.Answer → Ledger
  | ⟨.make part _, some (.ok ())⟩ => { t with stands := Function.update t.stands part true }
  | ⟨.drop part, _⟩ => { t with stands := Function.update t.stands part false }
  | ⟨.acquire, some (.ok ())⟩ => { t with leased := true, inContext := true }
  | ⟨.acquire, _⟩ | ⟨.migrate, _⟩ | ⟨.runLegacyStartupChecks _, _⟩ => { t with inContext := true }
  | ⟨.giveBack, _⟩ => { t with leased := false }
  | ⟨.spawn, true⟩ => { t with listening := true }
  | ⟨.join, _⟩ => { t with listening := false }
  | ⟨.releaseThreadContext, _⟩ => { t with inContext := false }
  | _ => t

/-- When a call is all right: no null pointer is followed and no part built twice; a part stands
for as long as others refer to it, a server for as long as its thread runs, the pool for as long as
it has lent a connection; nobody asks for a connection while holding one; and the client library
ends after the context of the thread. -/
def Allows (t : Ledger) : PlatformCall → Prop
  | .make part _ => t.stands part = false ∧ ∀ below ∈ part.refersTo, t.stands below = true
  | .drop part => t.stands part = true ∧ (∀ above : Part, part ∈ above.refersTo →
      t.stands above = false) ∧ (part = .server → t.listening = false) ∧
      (part = .pool → t.leased = false) ∧ (part = .clientLibrary → t.inContext = false)
  | .acquire | .runLegacyStartupChecks _ => t.stands .pool = true ∧ t.leased = false
  | .migrate | .giveBack => t.stands .pool = true ∧ t.leased = true
  | .bind .. | .isRunning | .stopServer => t.stands .server = true
  | .spawn => t.stands .server = true ∧ t.listening = false
  | .join => t.listening = true
  | _ => True

end Ledger

/-- The ledger of a history. -/
def ledger (h : PlatformHistory) : Ledger := h.foldl Ledger.after {}

/-- The environment that answers anything, and a ledger that is kept. -/
def booked : Environment PlatformCall PlatformCall.Answer Ledger :=
  fun op t answer t' => t' = t.after ⟨op, answer⟩

/-- Every call is all right. -/
def allowed : Environment PlatformCall PlatformCall.Answer Ledger := fun op t _ _ => t.Allows op

section Ledgers

variable {α : Type} {Q : α → Ledger → Prop} {t : Ledger} {platform : ProductionPlatform}

/-- A call that is all right, whatever is answered. -/
theorem wp_ask {op : PlatformCall} {f : op.Answer → PlatformProgram α} (hallows : t.Allows op)
    (hrest : ∀ answer, wp booked allowed Q (f answer) (t.after ⟨op, answer⟩)) :
    wp booked allowed Q (ask op >>= f) t := by
  rintro answer t' rfl
  exact ⟨hallows, hrest answer⟩

/-! ## What the platform and the ledger have in common -/

/-- The pointers are those of the parts that stand, and nothing hangs in the air. -/
structure Consistent (platform : ProductionPlatform) (t : Ledger) : Prop where
  engaged : platform.engaged = t.stands
  listener : platform.listener = t.listening
  free : t.leased = false
  founded : ∀ part, t.stands part = true → ∀ below ∈ part.refersTo, t.stands below = true
  served : t.listening = true → t.stands .server = true

theorem consistent_init : Consistent {} {} where
  engaged := rfl
  listener := rfl
  free := rfl
  founded _ hstands := nomatch hstands
  served hlistening := nomatch hlistening

theorem Consistent.made (hbooks : Consistent platform t) {part : Part}
    (hbelow : ∀ below ∈ part.refersTo, t.stands below = true) :
    Consistent { platform with engaged := Function.update platform.engaged part true }
      { t with stands := Function.update t.stands part true } where
  engaged := by
    dsimp only
    rw [hbooks.engaged]
  listener := hbooks.listener
  free := hbooks.free
  founded other hstands below hmem := by
    dsimp only at hstands ⊢
    by_cases hsame : below = part
    · rw [hsame, Function.update_self]
    · rw [Function.update_of_ne hsame]
      by_cases hother : other = part
      · exact hbelow below (hother ▸ hmem)
      · exact hbooks.founded other (by rwa [Function.update_of_ne hother] at hstands) below hmem
  served hlistening := by
    dsimp only
    by_cases hsame : Part.server = part
    · rw [hsame, Function.update_self]
    · rw [Function.update_of_ne hsame, hbooks.served hlistening]

theorem Consistent.dropped (hbooks : Consistent platform t) {part : Part}
    (hlistening : t.listening = false)
    (habove : ∀ above : Part, part ∈ above.refersTo → t.stands above = false) :
    Consistent { platform with engaged := Function.update platform.engaged part false }
      { t with stands := Function.update t.stands part false } where
  engaged := by
    dsimp only
    rw [hbooks.engaged]
  listener := hbooks.listener
  free := hbooks.free
  founded other hstands below hmem := by
    dsimp only at hstands ⊢
    have hother : other ≠ part := by
      rintro rfl
      rw [Function.update_self] at hstands
      cases hstands
    rw [Function.update_of_ne hother] at hstands
    have hne : below ≠ part := by
      rintro rfl
      rw [habove other hmem] at hstands
      cases hstands
    rw [Function.update_of_ne hne, hbooks.founded other hstands below hmem]
  served hset := by
    rw [hlistening] at hset
    cases hset

/-- Calls that change neither the parts nor the thread. -/
theorem Consistent.kept {t' : Ledger} (hbooks : Consistent platform t)
    (hstands : t'.stands = t.stands) (hlistening : t'.listening = t.listening)
    (hfree : t'.leased = false) : Consistent platform t' where
  engaged := hbooks.engaged.trans hstands.symm
  listener := hbooks.listener.trans hlistening.symm
  free := hfree
  founded := by
    rw [hstands]
    exact hbooks.founded
  served := by
    rw [hstands, hlistening]
    exact hbooks.served

/-! ## Building -/

/-- The parts can be built in this order. -/
def CanBeBuilt : (Part → Bool) → List ((part : Part) × part.Options) → Prop
  | _, [] => True
  | stands, ⟨part, _⟩ :: rest => stands part = false ∧
      (∀ below ∈ part.refersTo, stands below = true) ∧
      CanBeBuilt (Function.update stands part true) rest

/-- Constructors leave what there was, and their own parts if all of them return. -/
theorem makeParts_books {parts : List ((part : Part) × part.Options)}
    (hbooks : Consistent platform t) (hbuildable : CanBeBuilt t.stands parts) :
    wp booked allowed (fun r t' => Consistent r.2 t' ∧ t'.listening = t.listening ∧
      (r.1 = some (.ok ()) →
        ∀ part, t'.stands part = (t.stands part || parts.any fun p => p.1 = part)))
      (platform.makeParts parts) t := by
  induction parts generalizing platform t with
  | nil => exact ⟨hbooks, rfl, fun _ part => by simp⟩
  | cons first rest ih =>
      obtain ⟨part, options⟩ := first
      obtain ⟨hnew, hbelow, hrest⟩ := hbuildable
      refine wp_ask ⟨hnew, hbelow⟩ fun answer => ?_
      match answer with
      | none => exact ⟨hbooks, rfl, fun hok => nomatch hok⟩
      | some (.error text) => exact ⟨hbooks, rfl, fun hok => nomatch hok⟩
      | some (.ok ()) =>
          refine wp_post (ih (hbooks.made hbelow) hrest) ?_
          rintro r t' ⟨hkept, hthread, hstands⟩
          refine ⟨hkept, hthread, fun hok other => ?_⟩
          rw [hstands hok other, List.any_cons]
          dsimp only [Ledger.after]
          by_cases hsame : other = part
          · rw [hsame, Function.update_self]
            simp
          · rw [Function.update_of_ne hsame]
            simp [Ne.symm hsame]

/-! ## Taking down -/

/-- The parts can be destroyed in this order. -/
def CanBeDestroyed : (Part → Bool) → List Part → Prop
  | _, [] => True
  | stands, part :: rest => (∀ above : Part, part ∈ above.refersTo → stands above = false) ∧
      CanBeDestroyed (Function.update stands part false) rest

/-- Nothing is left. -/
structure Ledger.AtRest (t : Ledger) : Prop where
  stands : ∀ part, t.stands part = false
  listening : t.listening = false
  leased : t.leased = false
  inContext : t.inContext = false

/-- The pointers of the list are reset, and no others. -/
theorem dropParts_books {parts : List Part} (hbooks : Consistent platform t)
    (hlistening : t.listening = false)
    (hcontext : Part.clientLibrary ∈ parts → t.inContext = false)
    (hdestroyable : CanBeDestroyed t.stands parts) :
    wp booked allowed (fun platform' t' => Consistent platform' t' ∧ t'.listening = false ∧
      t'.inContext = t.inContext ∧ ∀ part, t'.stands part = (t.stands part && !parts.contains part))
      (platform.dropParts parts) t := by
  induction parts generalizing platform t with
  | nil => exact ⟨hbooks, hlistening, rfl, fun part => by simp⟩
  | cons part rest ih =>
      obtain ⟨habove, hrest⟩ := hdestroyable
      have hnext := ih (hbooks.dropped hlistening habove) hlistening
        (fun hmem => hcontext (List.mem_cons_of_mem _ hmem)) hrest
      have hlast : wp booked allowed (fun platform' t' => Consistent platform' t' ∧
          t'.listening = false ∧ t'.inContext = t.inContext ∧
          ∀ other, t'.stands other = (t.stands other && !(part :: rest).contains other))
          (ProductionPlatform.dropParts
            { platform with engaged := Function.update platform.engaged part false } rest)
          { t with stands := Function.update t.stands part false } := by
        refine wp_post hnext ?_
        rintro platform' t' ⟨hkept, hthread, hsame, hstands⟩
        refine ⟨hkept, hthread, hsame, fun other => ?_⟩
        rw [hstands other]
        dsimp only
        by_cases heq : other = part
        · rw [heq, Function.update_self]
          simp
        · rw [Function.update_of_ne heq]
          simp [heq]
      unfold ProductionPlatform.dropParts
      cases hstands : t.stands part with
      | true =>
          rw [if_pos (by rw [hbooks.engaged, hstands])]
          exact wp_ask ⟨hstands, habove, fun _ => hlistening, fun _ => hbooks.free,
            fun hpart => hcontext (hpart ▸ List.mem_cons_self)⟩ fun _ => hlast
      | false =>
          rw [if_neg (by rw [hbooks.engaged, hstands]; exact Bool.false_ne_true)]
          have hsame : { t with stands := Function.update t.stands part false } = t := by
            rw [← hstands, Function.update_eq_self]
          rw [hsame] at hlast
          exact hlast

/-- A thread is joined if there is one. -/
theorem joinListener_books (hbooks : Consistent platform t) :
    wp booked allowed (fun platform' t' => Consistent platform' t' ∧
      t' = { t with listening := false }) platform.joinListener t := by
  have hjoined : Consistent { platform with listener := false } { t with listening := false } :=
    ⟨hbooks.engaged, rfl, hbooks.free, hbooks.founded, fun hset => nomatch hset⟩
  unfold ProductionPlatform.joinListener
  cases hlistening : t.listening with
  | true =>
      rw [if_pos (by rw [hbooks.listener, hlistening])]
      exact wp_ask hlistening fun _ => ⟨hjoined, rfl⟩
  | false =>
      rw [if_neg (by rw [hbooks.listener, hlistening]; exact Bool.false_ne_true)]
      have hsame : { t with listening := false } = t := by
        rw [← hlistening]
      rw [hsame] at hjoined ⊢
      exact ⟨hjoined, rfl⟩

/-- `stop` leaves nothing, from wherever it is called. -/
theorem stop_books (hbooks : Consistent platform t) :
    wp booked allowed (fun platform' t' => Consistent platform' t' ∧ t'.AtRest) platform.stop t := by
  have hrest : wp booked allowed (fun platform' t' => Consistent platform' t' ∧ t'.AtRest)
      (platform.joinListener >>= fun platform =>
        platform.dropParts [.server, .application, .passwords, .sessions, .units, .pool] >>=
          fun platform => ask .releaseThreadContext >>= fun _ =>
            platform.dropParts [.clientLibrary]) t := by
    refine (wp_bind _ _ _).mpr (wp_post (joinListener_books hbooks) ?_)
    rintro platform₁ t₁ ⟨hbooks₁, rfl⟩
    have hdestroyable : CanBeDestroyed t.stands
        [.server, .application, .passwords, .sessions, .units, .pool] := by
      refine ⟨?_, ?_, ?_, ?_, ?_, ?_, trivial⟩ <;> intro above hmem <;> cases above <;>
        simp_all [Part.refersTo]
    refine (wp_bind _ _ _).mpr (wp_post (dropParts_books hbooks₁ rfl (by simp) hdestroyable) ?_)
    rintro platform₂ t₂ ⟨hbooks₂, hlistening₂, -, hstands₂⟩
    refine wp_ask trivial fun _ => ?_
    have hbooks₃ : Consistent platform₂ { t₂ with inContext := false } :=
      hbooks₂.kept rfl rfl hbooks₂.free
    have hpool : t₂.stands .pool = false := by
      rw [hstands₂]
      simp
    refine wp_post (dropParts_books hbooks₃ hlistening₂ (fun _ => rfl) ⟨?_, trivial⟩) ?_
    · intro above hmem
      cases above with
      | pool => exact hpool
      | _ => simp [Part.refersTo] at hmem
    · rintro platform₄ t₄ ⟨hbooks₄, hlistening₄, hcontext₄, hstands₄⟩
      refine ⟨hbooks₄, fun part => ?_, hlistening₄, hbooks₄.free, hcontext₄⟩
      rw [hstands₄ part]
      dsimp only [Ledger.after]
      rw [hstands₂ part]
      cases part <;> simp
  unfold ProductionPlatform.stop
  cases hserver : t.stands .server with
  | true =>
      rw [if_pos (by rw [hbooks.engaged, hserver])]
      exact wp_ask hserver fun _ => hrest
  | false =>
      rw [if_neg (by rw [hbooks.engaged, hserver]; exact Bool.false_ne_true)]
      exact hrest

/-! ## The stages -/

/-- The parts that a stage builds. -/
def Stage.makes : Stage → List Part
  | .initializeMySqlRuntime => [.clientLibrary]
  | .createDatabasePool => [.pool]
  | .assembleApplication => [.units, .sessions, .passwords, .application]
  | .assembleApi => [.server]
  | _ => []

/-- The parts that stand after some stages. -/
def built (done : List Stage) (part : Part) : Bool :=
  done.any fun stage => stage.makes.contains part

/-- What there is after the stages `done`, if all returned ok. -/
structure Built (done : List Stage) (t : Ledger) : Prop where
  stands : t.stands = built done
  listening : t.listening = done.contains .startHttpListener

/-- What a stage leaves: what it promises if it returns ok, and order in any case. -/
def Leaves (done : List Stage) (result : Option StartupResult) (platform : ProductionPlatform)
    (t : Ledger) : Prop :=
  Consistent platform t ∧ (startedOk result = true → Built done t)

theorem leaves_failed {done : List Stage} {result : Option StartupResult}
    (hbooks : Consistent platform t) (hfailed : startedOk result = false) :
    Leaves done result platform t :=
  ⟨hbooks, fun hok => absurd (hfailed.symm.trans hok) Bool.false_ne_true⟩

/-- Stages that build parts, up to what they make of a failure. -/
theorem makes_books (stage : Stage) {done : List Stage}
    {parts : List ((part : Part) × part.Options)} (hbooks : Consistent platform t)
    (hbuilt : Built done t) (hbuildable : CanBeBuilt (built done) parts)
    (hparts : parts.map Sigma.fst = stage.makes)
    (hstage : stage ≠ .startHttpListener) :
    wp booked allowed (fun r t' => Consistent r.2 t' ∧
      (r.1 = some (.ok ()) → Built (done ++ [stage]) t')) (platform.makeParts parts) t := by
  refine wp_post (makeParts_books hbooks (hbuilt.stands ▸ hbuildable)) ?_
  rintro r t' ⟨hkept, hthread, hstands⟩
  refine ⟨hkept, fun hok => ⟨funext fun part => ?_, ?_⟩⟩
  · have hmade : parts.any (fun p => p.1 = part) = stage.makes.contains part := by
      rw [← hparts, List.contains_eq_any_beq, List.any_map]
      congr 1
      funext p
      exact decide_eq_decide.mpr eq_comm
    rw [hstands hok part, hbuilt.stands, hmade]
    simp [built]
  · rw [hthread, hbuilt.listening]
    simp [hstage.symm]

theorem initializeMySqlRuntime_books (hbooks : Consistent platform t) (hbuilt : Built [] t)
    (c : ServerConfiguration) :
    wp booked allowed (fun r t' => Leaves [.initializeMySqlRuntime] r.1 r.2 t')
      (platform.initializeMySqlRuntime c) t := by
  refine wp_ask trivial fun answer => ?_
  match answer with
  | none => exact leaves_failed hbooks rfl
  | some (.error text) => exact leaves_failed hbooks rfl
  | some (.ok ()) =>
      refine (wp_bind _ _ _).mpr (wp_post (makes_books .initializeMySqlRuntime hbooks
        hbuilt ⟨rfl, by simp [Part.refersTo], trivial⟩ rfl (by decide)) ?_)
      rintro ⟨made, platform'⟩ t' ⟨hkept, hdone⟩
      match made with
      | none => exact leaves_failed hkept rfl
      | some (.error text) => exact leaves_failed hkept rfl
      | some (.ok ()) =>
          exact ⟨⟨hkept.engaged, hkept.listener, hkept.free, hkept.founded, hkept.served⟩,
            fun _ => hdone rfl⟩

theorem createDatabasePool_books (hbooks : Consistent platform t)
    (hbuilt : Built [.initializeMySqlRuntime] t) (c : ServerConfiguration) :
    wp booked allowed (fun r t' => Leaves [.initializeMySqlRuntime, .createDatabasePool] r.1 r.2 t')
      (platform.createDatabasePool c) t := by
  refine (wp_bind _ _ _).mpr (wp_post (makes_books .createDatabasePool hbooks hbuilt
    ⟨rfl, by decide, trivial⟩ rfl (by decide)) ?_)
  rintro ⟨made, platform'⟩ t' ⟨hkept, hdone⟩
  match made with
  | none => exact leaves_failed hkept rfl
  | some (.error text) => exact leaves_failed hkept rfl
  | some (.ok ()) =>
      have hbuilt' := hdone rfl
      refine wp_ask ⟨by rw [hbuilt'.stands]; rfl, hkept.free⟩ fun answer => ?_
      match answer with
      | none => exact leaves_failed (hkept.kept rfl rfl hkept.free) rfl
      | some (.error text) => exact leaves_failed (hkept.kept rfl rfl hkept.free) rfl
      | some (.ok ()) =>
          refine wp_ask ⟨by rw [Ledger.after, hbuilt'.stands]; rfl, rfl⟩ fun _ => ?_
          exact ⟨hkept.kept rfl rfl rfl, fun _ => ⟨hbuilt'.stands, hbuilt'.listening⟩⟩

/-- A stage that builds nothing, and is no listener. -/
theorem Built.and {done : List Stage} {stage : Stage} (hbuilt : Built done t)
    (hmakes : stage.makes = []) (hstage : stage ≠ .startHttpListener) :
    Built (done ++ [stage]) t where
  stands := by
    rw [hbuilt.stands]
    funext part
    simp [built, hmakes]
  listening := by
    rw [hbuilt.listening]
    simp [hstage.symm]

theorem runMigrations_books (hbooks : Consistent platform t)
    (hbuilt : Built [.initializeMySqlRuntime, .createDatabasePool] t) :
    wp booked allowed (fun r t' =>
      Leaves [.initializeMySqlRuntime, .createDatabasePool, .runMigrations] r.1 r.2 t')
      platform.runMigrations t := by
  have hpool : t.stands .pool = true := by
    rw [hbuilt.stands]
    rfl
  have hdone : Built [.initializeMySqlRuntime, .createDatabasePool, .runMigrations] t :=
    hbuilt.and rfl (by decide)
  refine wp_ask trivial fun answer => ?_
  match answer with
  | none => exact leaves_failed hbooks rfl
  | some (.error text) => exact leaves_failed hbooks rfl
  | some (.ok ()) =>
      refine wp_ask trivial fun answer => ?_
      match answer with
      | none => exact leaves_failed hbooks rfl
      | some (.error text) => exact leaves_failed hbooks rfl
      | some (.ok ()) =>
          refine wp_ask ⟨hpool, hbooks.free⟩ fun answer => ?_
          match answer with
          | none => exact leaves_failed (hbooks.kept rfl rfl hbooks.free) rfl
          | some (.error text) => exact leaves_failed (hbooks.kept rfl rfl hbooks.free) rfl
          | some (.ok ()) =>
              refine wp_ask ⟨hpool, rfl⟩ fun report => wp_ask ⟨hpool, rfl⟩ fun _ => ?_
              exact ⟨hbooks.kept rfl rfl rfl, fun _ => ⟨hdone.stands, hdone.listening⟩⟩

theorem runLegacyStartupChecks_books (hbooks : Consistent platform t)
    (hbuilt : Built [.initializeMySqlRuntime, .createDatabasePool, .runMigrations] t)
    (c : ServerConfiguration) :
    wp booked allowed (fun r t' => Leaves [.initializeMySqlRuntime, .createDatabasePool,
      .runMigrations, .runLegacyStartupChecks] r.1 r.2 t')
      (platform.runLegacyStartupChecks c) t := by
  have hdone : Built [.initializeMySqlRuntime, .createDatabasePool, .runMigrations,
    .runLegacyStartupChecks] t := hbuilt.and rfl (by decide)
  refine wp_ask ⟨by rw [hbuilt.stands]; rfl, hbooks.free⟩ fun answer => ?_
  match answer with
  | none => exact leaves_failed (hbooks.kept rfl rfl hbooks.free) rfl
  | some (.error e) => exact leaves_failed (hbooks.kept rfl rfl hbooks.free) rfl
  | some (.ok ()) =>
      exact ⟨hbooks.kept rfl rfl hbooks.free, fun _ => ⟨hdone.stands, hdone.listening⟩⟩

theorem assembleApplication_books (hbooks : Consistent platform t)
    (hbuilt : Built [.initializeMySqlRuntime, .createDatabasePool, .runMigrations,
      .runLegacyStartupChecks] t) :
    wp booked allowed (fun r t' => Leaves [.initializeMySqlRuntime, .createDatabasePool,
      .runMigrations, .runLegacyStartupChecks, .assembleApplication] r.1 r.2 t')
      platform.assembleApplication t := by
  refine (wp_bind _ _ _).mpr (wp_post (makes_books .assembleApplication hbooks hbuilt
    ⟨rfl, by decide, rfl, by decide, rfl, by decide, rfl, by decide, trivial⟩ rfl (by decide)) ?_)
  rintro ⟨made, platform'⟩ t' ⟨hkept, hdone⟩
  match made with
  | none => exact leaves_failed hkept rfl
  | some (.error text) => exact leaves_failed hkept rfl
  | some (.ok ()) => exact ⟨hkept, fun _ => hdone rfl⟩

theorem assembleApi_books (hbooks : Consistent platform t)
    (hbuilt : Built [.initializeMySqlRuntime, .createDatabasePool, .runMigrations,
      .runLegacyStartupChecks, .assembleApplication] t) :
    wp booked allowed (fun r t' => Leaves [.initializeMySqlRuntime, .createDatabasePool,
      .runMigrations, .runLegacyStartupChecks, .assembleApplication, .assembleApi] r.1 r.2 t')
      platform.assembleApi t := by
  refine (wp_bind _ _ _).mpr (wp_post (makes_books .assembleApi hbooks hbuilt
    ⟨rfl, by decide, trivial⟩ rfl (by decide)) ?_)
  rintro ⟨made, platform'⟩ t' ⟨hkept, hdone⟩
  match made with
  | none => exact leaves_failed hkept rfl
  | some (.error text) => exact leaves_failed hkept rfl
  | some (.ok ()) => exact ⟨hkept, fun _ => hdone rfl⟩

theorem giveUpListener_books (hbooks : Consistent platform t) (hserver : t.stands .server = true)
    (done : List Stage) :
    wp booked allowed (fun r t' => Leaves done r.1 r.2 t') platform.giveUpListener t := by
  refine wp_ask hserver fun _ => (wp_bind _ _ _).mpr (wp_post (joinListener_books hbooks) ?_)
  exact fun platform' t' hjoined => leaves_failed hjoined.1 rfl

/-- However the looks at the listener come out, it is running at the end or it is joined. -/
theorem awaitListener_books (hbooks : Consistent platform t) (hbuilt : Built stageOrder t)
    (rounds : ℕ) :
    wp booked allowed (fun r t' => Leaves stageOrder r.1 r.2 t')
      (platform.awaitListener rounds) t := by
  have hserver : t.stands .server = true := by
    rw [hbuilt.stands]
    rfl
  induction rounds with
  | zero => exact giveUpListener_books hbooks hserver stageOrder
  | succ rounds ih =>
      refine wp_ask trivial fun before => ?_
      cases before with
      | false => exact giveUpListener_books hbooks hserver stageOrder
      | true =>
          refine wp_ask trivial fun completed => ?_
          cases completed with
          | some listenerResult =>
              refine (wp_bind _ _ _).mpr (wp_post (joinListener_books hbooks) ?_)
              exact fun platform' t' hjoined => leaves_failed hjoined.1 rfl
          | none =>
              refine wp_ask hserver fun running => ?_
              cases running with
              | true => exact ⟨hbooks, fun _ => hbuilt⟩
              | false => exact wp_ask trivial fun _ => ih

theorem startHttpListener_books (hbooks : Consistent platform t)
    (hbuilt : Built [.initializeMySqlRuntime, .createDatabasePool, .runMigrations,
      .runLegacyStartupChecks, .assembleApplication, .assembleApi] t) (c : ServerConfiguration) :
    wp booked allowed (fun r t' => Leaves stageOrder r.1 r.2 t')
      (platform.startHttpListener c) t := by
  have hserver : t.stands .server = true := by
    rw [hbuilt.stands]
    rfl
  have hlistening : t.listening = false := by
    rw [hbuilt.listening]
    rfl
  refine wp_ask hserver fun bound => ?_
  match bound with
  | none => exact leaves_failed hbooks rfl
  | some false => exact leaves_failed hbooks rfl
  | some true =>
      refine wp_ask ⟨hserver, hlistening⟩ fun spawned => ?_
      cases spawned with
      | false => exact leaves_failed hbooks rfl
      | true =>
          have hdone : Built stageOrder { t with listening := true } := by
            refine ⟨?_, rfl⟩
            dsimp only
            rw [hbuilt.stands]
            funext part
            cases part <;> rfl
          have hjoinable : Consistent { platform with listener := true }
              { t with listening := true } :=
            ⟨hbooks.engaged, rfl, hbooks.free, hbooks.founded, fun _ => hserver⟩
          exact awaitListener_books hjoinable hdone _

/-! ## The platform under the root -/

/-- The platform, the ledger, and what the root knows of them. -/
structure Books (h : RootHistory) (platform : ProductionPlatform) (t : Ledger) : Prop where
  consistent : Consistent platform t
  built : stops h = 0 → (∀ e ∈ h, stageOk e = true) → Built (stagesCalled h) t

/-- The stages before one that is next. -/
theorem before_of_next {done : List Stage} {stage : Stage} (h : done ++ [stage] <+: stageOrder) :
    done = stageOrder.takeWhile (· ≠ stage) := by
  obtain ⟨rest, hrest⟩ := h
  have hnodup : stageOrder.Nodup := by decide
  rw [← hrest, List.append_assoc, List.nodup_append] at hnodup
  rw [← hrest, List.append_assoc, List.takeWhile_append_of_pos]
  · simp
  · intro other hmem
    have hne := hnodup.2.2 other hmem stage (by simp)
    simpa using hne

/-- What a stage leaves goes with what the root knows after it. -/
theorem Leaves.books {h : RootHistory} {stage : Stage} {c : ServerConfiguration}
    {result : Option StartupResult} {done : List Stage} (hleaves : Leaves done result platform t)
    (hdone : stagesCalled h ++ [stage] = done) :
    Books (h ++ [⟨.stage stage c, result⟩]) platform t where
  consistent := hleaves.1
  built _ hok := by
    rw [stagesCalled_snoc, show stagesCalled h ++ (RootCall.stage stage c).stage?.toList = done
      from hdone]
    exact hleaves.2 (hok ⟨.stage stage c, result⟩ (by simp))

/-- What does not reach the platform. -/
theorem Books.quiet {h : RootHistory} {event : Event RootCall RootCall.Answer}
    (hbooks : Books h platform t) (hstage : event.1.stage? = none) (hstop : event.1.isStop = false) :
    Books (h ++ [event]) platform t where
  consistent := hbooks.consistent
  built hrunning hok := by
    rw [stops_snoc, hstop] at hrunning
    rw [stagesCalled_snoc, hstage, Option.toList_none, List.append_nil]
    exact hbooks.built hrunning fun e he => hok e (List.mem_append_left _ he)

/-- Every call of the root that comes in its place is executed with every part in its place. -/
theorem production_books {op : RootCall} {h : RootHistory} (hbooks : Books h platform t)
    (hdemand : ∀ answer, LifeDemand h ⟨op, answer⟩) :
    wp booked allowed (fun answered t' => Books (h ++ [⟨op, answered.1⟩]) answered.2 t')
      (production op platform) t := by
  cases op with
  | load => exact wp_ask trivial fun answer => hbooks.quiet rfl rfl
  | wait => exact wp_ask trivial fun answer => hbooks.quiet rfl rfl
  | stop =>
      refine (wp_bind _ _ _).mpr (wp_post (stop_books hbooks.consistent) ?_)
      rintro platform' t' ⟨hkept, -⟩
      refine ⟨hkept, fun hrunning => ?_⟩
      rw [stops_snoc] at hrunning
      exact absurd hrunning (Nat.succ_ne_zero _)
  | stage stage c =>
      obtain ⟨hnext, hok, hrunning⟩ := (hdemand none).1 stage rfl
      have hbuilt := hbooks.built hrunning hok
      have hbefore := before_of_next hnext
      rw [hbefore] at hbuilt
      have hconsistent := hbooks.consistent
      cases stage with
      | initializeMySqlRuntime =>
          exact wp_post (initializeMySqlRuntime_books hconsistent hbuilt c)
            fun r t' hleaves => hleaves.books (by rw [hbefore]; rfl)
      | createDatabasePool =>
          exact wp_post (createDatabasePool_books hconsistent hbuilt c)
            fun r t' hleaves => hleaves.books (by rw [hbefore]; rfl)
      | runMigrations =>
          exact wp_post (runMigrations_books hconsistent hbuilt)
            fun r t' hleaves => hleaves.books (by rw [hbefore]; rfl)
      | runLegacyStartupChecks =>
          exact wp_post (runLegacyStartupChecks_books hconsistent hbuilt c)
            fun r t' hleaves => hleaves.books (by rw [hbefore]; rfl)
      | assembleApplication =>
          exact wp_post (assembleApplication_books hconsistent hbuilt)
            fun r t' hleaves => hleaves.books (by rw [hbefore]; rfl)
      | assembleApi =>
          exact wp_post (assembleApi_books hconsistent hbuilt)
            fun r t' hleaves => hleaves.books (by rw [hbefore]; rfl)
      | startHttpListener =>
          exact wp_post (startHttpListener_books hconsistent hbuilt c)
            fun r t' hleaves => hleaves.books (by rw [hbefore]; rfl)

/-- A whole life, call by call of the platform. -/
theorem platformLife_books (methods : List RootMethod) :
    wp booked allowed (fun _ t => t.AtRest) (platformLife methods) {} := by
  have hnothing : Books [] {} {} := ⟨consistent_init, fun _ _ => ⟨rfl, rfl⟩⟩
  have hhandle : ∀ op h platform t, Books h platform t →
      (∀ answer h', recording op h answer h' → demand LifeDemand op h answer h') →
      wp booked allowed (fun answered t' => ∃ h', recording op h answered.1 h' ∧
        Books h' answered.2 t') (production op platform) t := by
    intro op h platform t hbooks hdemand
    exact wp_post (production_books hbooks fun answer => hdemand answer _ rfl)
      fun answered t' hafter => ⟨_, rfl, hafter⟩
  have hlife := wp_interpret hhandle (lifetime_sound methods) hnothing
  refine (wp_bind _ _ _).mpr (wp_post hlife ?_)
  rintro ⟨starts, platform⟩ t ⟨h, -, hbooks⟩
  exact (wp_bind _ _ _).mpr (wp_post (stop_books hbooks.consistent) fun _ _ hended => hended.2)

end Ledgers

theorem ledger_snoc (h : PlatformHistory) (event : Event PlatformCall PlatformCall.Answer) :
    ledger (h ++ [event]) = (ledger h).after event := by
  unfold ledger
  rw [List.foldl_append]
  rfl

/-- Every call was all right when it was made. -/
def Orderly (events : PlatformHistory) : Prop :=
  ∀ past event future, events = past ++ event :: future → (ledger past).Allows event.1

/-- What is proved of the ledger holds of the histories that it is kept of. -/
theorem runs_booked {α : Type} {Q : α → Ledger → Prop} {p : PlatformProgram α} {a : α}
    {events more : PlatformHistory} (hp : wp booked allowed Q p (ledger events))
    (horderly : Orderly events) (hrun : Runs p more a) :
    Q a (ledger (events ++ more)) ∧ Orderly (events ++ more) := by
  have hwph : wph (fun h event => (ledger h).Allows event.1) (fun a h => Q a (ledger h))
      p events := by
    refine wp_project ledger hp ?_
    rintro op h answer h' rfl
    exact ledger_snoc h ⟨op, answer⟩
  obtain ⟨hpost, hallows⟩ := runs_of_wp hwph hrun
  refine ⟨hpost, fun past event future hsplit => ?_⟩
  rcases List.append_eq_append_iff.mp hsplit with ⟨between, rfl, hmore⟩ | ⟨between, hevents, hrest⟩
  · exact hallows between event future hmore
  · cases between with
    | nil =>
        rw [List.append_nil] at hevents
        rw [← hevents]
        simpa using hallows [] event future hrest.symm
    | cons first between =>
        obtain ⟨rfl, -⟩ := List.cons_eq_cons.mp hrest
        exact horderly past event between hevents

theorem orderly_nil : Orderly [] :=
  fun past event future hsplit => by simp at hsplit

/-- Nothing dangles.  However the methods of the composition root are called, whatever fails or
throws, and however the listener comes up: every part that is used stands; no part is built before
what it refers to, or twice, or destroyed before what refers to it; the thread of the listener is
joined before its server is destroyed; the pool has its connections back when it is destroyed, and
nobody asks it for one while holding one; the client library ends after the context of the thread;
and at the end of the life nothing is left. -/
theorem platform_life {methods : List RootMethod} {events : PlatformHistory}
    {starts : List (Option StartupResult)} (hrun : Runs (platformLife methods) events starts) :
    (∀ past event future, events = past ++ event :: future → (ledger past).Allows event.1) ∧
      (ledger events).AtRest := by
  obtain ⟨hrest, horderly⟩ := runs_booked (platformLife_books methods) orderly_nil hrun
  exact ⟨horderly, hrest⟩

/-- A machine on which the address is taken. -/
private def addressTaken : (op : PlatformCall) → Unit → op.Answer × Unit
  | .load, s => (some completeSource, s)
  | .wait, s => (some (), s)
  | .initializePasswordHashing, s | .make .., s | .acquire, s | .discoverMigrations, s
  | .readMigrationBootstrapSql, s => (some (.ok ()), s)
  | .migrate, s => (some { status := .succeeded }, s)
  | .runLegacyStartupChecks _, s => (some (.ok ()), s)
  | .bind .., s => (some false, s)
  | .spawn, s | .beforeDeadline, s | .isRunning, s => (false, s)
  | .completed, s => (none, s)
  | .drop _, s | .giveBack, s | .sleep, s | .stopServer, s | .join, s
  | .releaseThreadContext, s => ((), s)

/-- All parts are built, the listener fails, and everything is taken down again. -/
theorem platform_life_addressTaken :
    (ledger (((platformLife [.start]).exec addressTaken ()).1.take 19)).stands .server = true ∧
      (ledger ((platformLife [.start]).exec addressTaken ()).1).AtRest :=
  ⟨by decide +kernel, (platform_life (runs_exec addressTaken (platformLife [.start]) ())).2⟩

/-! ## The platform of the process -/

/-- The calls of a root that a platform has carried out, and its own calls for them. -/
inductive Carried : RootHistory → ProductionPlatform → PlatformHistory → Prop
  | nothing : Carried [] {} []
  | call {h : RootHistory} {platform platform' : ProductionPlatform} {op : RootCall}
      {answer : op.Answer} {events more : PlatformHistory} (hcarried : Carried h platform events)
      (hrun : Runs (production op platform) more (answer, platform')) :
      Carried (h ++ [⟨op, answer⟩]) platform' (events ++ more)

theorem ServerProcess.Heeded.init {calls : RootHistory} {event : Event RootCall RootCall.Answer}
    (h : ServerProcess.Heeded (calls ++ [event])) : ServerProcess.Heeded calls ∧ LifeDemand calls event := by
  refine ⟨fun past earlier future hsplit => ?_, h calls event [] rfl⟩
  exact h past earlier (future ++ [event]) (by rw [hsplit]; simp)

/-- What a root calls in its order is carried out in order. -/
theorem carried_books {h : RootHistory} {platform : ProductionPlatform} {events : PlatformHistory}
    (hcarried : Carried h platform events) (hheeded : ServerProcess.Heeded h) :
    Books h platform (ledger events) ∧ Orderly events := by
  induction hcarried with
  | nothing => exact ⟨⟨consistent_init, fun _ _ => ⟨rfl, rfl⟩⟩, orderly_nil⟩
  | call _ hrun ih =>
      obtain ⟨hpast, hdemand⟩ := hheeded.init
      obtain ⟨hbooks, horderly⟩ := ih hpast
      have hcarried := runs_booked (production_books hbooks fun _ => hdemand) horderly hrun
      exact hcarried

/-- The platform of `runWarehouseServer`, which is destroyed after the root: in every state that the
process comes to it has done everything in order, and its destructor leaves nothing. -/
theorem process_orderly {oneShot : Bool} {ignored : StopSignal → Bool} {s : ServerProcess}
    {platform : ProductionPlatform} {events : PlatformHistory}
    (hreachable : ServerProcess.Reachable oneShot (ServerProcess.launched ignored) s)
    (hcarried : Carried s.calls platform events) :
    Orderly events ∧ ∀ more platform', Runs platform.stop more platform' →
      Orderly (events ++ more) ∧ (ledger (events ++ more)).AtRest := by
  obtain ⟨hbooks, horderly⟩ :=
    carried_books hcarried (ServerProcess.ruled_of_reachable hreachable).heeded
  refine ⟨horderly, fun more platform' hrun => ?_⟩
  obtain ⟨⟨-, hrest⟩, hmore⟩ := runs_booked (stop_books hbooks.consistent) horderly hrun
  exact ⟨hmore, hrest⟩

end Warehouse.Bootstrap
