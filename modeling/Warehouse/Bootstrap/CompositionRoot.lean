/-
# Warehouse.Bootstrap.CompositionRoot — starting and stopping the server

`composition_root.cpp`, over the platform and the configuration source as an environment that
answers as it likes.  A stage of the platform returns, fails, or throws; a method that lets an
exception through returns `none`, and leaves the root as it was when the exception passed.
-/
import Warehouse.Bootstrap.Configuration
import Warehouse.Interaction.History

namespace Warehouse.Bootstrap

open Warehouse.Interaction Warehouse.Interaction.Program

/-! ## Results -/

/-- `StartupStage`, as far as the composition root reports them. -/
inductive StartupStage
  | configuration | mySqlRuntime | databasePool | migration | legacyStartupCheck
  | applicationAssembly | apiAssembly | httpListen
  deriving DecidableEq, Repr

/-- `StartupFailure`, with its stage. -/
structure StageFailure where
  stage : StartupStage
  code : Bytes
  message : Bytes
  deriving DecidableEq, Repr

/-- `StartupResult` -/
structure StartupResult where
  failure : Option StageFailure := none
  deriving DecidableEq, Repr

/-- `StartupResult::ok` -/
def StartupResult.ok (result : StartupResult) : Bool := result.failure.isNone

/-- `configurationFailure` -/
def configurationFailure (result : ConfigurationResult) : StartupResult where
  failure := some
    { stage := .configuration
      code := lit "invalid_configuration"
      message := result.issues.foldl
        (fun message issue => message ++ lit "; " ++ issue.key ++ lit ": " ++ issue.message)
        (lit "invalid server configuration") }

/-- `alreadyStartedFailure` -/
def alreadyStartedFailure : StartupResult where
  failure := some
    { stage := .configuration
      code := lit "already_started"
      message := lit "the composition root can only be started once" }

/-! ## What the root calls -/

/-- The stages of `StartupPlatform`. -/
inductive Stage
  | initializeMySqlRuntime | createDatabasePool | runMigrations | runLegacyStartupChecks
  | assembleApplication | assembleApi | startHttpListener
  deriving DecidableEq, Repr

/-- The order of the stages. -/
def stageOrder : List Stage :=
  [.initializeMySqlRuntime, .createDatabasePool, .runMigrations, .runLegacyStartupChecks,
    .assembleApplication, .assembleApi, .startHttpListener]

/-- The calls that leave the root: reading the source, a stage with the configuration it may look
at, `ShutdownCoordinator::wait`, and `StartupPlatform::stop`. -/
inductive RootCall
  | load
  | stage (stage : Stage) (configuration : ServerConfiguration)
  | wait
  | stop

/-- What calls return; nothing if they throw. -/
abbrev RootCall.Answer : RootCall → Type
  | .load => Option ConfigurationSource
  | .stage .. => Option StartupResult
  | .wait => Option Unit
  | .stop => Unit

/-- Code of the composition root. -/
abbrev RootProgram : Type → Type := Program RootCall RootCall.Answer

/-! ## The composition root -/

/-- The flags of `CompositionRoot`. -/
structure CompositionRoot where
  platformTouched : Bool := false
  started : Bool := false
  stopped : Bool := false
  deriving DecidableEq, Repr

/-- The chain `if (result.ok()) result = ...` over the stages that are left. -/
def runStages (configuration : ServerConfiguration) :
    List Stage → StartupResult → RootProgram (Option StartupResult)
  | [], result => return some result
  | stage :: stages, result =>
      if result.ok then do
        match ← (perform (RootCall.stage stage configuration) : RootProgram (Option StartupResult)) with
        | none => return none
        | some result => runStages configuration stages result
      else runStages configuration stages result

namespace CompositionRoot

/-- `CompositionRoot::stop` -/
def stop (root : CompositionRoot) : RootProgram CompositionRoot :=
  if root.stopped || !root.platformTouched then return root
  else do
    (perform RootCall.stop : RootProgram Unit)
    return { root with stopped := true, started := false }

/-- `start` with a configuration. -/
def startPlatform (root : CompositionRoot) (configuration : ServerConfiguration) :
    RootProgram (Option StartupResult × CompositionRoot) := do
  let root := { root with platformTouched := true }
  -- an exception leaves the platform touched, and not stopped
  match ← runStages configuration stageOrder {} with
  | none => return (none, root)
  | some result =>
      if !result.ok then do
        let root ← root.stop
        return (some result, root)
      else return (some {}, { root with started := true })

/-- `CompositionRoot::start` -/
def start (root : CompositionRoot) : RootProgram (Option StartupResult × CompositionRoot) :=
  if root.started || root.stopped || root.platformTouched then
    return (some alreadyStartedFailure, root)
  else do
    match ← (perform RootCall.load : RootProgram (Option ConfigurationSource)) with
    | none => return (none, root)
    | some source =>
        let loaded := loadServerConfiguration source
        match loaded.configuration with
        | some configuration =>
            if loaded.ok then root.startPlatform configuration
            else return (some (configurationFailure loaded), root)
        | none => return (some (configurationFailure loaded), root)

/-- `CompositionRoot::run`; what its `start` returned is kept beside the root. -/
def run (root : CompositionRoot) : RootProgram (Option StartupResult × CompositionRoot) := do
  let (result, root) ← root.start
  match result with
  | none => return (none, root)
  | some started =>
      if !started.ok then return (some started, root)
      else do
        match ← (perform RootCall.wait : RootProgram (Option Unit)) with
        -- an exception out of the wait passes the `stop` by
        | none => return (some started, root)
        | some () => do
            let root ← root.stop
            return (some started, root)

end CompositionRoot

/-! ## A life -/

/-- The methods of a composition root. -/
inductive RootMethod
  | start | run | stop
  deriving DecidableEq, Repr

/-- One call of a method, whose caller survives exceptions.  The results of `start` are collected,
those of the `start` inside `run` with them. -/
def callMethod (life : List (Option StartupResult) × CompositionRoot) (method : RootMethod) :
    RootProgram (List (Option StartupResult) × CompositionRoot) := do
  match method with
  | .start =>
      let (result, root) ← life.2.start
      return (life.1 ++ [result], root)
  | .run =>
      let (result, root) ← life.2.run
      return (life.1 ++ [result], root)
  | .stop =>
      let root ← life.2.stop
      return (life.1, root)

/-- A root that is made, called, and destroyed: what its `start` calls returned. -/
def lifetime (methods : List RootMethod) : RootProgram (List (Option StartupResult)) := do
  let (starts, root) ← methods.foldlM callMethod ([], {})
  let _ ← root.stop
  return starts

/-! ## What a history says -/

/-- The calls and answers of a life. -/
abbrev RootHistory : Type := History RootCall RootCall.Answer

/-- The stage that a call is. -/
def RootCall.stage? : RootCall → Option Stage
  | .stage s _ => some s
  | _ => none

/-- Whether a call is `StartupPlatform::stop`. -/
def RootCall.isStop : RootCall → Bool
  | .stop => true
  | _ => false

/-- The calls that reach the platform. -/
def RootCall.touchesPlatform (op : RootCall) : Bool := op.stage?.isSome || op.isStop

/-- What the configuration source answered, if it was asked. -/
def loaded? : Event RootCall RootCall.Answer → Option (Option ConfigurationSource)
  | ⟨.load, answer⟩ => some answer
  | _ => none

/-- A stage that returned ok; anything that is not a stage passes. -/
def stageOk : Event RootCall RootCall.Answer → Bool
  | ⟨.stage .., answer⟩ => answer.any StartupResult.ok
  | _ => true

/-- The stages that were called, in order. -/
def stagesCalled (h : RootHistory) : List Stage := h.filterMap fun event => event.1.stage?

/-- How often `StartupPlatform::stop` was called. -/
def stops (h : RootHistory) : ℕ := h.countP fun event => event.1.isStop

/-- The configuration that was loaded last is valid. -/
def LastLoadValid (h : RootHistory) : Prop :=
  ∃ source, (h.filterMap loaded?).getLast? = some (some source) ∧
    (loadServerConfiguration source).ok = true

/-- A `start` that returned ok. -/
def startedOk (start : Option StartupResult) : Bool := start.any StartupResult.ok

section Histories

variable {h : RootHistory} {event : Event RootCall RootCall.Answer}

theorem stagesCalled_snoc :
    stagesCalled (h ++ [event]) = stagesCalled h ++ event.1.stage?.toList := by
  unfold stagesCalled
  rw [List.filterMap_append]
  cases hstage : event.1.stage? <;> simp [hstage]

theorem stops_snoc : stops (h ++ [event]) = stops h + if event.1.isStop then 1 else 0 := by
  simp [stops, List.countP_append, List.countP_singleton]

theorem LastLoadValid.snoc (hvalid : LastLoadValid h) (hevent : loaded? event = none) :
    LastLoadValid (h ++ [event]) := by
  obtain ⟨source, hlast, hok⟩ := hvalid
  refine ⟨source, ?_, hok⟩
  rw [List.filterMap_append]
  simpa [hevent] using hlast

theorem lastLoadValid_load {source : ConfigurationSource}
    (hok : (loadServerConfiguration source).ok = true) :
    LastLoadValid (h ++ [⟨.load, some source⟩]) := by
  refine ⟨source, ?_, hok⟩
  rw [List.filterMap_append]
  simp [loaded?]

theorem forall_stageOk_snoc {e : Event RootCall RootCall.Answer}
    (hall : ∀ e ∈ h, stageOk e = true) (he : stageOk e = true) :
    ∀ e' ∈ h ++ [e], stageOk e' = true := by
  intro e' he'
  rcases List.mem_append.mp he' with hold | hnew
  · exact hall e' hold
  · rw [List.mem_singleton.mp hnew]
    exact he

/-- Where no stage was called, none has failed. -/
theorem stageOk_of_untouched (h₀ : stagesCalled h = []) : ∀ e ∈ h, stageOk e = true := by
  intro e he
  have hnone : e.1.stage? = none := by
    have hall := List.filterMap_eq_nil_iff.mp h₀
    exact hall e he
  obtain ⟨op, answer⟩ := e
  cases op <;> first | rfl | cases hnone

end Histories

/-! ## The life cycle -/

/-- What every call of a life has to meet: a stage is the next one, after stages that all returned
ok and before any stop; and nothing reaches the platform but on a valid configuration. -/
def LifeDemand (h : RootHistory) (event : Event RootCall RootCall.Answer) : Prop :=
  (∀ stage, event.1.stage? = some stage →
    stagesCalled h ++ [stage] <+: stageOrder ∧ (∀ e ∈ h, stageOk e = true) ∧ stops h = 0) ∧
    (event.1.touchesPlatform = true → LastLoadValid h)

theorem lifeDemand_load (h : RootHistory) (answer : Option ConfigurationSource) :
    LifeDemand h ⟨.load, answer⟩ := by
  constructor
  · intro stage hstage
    cases hstage
  · intro htouches
    cases htouches

theorem lifeDemand_wait (h : RootHistory) (answer : Option Unit) : LifeDemand h ⟨.wait, answer⟩ := by
  constructor
  · intro stage hstage
    cases hstage
  · intro htouches
    cases htouches

/-- The invariant: how the flags of the root and the results of `start` go with the history. -/
structure LifeSound (starts : List (Option StartupResult)) (root : CompositionRoot)
    (h : RootHistory) : Prop where
  order : stagesCalled h <+: stageOrder
  touched : root.platformTouched = true ↔ stagesCalled h ≠ []
  stopped : stops h = if root.stopped then 1 else 0
  stoppedTouched : root.stopped = true → root.platformTouched = true
  valid : root.platformTouched = true → LastLoadValid h
  once : starts.countP startedOk ≤ if root.platformTouched then 1 else 0
  complete : 0 < starts.countP startedOk →
    stagesCalled h = stageOrder ∧ ∀ e ∈ h, stageOk e = true

/-- While stages run: those of `done` were called and returned ok. -/
structure StagesDone (done : List Stage) (h : RootHistory) : Prop where
  called : stagesCalled h = done
  ok : ∀ e ∈ h, stageOk e = true
  running : stops h = 0
  valid : LastLoadValid h

/-- After the stages: some of them were called, and if the result is ok all of them. -/
structure StagesOver (result : Option StartupResult) (h : RootHistory) : Prop where
  order : stagesCalled h <+: stageOrder
  some : stagesCalled h ≠ []
  running : stops h = 0
  valid : LastLoadValid h
  complete : startedOk result = true → stagesCalled h = stageOrder ∧ ∀ e ∈ h, stageOk e = true

theorem runStages_failed (c : ServerConfiguration) (stages : List Stage) {result : StartupResult}
    (hfailed : result.ok = false) : runStages c stages result = .ret (some result) := by
  induction stages with
  | nil => rfl
  | cons stage stages ih =>
      rw [runStages, if_neg (by rw [hfailed]; exact Bool.false_ne_true)]
      exact ih

/-- The chain of stages, one stage at a time. -/
theorem runStages_sound (c : ServerConfiguration) {stages done : List Stage}
    {result : StartupResult} {h : RootHistory} (horder : done ++ stages = stageOrder)
    (hdone : StagesDone done h) (hok : result.ok = true) :
    wph LifeDemand StagesOver (runStages c stages result) h := by
  induction stages generalizing done result h with
  | nil =>
      rw [List.append_nil] at horder
      have hall : stagesCalled h = stageOrder := hdone.called.trans horder
      exact
        { order := hall ▸ List.prefix_refl stageOrder
          some := hall ▸ (by decide : stageOrder ≠ [])
          running := hdone.running
          valid := hdone.valid
          complete := fun _ => ⟨hall, hdone.ok⟩ }
  | cons stage stages ih =>
      rw [runStages, if_pos hok, perform_bind, wph_call]
      intro answer
      let event : Event RootCall RootCall.Answer := ⟨.stage stage c, answer⟩
      have hcalled : stagesCalled (h ++ [event]) = done ++ [stage] := by
        rw [stagesCalled_snoc, hdone.called]
        rfl
      have hnext : (done ++ [stage]) ++ stages = stageOrder := by
        rw [List.append_assoc, List.singleton_append]
        exact horder
      have hfront : done ++ [stage] <+: stageOrder := ⟨stages, hnext⟩
      have hrunning : stops (h ++ [event]) = 0 := by
        rw [stops_snoc, hdone.running]
        rfl
      have hvalid : LastLoadValid (h ++ [event]) := hdone.valid.snoc rfl
      have hdemand : LifeDemand h event := by
        refine ⟨?_, fun _ => hdone.valid⟩
        intro stage' hstage'
        obtain rfl : stage = stage' := Option.some_inj.mp hstage'
        rw [hdone.called]
        exact ⟨hfront, hdone.ok, hdone.running⟩
      have hover : ∀ result, startedOk result = false → StagesOver result (h ++ [event]) := by
        intro result hfailed
        exact
          { order := by rw [hcalled]; exact hfront
            some := by rw [hcalled]; simp
            running := hrunning
            valid := hvalid
            complete := by rw [hfailed]; exact fun hfalse => absurd hfalse Bool.false_ne_true }
      refine ⟨hdemand, ?_⟩
      cases answer with
      | none => exact hover none rfl
      | some result' =>
          cases hresult : result'.ok with
          | false =>
              show wph LifeDemand StagesOver (runStages c stages result') _
              rw [runStages_failed c stages hresult]
              exact hover (some result') hresult
          | true =>
              have hoks := forall_stageOk_snoc (e := event) hdone.ok hresult
              exact ih hnext ⟨hcalled, hoks, hrunning, hvalid⟩ hresult

section Methods

variable {starts : List (Option StartupResult)} {root : CompositionRoot} {h : RootHistory}

/-- A call that is no stage and no stop, in a life whose configuration is loaded. -/
theorem LifeSound.waited (hsound : LifeSound starts root h) (answer : Option Unit) :
    LifeSound starts root (h ++ [⟨.wait, answer⟩]) := by
  have hcalled : stagesCalled (h ++ [⟨.wait, answer⟩]) = stagesCalled h := by
    rw [stagesCalled_snoc]
    exact List.append_nil _
  have hstops : stops (h ++ [⟨.wait, answer⟩]) = stops h := stops_snoc
  exact
    { order := by rw [hcalled]; exact hsound.order
      touched := by rw [hcalled]; exact hsound.touched
      stopped := by rw [hstops]; exact hsound.stopped
      stoppedTouched := hsound.stoppedTouched
      valid := fun htouched => (hsound.valid htouched).snoc rfl
      once := hsound.once
      complete := by
        intro hpos
        obtain ⟨hall, hok⟩ := hsound.complete hpos
        rw [hcalled]
        exact ⟨hall, forall_stageOk_snoc hok rfl⟩ }

theorem stop_sound (hsound : LifeSound starts root h) :
    wph LifeDemand (fun root' h' => LifeSound starts root' h' ∧
      (root'.platformTouched = true → root'.stopped = true)) root.stop h := by
  unfold CompositionRoot.stop
  split
  · rename_i hskip
    refine ⟨hsound, fun htouched => ?_⟩
    simpa [htouched] using hskip
  · rename_i hgo
    simp only [Bool.or_eq_true, Bool.not_eq_true', not_or, Bool.not_eq_true,
      Bool.not_eq_false] at hgo
    obtain ⟨hrunning, htouched⟩ := hgo
    rw [perform_bind, wph_call]
    intro answer
    have hcalled : stagesCalled (h ++ [⟨.stop, answer⟩]) = stagesCalled h := by
      rw [stagesCalled_snoc]
      exact List.append_nil _
    have hstops : stops (h ++ [⟨.stop, answer⟩]) = 1 := by
      rw [stops_snoc, hsound.stopped, hrunning]
      rfl
    refine ⟨⟨fun _ hnone => (nomatch hnone), fun _ => hsound.valid htouched⟩, ?_, fun _ => rfl⟩
    exact
      { order := by rw [hcalled]; exact hsound.order
        touched := by rw [hcalled]; exact hsound.touched
        stopped := hstops
        stoppedTouched := fun _ => htouched
        valid := fun _ => (hsound.valid htouched).snoc rfl
        once := hsound.once
        complete := by
          intro hpos
          obtain ⟨hall, hok⟩ := hsound.complete hpos
          rw [hcalled]
          exact ⟨hall, forall_stageOk_snoc hok rfl⟩ }

/-- After the stages the root knows whether it has started; a failure stops the platform. -/
theorem startPlatform_sound (c : ServerConfiguration) (hsound : LifeSound starts root h)
    (huntouched : root.platformTouched = false) (hvalid : LastLoadValid h) :
    wph LifeDemand (fun r h' => LifeSound (starts ++ [r.1]) r.2 h') (root.startPlatform c) h := by
  have hnone : stagesCalled h = [] := by
    by_contra hne
    rw [hsound.touched.mpr hne] at huntouched
    cases huntouched
  have hrunning : root.stopped = false := by
    cases hstopped : root.stopped with
    | false => rfl
    | true =>
        rw [hsound.stoppedTouched hstopped] at huntouched
        cases huntouched
  have hstops : stops h = 0 := by
    rw [hsound.stopped, hrunning]
    rfl
  have hzero : starts.countP startedOk = 0 := by
    have honce := hsound.once
    rw [huntouched] at honce
    exact Nat.le_zero.mp honce
  have hbegin : StagesDone [] h := ⟨hnone, stageOk_of_untouched hnone, hstops, hvalid⟩
  unfold CompositionRoot.startPlatform
  refine (wp_bind _ _ _).mpr (wp_post (runStages_sound c (List.nil_append _) hbegin rfl) ?_)
  intro result h' hover
  -- whatever the stages returned, the root that has touched the platform goes with the history
  have hafter : ∀ started, LifeSound (starts ++ [result])
      { root with platformTouched := true, started := started } h' := by
    intro started
    have hcount : (starts ++ [result]).countP startedOk = if startedOk result then 1 else 0 := by
      rw [List.countP_append, List.countP_singleton, hzero, Nat.zero_add]
    exact
      { order := hover.order
        touched := ⟨fun _ => hover.some, fun _ => rfl⟩
        stopped := by rw [hover.running]; simp [hrunning]
        stoppedTouched := fun _ => rfl
        valid := fun _ => hover.valid
        once := by rw [hcount]; simp only [if_true]; split <;> omega
        complete := by
          intro hpos
          refine hover.complete ?_
          by_contra hnot
          rw [hcount, if_neg hnot] at hpos
          omega }
  cases result with
  | none => exact hafter root.started
  | some result =>
      cases hok : result.ok with
      | false =>
          simp only [hok, Bool.not_false, if_true]
          refine (wp_bind _ _ _).mpr (wp_post (stop_sound (hafter root.started)) ?_)
          exact fun root' h'' hstopped => hstopped.1
      | true =>
          simp only [hok, Bool.not_true, Bool.false_eq_true, if_false]
          obtain ⟨failure⟩ := result
          cases failure with
          | none => exact hafter true
          | some failure => cases hok

/-- A `start` that does not touch the platform adds a result that is not ok. -/
theorem LifeSound.refused (hsound : LifeSound starts root h) {result : Option StartupResult}
    (hfailed : startedOk result = false) : LifeSound (starts ++ [result]) root h := by
  have hcount : (starts ++ [result]).countP startedOk = starts.countP startedOk := by
    rw [List.countP_append, List.countP_singleton, hfailed]
    rfl
  exact
    { hsound with
      once := by rw [hcount]; exact hsound.once
      complete := by rw [hcount]; exact hsound.complete }

theorem start_sound (hsound : LifeSound starts root h) :
    wph LifeDemand (fun r h' => LifeSound (starts ++ [r.1]) r.2 h') root.start h := by
  unfold CompositionRoot.start
  split
  · exact hsound.refused rfl
  · rename_i hfresh
    simp only [Bool.or_eq_true, not_or, Bool.not_eq_true] at hfresh
    obtain ⟨_, huntouched⟩ := hfresh
    rw [perform_bind, wph_call]
    intro answer
    have hcalled : stagesCalled (h ++ [⟨.load, answer⟩]) = stagesCalled h := by
      rw [stagesCalled_snoc]
      exact List.append_nil _
    have hstops : stops (h ++ [⟨.load, answer⟩]) = stops h := stops_snoc
    have hloaded : LifeSound starts root (h ++ [⟨.load, answer⟩]) :=
      { order := by rw [hcalled]; exact hsound.order
        touched := by rw [hcalled]; exact hsound.touched
        stopped := by rw [hstops]; exact hsound.stopped
        stoppedTouched := hsound.stoppedTouched
        valid := by rw [huntouched]; exact fun hfalse => absurd hfalse Bool.false_ne_true
        once := hsound.once
        complete := by
          intro hpos
          obtain ⟨hall, hok⟩ := hsound.complete hpos
          rw [hcalled]
          exact ⟨hall, forall_stageOk_snoc hok rfl⟩ }
    refine ⟨lifeDemand_load h answer, ?_⟩
    cases answer with
    | none => exact hloaded.refused rfl
    | some source =>
        have hinvalid : startedOk (some (configurationFailure (loadServerConfiguration source))) =
            false := rfl
        dsimp only
        split
        · rename_i configuration _
          split
          · rename_i hok
            exact startPlatform_sound configuration hloaded huntouched (lastLoadValid_load hok)
          · exact hloaded.refused hinvalid
        · exact hloaded.refused hinvalid

theorem run_sound (hsound : LifeSound starts root h) :
    wph LifeDemand (fun r h' => LifeSound (starts ++ [r.1]) r.2 h') root.run h := by
  unfold CompositionRoot.run
  refine (wp_bind _ _ _).mpr (wp_post (start_sound hsound) ?_)
  rintro ⟨result, root'⟩ h' hstarted
  cases result with
  | none => exact hstarted
  | some started =>
      dsimp only
      split
      · exact hstarted
      · refine (wph_call RootCall.wait _ h').mpr fun answer => ⟨lifeDemand_wait h' answer, ?_⟩
        cases answer with
        | none => exact hstarted.waited none
        | some _ =>
            refine (wp_bind root'.stop _ _).mpr (wp_post (stop_sound (hstarted.waited (some ()))) ?_)
            exact fun root'' h'' hstopped => hstopped.1

theorem callMethod_sound {life : List (Option StartupResult) × CompositionRoot}
    (hsound : LifeSound life.1 life.2 h) (method : RootMethod) :
    wph LifeDemand (fun life' h' => LifeSound life'.1 life'.2 h') (callMethod life method) h := by
  cases method with
  | start =>
      refine (wp_bind _ _ _).mpr (wp_post (start_sound hsound) ?_)
      exact fun r h' hstarted => hstarted
  | run =>
      refine (wp_bind _ _ _).mpr (wp_post (run_sound hsound) ?_)
      exact fun r h' hran => hran
  | stop =>
      refine (wp_bind _ _ _).mpr (wp_post (stop_sound hsound) ?_)
      exact fun root' h' hstopped => hstopped.1

end Methods

theorem lifeSound_init : LifeSound [] {} [] where
  order := List.nil_prefix
  touched := by simp [stagesCalled]
  stopped := rfl
  stoppedTouched := fun hfalse => absurd hfalse Bool.false_ne_true
  valid := fun hfalse => absurd hfalse Bool.false_ne_true
  once := Nat.le_refl 0
  complete := fun hpos => absurd hpos (Nat.lt_irrefl 0)

/-- A whole life ends with a platform that was stopped if it was ever touched. -/
theorem lifetime_sound (methods : List RootMethod) :
    wph LifeDemand (fun starts h => ∃ root, LifeSound starts root h ∧
      (root.platformTouched = true → root.stopped = true)) (lifetime methods) [] := by
  have hmethods : wph LifeDemand (fun life h => LifeSound life.1 life.2 h)
      (methods.foldlM callMethod ([], {})) [] :=
    wp_foldlM (fun life method h hsound => callMethod_sound hsound method) lifeSound_init
  refine (wp_bind _ _ _).mpr (wp_post hmethods ?_)
  rintro ⟨starts, root⟩ h hsound
  refine (wp_bind _ _ _).mpr (wp_post (stop_sound hsound) ?_)
  exact fun root' h' hstopped => ⟨root', hstopped⟩

/-- The life cycle.  However the methods of a composition root are called, and however source and
platform answer: the stages are called in their order, each after all earlier ones returned ok and
none after the platform was stopped; the platform is stopped once if it was touched, and never
otherwise; `start` returns ok once at most, and only after every stage did; and while the loaded
configuration is invalid nothing reaches the platform. -/
theorem lifeCycle {methods : List RootMethod} {events : RootHistory}
    {starts : List (Option StartupResult)} (hrun : Runs (lifetime methods) events starts) :
    stagesCalled events <+: stageOrder ∧ (stagesCalled events).Nodup ∧
      (∀ past event future stage, events = past ++ event :: future →
        event.1.stage? = some stage →
        stagesCalled past ++ [stage] <+: stageOrder ∧ (∀ e ∈ past, stageOk e = true) ∧
          stops past = 0) ∧
      stops events = (if stagesCalled events = [] then 0 else 1) ∧
      starts.countP startedOk ≤ 1 ∧
      ((∃ start ∈ starts, startedOk start = true) →
        stagesCalled events = stageOrder ∧ ∀ e ∈ events, stageOk e = true) ∧
      ∀ past event future, events = past ++ event :: future →
        event.1.touchesPlatform = true → LastLoadValid past := by
  obtain ⟨⟨root, hsound, hended⟩, hdemand⟩ := runs_of_wp (lifetime_sound methods) hrun
  rw [List.nil_append] at hsound
  refine ⟨hsound.order, hsound.order.sublist.nodup (by decide), ?_, ?_, ?_, ?_, ?_⟩
  · intro past event future stage hsplit hstage
    exact (hdemand past event future hsplit).1 stage hstage
  · rw [hsound.stopped]
    by_cases hnone : stagesCalled events = []
    · have hrunning : root.stopped ≠ true := fun hstopped =>
        hsound.touched.mp (hsound.stoppedTouched hstopped) hnone
      rw [if_pos hnone, if_neg hrunning]
    · rw [if_neg hnone, if_pos (hended (hsound.touched.mpr hnone))]
  · have honce := hsound.once
    split at honce <;> omega
  · rintro ⟨start, hmem, hok⟩
    exact hsound.complete (List.countP_pos_iff.mpr ⟨start, hmem, hok⟩)
  · intro past event future hsplit htouches
    exact (hdemand past event future hsplit).2 htouches

/-- A complete configuration. -/
def completeSource : ConfigurationSource := fun key =>
  if key = lit "WAREHOUSE_DB_PORT" then some (lit "3306")
  else if key = lit "WAREHOUSE_DB_HOST" || key = lit "WAREHOUSE_DB_NAME" ||
      key = lit "WAREHOUSE_DB_USER" || key = lit "WAREHOUSE_DB_PASSWORD" then
    some (lit "warehouse")
  else none

/-- A platform whose migrations fail. -/
private def refusingPlatform : (op : RootCall) → Unit → op.Answer × Unit
  | .load, s => (some completeSource, s)
  | .stage .runMigrations _, s =>
      (some ⟨some ⟨.migration, lit "migration_failed", lit "checksum mismatch"⟩⟩, s)
  | .stage _ _, s => (some {}, s)
  | .wait, s => (some (), s)
  | .stop, s => ((), s)

/-- Migrations fail, the platform is stopped at once, and a later `start` reaches nothing. -/
theorem lifeCycle_refused :
    stagesCalled ((lifetime [.run, .start]).exec refusingPlatform ()).1 =
        [.initializeMySqlRuntime, .createDatabasePool, .runMigrations] ∧
      stops ((lifetime [.run, .start]).exec refusingPlatform ()).1 = 1 := by
  have hlife := lifeCycle (runs_exec refusingPlatform (lifetime [.run, .start]) ())
  have hcalled : stagesCalled ((lifetime [.run, .start]).exec refusingPlatform ()).1 =
      [.initializeMySqlRuntime, .createDatabasePool, .runMigrations] := by decide +kernel
  refine ⟨hcalled, ?_⟩
  rw [hlife.2.2.2.1, hcalled]
  rfl

end Warehouse.Bootstrap
