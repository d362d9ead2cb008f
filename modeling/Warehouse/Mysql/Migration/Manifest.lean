/-
# Warehouse.Mysql.Migration.Manifest — migration definitions and the single-statement scanner

The data that `discoverMigrations` and `readMigrationBootstrapSql` hand to the runner, and
`isSingleServerStatement`, which the runner applies once more to the bootstrap texts.

A `Manifest` is a list of definitions that has been through discovery: versions strictly increase,
every definition has a step, and the step ids of a definition strictly increase byte by byte.  The
order of the list is then the order of `(version, step id)`, and a step of a manifest is addressed
by that pair.
-/
import Mathlib.Data.List.Nodup
import Warehouse.Mysql.Executor

namespace Warehouse.Mysql.Migration

/-! ## Definitions -/

/-- `MigrationPhase` -/
inductive MigrationPhase
  | precheck | expand | backfill | switch | cleanup
  deriving DecidableEq, Repr

/-- `MigrationExecution` -/
inductive MigrationExecution
  | check | atomicDdl | transactionalDml
  deriving DecidableEq, Repr

/-- `MigrationStep` -/
structure MigrationStep where
  id : Bytes
  phase : MigrationPhase := .precheck
  execution : MigrationExecution := .check
  applySql : Bytes
  verifySql : Bytes
  checksum : Bytes
  deriving DecidableEq, Repr

/-- `MigrationDefinition` -/
structure MigrationDefinition where
  version : Nat
  name : Bytes
  steps : List MigrationStep
  deriving DecidableEq, Repr

/-- `MigrationBootstrapStep` -/
structure MigrationBootstrapStep where
  id : Bytes
  applySql : Bytes
  verifySql : Bytes
  deriving DecidableEq, Repr

/-- `phaseName` -/
def phaseName : MigrationPhase → Bytes
  | .precheck => lit "precheck"
  | .expand => lit "expand"
  | .backfill => lit "backfill"
  | .switch => lit "switch"
  | .cleanup => lit "cleanup"

/-- `executionName` -/
def executionName : MigrationExecution → Bytes
  | .check => lit "check"
  | .atomicDdl => lit "atomic_ddl"
  | .transactionalDml => lit "transactional_dml"

/-- Phase names tell the phases apart. -/
theorem phaseName_injective : Function.Injective phaseName := by
  intro p q h
  cases p <;> cases q <;> first | rfl | exact absurd h (by decide)

theorem executionName_injective : Function.Injective executionName := by
  intro p q h
  cases p <;> cases q <;> first | rfl | exact absurd h (by decide)

/-- A step the runner has to complete; cleanup steps are deferred. -/
abbrev MigrationStep.Required (step : MigrationStep) : Prop := step.phase ≠ .cleanup

/-! ## Manifests -/

/-- A list of definitions as `discoverMigrations` returns it. -/
structure Manifest where
  definitions : List MigrationDefinition
  versions_increasing : definitions.Pairwise fun d e => d.version < e.version
  steps_nonempty : ∀ d ∈ definitions, d.steps ≠ []
  ids_increasing : ∀ d ∈ definitions, d.steps.Pairwise fun s t => s.id < t.id

/-- The order of `(version, step id)`. -/
def addressLt (a b : Nat × Bytes) : Prop := a.1 < b.1 ∨ (a.1 = b.1 ∧ a.2 < b.2)

/-- `d` is a definition of the manifest and `step` one of its steps. -/
def Manifest.Has (m : Manifest) (d : MigrationDefinition) (step : MigrationStep) : Prop :=
  d ∈ m.definitions ∧ step ∈ d.steps

variable {m : Manifest} {d e : MigrationDefinition} {s t : MigrationStep}

theorem ids_nodup {steps : List MigrationStep} (h : steps.Pairwise fun s t => s.id < t.id) :
    (steps.map MigrationStep.id).Nodup := by
  apply List.pairwise_map.mpr
  exact h.imp fun {a b} (hlt : a.id < b.id) heq => List.lt_irrefl b.id (heq ▸ hlt)

theorem versions_nodup (m : Manifest) :
    (m.definitions.map MigrationDefinition.version).Nodup := by
  apply List.pairwise_map.mpr
  exact m.versions_increasing.imp fun hlt => Nat.ne_of_lt hlt

theorem ids_unique {steps : List MigrationStep} (h : steps.Pairwise fun s t => s.id < t.id)
    (hs : s ∈ steps) (ht : t ∈ steps) (hid : s.id = t.id) : s = t :=
  List.inj_on_of_nodup_map (ids_nodup h) hs ht hid

/-- The id of the next step is not among those of the steps before it. -/
theorem ids_fresh {steps done rest : List MigrationStep}
    (h : steps.Pairwise fun s t => s.id < t.id) (hsplit : steps = done ++ s :: rest) :
    ∀ t ∈ done, t.id ≠ s.id := by
  intro t ht heq
  rw [hsplit, List.pairwise_append] at h
  have hlt : t.id < s.id := h.2.2 t ht s List.mem_cons_self
  exact List.lt_irrefl _ (heq ▸ hlt)

theorem Manifest.version_unique (m : Manifest) (hd : d ∈ m.definitions) (he : e ∈ m.definitions)
    (h : d.version = e.version) : d = e :=
  List.inj_on_of_nodup_map (versions_nodup m) hd he h

/-- An address names one step of the manifest. -/
theorem Manifest.has_unique (m : Manifest) (h : m.Has d s) (h' : m.Has e t)
    (hversion : d.version = e.version) (hid : s.id = t.id) : d = e ∧ s = t := by
  have hde : d = e := m.version_unique h.1 h'.1 hversion
  subst hde
  exact ⟨rfl, ids_unique (m.ids_increasing d h.1) h.2 h'.2 hid⟩

/-! ## `isSingleServerStatement` -/

/-- The scanner's `State`. -/
inductive ScanState
  | code | singleQuote | doubleQuote | backtick | lineComment | blockComment
  deriving DecidableEq, Repr

/-- The local variables of the scanning loop; `skip` is an extra `++i` still to be taken. -/
structure Scanner where
  state : ScanState := .code
  skip : Bool := false
  ended : Bool := false
  sawCode : Bool := false
  deriving DecidableEq, Repr

/-- The delimiter of a quoted state. -/
def ScanState.delimiter : ScanState → UInt8
  | .singleQuote => 39
  | .doubleQuote => 34
  | _ => 96

/-- One turn of the loop at character `c`, with `next` and the one after it where the text goes on;
`none` is the `return false` inside the loop. -/
def Scanner.step (s : Scanner) (c : UInt8) (next after : Option UInt8) : Option Scanner :=
  if s.skip then some { s with skip := false }
  else match s.state with
  | .lineComment => some (if c = 10 then { s with state := .code } else s)
  | .blockComment =>
      some (if c = 42 ∧ next = some 47 then { s with state := .code, skip := true } else s)
  | .singleQuote | .doubleQuote | .backtick =>
      -- a backslash skips the next character, whichever of the three quotes this is
      if c = 92 then some { s with skip := true }
      else if c = s.state.delimiter then
        some (if next = some s.state.delimiter then { s with skip := true }
          else { s with state := .code })
      else some s
  | .code =>
      if c = 35 then some { s with state := .lineComment }
      -- `i + 2 < sql.size()` is asked before the space
      else if c = 45 ∧ next = some 45 ∧ after.any isspace then
        some { s with state := .lineComment, skip := true }
      else if c = 47 ∧ next = some 42 then some { s with state := .blockComment, skip := true }
      else if c = 39 then some { s with state := .singleQuote }
      else if c = 34 then some { s with state := .doubleQuote }
      else if c = 96 then some { s with state := .backtick }
      else if c = 59 then some { s with ended := true }
      -- what opens a quote or a comment has gone its way before this is asked
      else if s.ended && !isspace c then none
      else if !isspace c then some { s with sawCode := true }
      else some s

/-- The scanning loop from a given state of its variables. -/
def Scanner.scan (s : Scanner) : Bytes → Bool
  | [] => s.sawCode && (s.state = .code || s.state = .lineComment)
  | c :: rest =>
      match s.step c rest.head? rest.tail.head? with
      | none => false
      | some s' => s'.scan rest

/-- `isSingleServerStatement` -/
def isSingleServerStatement (sql : Bytes) : Bool := Scanner.scan {} sql

end Warehouse.Mysql.Migration
