/-
# Warehouse.Mysql.Migration.Discovery — reading the migrations from their directory

`discoverMigrations` enumerates the version directories under a root and, inside each, the manifests
of its steps.  The file system hands both out in an order of its own.  The outcome does not depend
on it, and what is returned is a `Manifest` whose texts and checksums have been verified.
-/
import Warehouse.Files.Path
import Warehouse.Interaction.Enumeration
import Warehouse.Mysql.Migration.Checksum

namespace Warehouse.Mysql.Migration

open Warehouse.Files (Path appended extension)
open Warehouse.Interaction

/-! ## The file system and the errors -/

/-- What the library calls of this file answer, path by path. -/
structure FileSystem where
  /-- `is_directory`; `none` where it throws -/
  isDirectory : Path → Option Bool
  /-- The names a `directory_iterator` gives, in its order; `none` where it throws. -/
  entries : Path → Option (List Bytes)
  /-- What an `ifstream` reads; `none` where it cannot be opened. -/
  contents : Path → Option Bytes

/-- A `MigrationError`, or an exception of the file system library. -/
inductive DiscoveryError
  | failed (message : Bytes)
  | thrown
  deriving DecidableEq, Repr

/-! ## `readStep` -/

/-- `trim` -/
def trim (value : Bytes) : Bytes := (value.dropWhile isspace).rdropWhile isspace

/-- `readText` -/
def readText (fs : FileSystem) (path : Path) : Except DiscoveryError Bytes :=
  match fs.contents path with
  | none => .error (.failed (lit "cannot read " ++ path))
  | some contents => .ok (contents.filter (· != 13))

/-- `phase` -/
def phase (value : Bytes) : Except DiscoveryError MigrationPhase :=
  if value = lit "precheck" then .ok .precheck
  else if value = lit "expand" then .ok .expand
  else if value = lit "backfill" then .ok .backfill
  else if value = lit "switch" then .ok .switch
  else if value = lit "cleanup" then .ok .cleanup
  else .error (.failed (lit "unknown migration phase: " ++ value))

/-- `execution` -/
def execution (value : Bytes) : Except DiscoveryError MigrationExecution :=
  if value = lit "check" then .ok .check
  else if value = lit "atomic_ddl" then .ok .atomicDdl
  else if value = lit "transactional_dml" then .ok .transactionalDml
  else .error (.failed (lit "unknown migration execution: " ++ value))

/-- The `std::map` of a manifest's fields. -/
abbrev Fields : Type := List (Bytes × Bytes)

/-- `fields[name]` -/
def Fields.get (fields : Fields) (name : Bytes) : Bytes := (fields.lookup name).getD []

/-- `fields.emplace`: a field that is there stays as it is. -/
def Fields.emplace (fields : Fields) (name value : Bytes) : Fields :=
  if (fields.lookup name).isSome then fields else fields ++ [(name, value)]

/-- One turn of the loop over the lines. -/
def readLine (manifest : Path) (fields : Fields) (line : Bytes) : Except DiscoveryError Fields :=
  let line := trim line
  if line.isEmpty || line.head? == some 35 then .ok fields
  else match line.findIdx? (· == 61) with
    | none => .error (.failed (lit "invalid manifest line in " ++ manifest))
    | some equals =>
        .ok (fields.emplace (trim (line.take equals)) (trim (line.drop (equals + 1))))

/-- The loop over the lines.  `getline` gives no line behind a last line feed; that one is blank and
would be skipped. -/
def readFields (manifest : Path) (text : Bytes) : Except DiscoveryError Fields :=
  (text.splitOn 10).foldlM (readLine manifest) []

/-- The fields a manifest has to set, in the order in which they are asked for. -/
def requiredFields : List Bytes :=
  [lit "id", lit "phase", lit "execution", lit "apply", lit "verify", lit "sha256"]

/-- The loop over the required fields. -/
def checkRequired (manifest : Path) (fields : Fields) : Except DiscoveryError Unit :=
  match requiredFields.find? fun required => (fields.get required).isEmpty with
  | some required => .error (.failed (lit "missing " ++ required ++ lit " in " ++ manifest))
  | none => .ok ()

/-- `readStep` -/
def readStep (fs : FileSystem) (directory manifest : Path) :
    Except DiscoveryError MigrationStep := do
  let text ← readText fs manifest
  let fields ← readFields manifest text
  checkRequired manifest fields
  let parsedPhase ← phase (fields.get (lit "phase"))
  let parsedExecution ← execution (fields.get (lit "execution"))
  let apply ← readText fs (appended directory (fields.get (lit "apply")))
  let verify ← readText fs (appended directory (fields.get (lit "verify")))
  if !isSingleServerStatement apply || !isSingleServerStatement verify then
    .error (.failed (lit "migration apply and verify files must contain one server statement"))
  else
    let actual := migrationChecksum (fields.get (lit "id")) parsedPhase parsedExecution apply verify
    if actual != fields.get (lit "sha256") then
      .error (.failed (lit "migration checksum mismatch for " ++ fields.get (lit "id")))
    else .ok ⟨fields.get (lit "id"), parsedPhase, parsedExecution, apply, verify, actual⟩

/-! ## `discoverMigrations` -/

/-- The match with `(\d{4})_([a-z0-9_]+)`: both of its groups. -/
def directoryName (name : Bytes) : Option (Bytes × Bytes) :=
  let version := name.take 4
  let rest := name.drop 5
  if version.length = 4 ∧ version.all isdigit ∧ name[4]? = some 95 ∧ rest ≠ [] ∧
      rest.all fun c => (97 ≤ c && c ≤ 122) || isdigit c || c == 95 then some (version, rest)
  else none

/-- One turn of the loop over the files of a version directory. -/
def discoverStep (fs : FileSystem) (directory : Path) (name : Bytes) :
    Except DiscoveryError (Option MigrationStep) :=
  let file := appended directory name
  if extension file != lit ".step" then .ok none
  else (readStep fs directory file).map some

/-- The steps of a version directory, sorted and checked for a repeated id. -/
def discoverSteps (fs : FileSystem) (directory : Path) (name : Bytes) :
    Except DiscoveryError (List MigrationStep) :=
  match fs.entries directory with
  | none => .error .thrown
  | some files => do
      let steps ← collect (discoverStep fs directory) files
      let sorted := sortBy MigrationStep.id steps
      if sorted.isEmpty then .error (.failed (lit "migration has no steps: " ++ name))
      else
        distinct MigrationStep.id
          (fun step => .failed (lit "duplicate migration step id: " ++ step.id)) sorted

/-- One turn of the loop over the root. -/
def discoverDefinition (fs : FileSystem) (root : Path) (name : Bytes) :
    Except DiscoveryError (Option MigrationDefinition) :=
  let directory := appended root name
  match fs.isDirectory directory with
  | none => .error .thrown
  | some false => .ok none
  | some true =>
      match directoryName name with
      | none => .error (.failed (lit "invalid migration directory: " ++ name))
      | some (version, rest) =>
          (discoverSteps fs directory name).map fun steps =>
            some ⟨digitsValue version, rest, steps⟩

/-- `discoverMigrations` -/
def discoverMigrations (fs : FileSystem) (root : Path) :
    Except DiscoveryError (List MigrationDefinition) :=
  match fs.isDirectory root with
  | none => .error .thrown
  | some false => .error (.failed (lit "migration root is not a directory: " ++ root))
  | some true =>
      match fs.entries root with
      | none => .error .thrown
      | some names => do
          let definitions ← collect (discoverDefinition fs root) names
          distinct MigrationDefinition.version
            (fun _ => .failed (lit "duplicate migration version"))
            (sortBy MigrationDefinition.version definitions)

/-! ## Two orders of enumeration -/

/-- The same files and directories, enumerated in two orders. -/
structure SameFiles (fs fs' : FileSystem) : Prop where
  isDirectory : ∀ path, fs.isDirectory path = fs'.isDirectory path
  entries : ∀ path, Option.Rel List.Perm (fs.entries path) (fs'.entries path)
  contents : ∀ path, fs.contents path = fs'.contents path

section Orders

variable {fs fs' : FileSystem} (h : SameFiles fs fs')

include h

/-- A directory cannot be enumerated in either order, or in both. -/
theorem SameFiles.entries_cases (path : Path) :
    (fs.entries path = none ∧ fs'.entries path = none) ∨
      ∃ names names', fs.entries path = some names ∧ fs'.entries path = some names' ∧
        names.Perm names' := by
  have hentries := h.entries path
  revert hentries
  cases fs.entries path with
  | none =>
      cases fs'.entries path with
      | none => exact fun _ => Or.inl ⟨rfl, rfl⟩
      | some names' => exact nofun
  | some names =>
      cases fs'.entries path with
      | none => exact nofun
      | some names' =>
          rintro ⟨hperm⟩
          exact Or.inr ⟨names, names', rfl, rfl, hperm⟩

theorem readText_same (path : Path) : readText fs path = readText fs' path := by
  rw [readText, readText, h.contents]

theorem readStep_same (directory manifest : Path) :
    readStep fs directory manifest = readStep fs' directory manifest := by
  simp only [readStep, readText_same h]

theorem discoverStep_same (directory : Path) (name : Bytes) :
    discoverStep fs directory name = discoverStep fs' directory name := by
  simp only [discoverStep, readStep_same h]

theorem discoverSteps_sameOutcome (directory : Path) (name : Bytes) :
    SameOutcome (· = ·) (discoverSteps fs directory name) (discoverSteps fs' directory name) := by
  unfold discoverSteps
  rcases h.entries_cases directory with ⟨hnone, hnone'⟩ | ⟨files, files', hfiles, hfiles', hperm⟩
  · rw [hnone, hnone']
    exact .of_eq rfl
  · rw [hfiles, hfiles']
    refine (collect_sameOutcome (fun x _ => .of_eq (discoverStep_same h directory x)) hperm).bind ?_
    intro steps steps' hsteps
    refine .check ?_ fun _ => distinct_sameOutcome hsteps
    -- an empty list has no other order
    rw [List.isEmpty_iff, List.isEmpty_iff, ← List.length_eq_zero_iff, ← List.length_eq_zero_iff,
      (sortBy_perm steps).length_eq, (sortBy_perm steps').length_eq, hsteps.length_eq]

theorem discoverDefinition_sameOutcome (root : Path) (name : Bytes) :
    SameOutcome (· = ·) (discoverDefinition fs root name) (discoverDefinition fs' root name) := by
  simp only [discoverDefinition, h.isDirectory]
  cases fs'.isDirectory (appended root name) with
  | none => exact .of_eq rfl
  | some isDirectory =>
      cases isDirectory with
      | false => exact .of_eq rfl
      | true =>
          cases directoryName name with
          | none => exact .of_eq rfl
          | some groups =>
              refine (discoverSteps_sameOutcome h (appended root name) name).map ?_
              rintro steps _ rfl
              rfl

theorem discoverMigrations_sameOutcome (root : Path) :
    SameOutcome (· = ·) (discoverMigrations fs root) (discoverMigrations fs' root) := by
  unfold discoverMigrations
  rw [← h.isDirectory]
  cases fs.isDirectory root with
  | none => exact .of_eq rfl
  | some isDirectory =>
      cases isDirectory with
      | false => exact .of_eq rfl
      | true =>
          rcases h.entries_cases root with ⟨hnone, hnone'⟩ | ⟨names, names', hnames, hnames', hperm⟩
          · rw [hnone, hnone']
            exact .of_eq rfl
          · rw [hnames, hnames']
            have hbody : ∀ x ∈ names, SameOutcome (· = ·) (discoverDefinition fs root x)
                (discoverDefinition fs' root x) :=
              fun x _ => discoverDefinition_sameOutcome h root x
            refine (collect_sameOutcome hbody hperm).bind ?_
            intro definitions definitions' hdefinitions
            exact distinct_sameOutcome hdefinitions

end Orders

/-! ## What is discovered -/

/-- What a discovered step has been checked for.  `manifest` is its file in the directory. -/
structure DiscoveredStep (fs : FileSystem) (directory manifest : Path) (fields : Fields)
    (step : MigrationStep) : Prop where
  read : ∃ text, readText fs manifest = .ok text ∧ readFields manifest text = .ok fields
  id : step.id = fields.get (lit "id")
  phase : phaseName step.phase = fields.get (lit "phase")
  execution : executionName step.execution = fields.get (lit "execution")
  apply : readText fs (appended directory (fields.get (lit "apply"))) = .ok step.applySql
  verify : readText fs (appended directory (fields.get (lit "verify"))) = .ok step.verifySql
  applySingle : isSingleServerStatement step.applySql = true
  verifySingle : isSingleServerStatement step.verifySql = true
  checksum : step.checksum =
    migrationChecksum step.id step.phase step.execution step.applySql step.verifySql
  declared : step.checksum = fields.get (lit "sha256")

section Success

variable {fs : FileSystem} {root directory manifest : Path} {name : Bytes} {step : MigrationStep}
  {steps : List MigrationStep} {definition : MigrationDefinition}
  {definitions : List MigrationDefinition}

theorem phase_ok {value : Bytes} {p : MigrationPhase} (h : phase value = .ok p) :
    phaseName p = value := by
  unfold phase at h
  split_ifs at h with hprecheck hexpand hbackfill hswitch hcleanup
  · obtain rfl := Except.ok.inj h
    exact hprecheck.symm
  · obtain rfl := Except.ok.inj h
    exact hexpand.symm
  · obtain rfl := Except.ok.inj h
    exact hbackfill.symm
  · obtain rfl := Except.ok.inj h
    exact hswitch.symm
  · obtain rfl := Except.ok.inj h
    exact hcleanup.symm

theorem execution_ok {value : Bytes} {e : MigrationExecution} (h : execution value = .ok e) :
    executionName e = value := by
  unfold execution at h
  split_ifs at h with hcheck hatomic hdml
  · obtain rfl := Except.ok.inj h
    exact hcheck.symm
  · obtain rfl := Except.ok.inj h
    exact hatomic.symm
  · obtain rfl := Except.ok.inj h
    exact hdml.symm

theorem readStep_ok (h : readStep fs directory manifest = .ok step) :
    ∃ fields, DiscoveredStep fs directory manifest fields step := by
  obtain ⟨text, htext, h⟩ := ok_of_bind h
  obtain ⟨fields, hfields, h⟩ := ok_of_bind h
  obtain ⟨_, _, h⟩ := ok_of_bind h
  obtain ⟨parsedPhase, hphase, h⟩ := ok_of_bind h
  obtain ⟨parsedExecution, hexecution, h⟩ := ok_of_bind h
  obtain ⟨apply, happly, h⟩ := ok_of_bind h
  obtain ⟨verify, hverify, h⟩ := ok_of_bind h
  dsimp only at h
  split_ifs at h with hsingle hchecksum
  obtain rfl := Except.ok.inj h
  have hboth : isSingleServerStatement apply = true ∧ isSingleServerStatement verify = true := by
    simpa using hsingle
  exact ⟨fields, {
    read := ⟨text, htext, hfields⟩
    id := rfl
    phase := phase_ok hphase
    execution := execution_ok hexecution
    apply := happly
    verify := hverify
    applySingle := hboth.1
    verifySingle := hboth.2
    checksum := rfl
    declared := by simpa using hchecksum }⟩

/-- A step was read from one of the manifests in its directory. -/
theorem discoverStep_ok (h : discoverStep fs directory name = .ok (some step)) :
    extension (appended directory name) = lit ".step" ∧
      ∃ fields, DiscoveredStep fs directory (appended directory name) fields step := by
  unfold discoverStep at h
  by_cases hextension : extension (appended directory name) = lit ".step"
  · rw [if_neg (by simp [hextension])] at h
    obtain ⟨read, hread, hsome⟩ := ok_of_map h
    obtain rfl := Option.some.inj hsome
    exact ⟨hextension, readStep_ok hread⟩
  · rw [if_pos (by simpa using hextension)] at h
    cases h

example : extension (appended (lit "migrations/0001_users") (lit "01.step")) = lit ".step" := by
  decide
example : extension (appended (lit "migrations/0001_users") (lit ".step")) = [] := by decide

theorem discoverSteps_ok (h : discoverSteps fs directory name = .ok steps) :
    steps ≠ [] ∧ (steps.Pairwise fun s t => s.id < t.id) ∧
      ∀ step ∈ steps, ∃ files, fs.entries directory = some files ∧ ∃ file ∈ files,
        extension (appended directory file) = lit ".step" ∧
          ∃ fields, DiscoveredStep fs directory (appended directory file) fields step := by
  unfold discoverSteps at h
  cases hfiles : fs.entries directory with
  | none =>
      rw [hfiles] at h
      cases h
  | some files =>
      rw [hfiles] at h
      obtain ⟨read, hread, h⟩ := ok_of_bind h
      dsimp only at h
      split_ifs at h with hempty
      obtain ⟨rfl, hincreasing⟩ := distinct_eq_ok h
      refine ⟨by simpa using hempty, hincreasing, ?_⟩
      intro step hstep
      have hmem : step ∈ read := (sortBy_perm read).mem_iff.mp hstep
      obtain ⟨file, hfile, hmade⟩ := mem_collect hread hmem
      exact ⟨files, rfl, file, hfile, discoverStep_ok hmade⟩

/-- A definition was read from a directory of its version and name under the root. -/
theorem discoverDefinition_ok (h : discoverDefinition fs root name = .ok (some definition)) :
    fs.isDirectory (appended root name) = some true ∧
      ∃ version, directoryName name = some (version, definition.name) ∧
        definition.version = digitsValue version ∧
          discoverSteps fs (appended root name) name = .ok definition.steps := by
  simp only [discoverDefinition] at h
  split at h
  · cases h
  · cases h
  · rename_i hdirectory
    split at h
    · cases h
    · rename_i version rest hgroups
      obtain ⟨steps, hsteps, hsome⟩ := ok_of_map h
      obtain rfl := Option.some.inj hsome
      exact ⟨hdirectory, version, hgroups, rfl, hsteps⟩

theorem discoverMigrations_ok (h : discoverMigrations fs root = .ok definitions) :
    (definitions.Pairwise fun d e => d.version < e.version) ∧
      ∀ definition ∈ definitions, ∃ name,
        discoverDefinition fs root name = .ok (some definition) := by
  unfold discoverMigrations at h
  split at h
  · cases h
  · cases h
  · split at h
    · cases h
    · rename_i names hnames
      obtain ⟨read, hread, h⟩ := ok_of_bind h
      obtain ⟨rfl, hincreasing⟩ := distinct_eq_ok h
      refine ⟨hincreasing, ?_⟩
      intro definition hdefinition
      have hmem : definition ∈ read := (sortBy_perm read).mem_iff.mp hdefinition
      obtain ⟨name, _, hmade⟩ := mem_collect hread hmem
      exact ⟨name, hmade⟩

/-- What discovery returns is a manifest as the runner relies on it. -/
theorem discoverMigrations_manifest (h : discoverMigrations fs root = .ok definitions) :
    ∃ m : Manifest, m.definitions = definitions := by
  obtain ⟨hversions, hread⟩ := discoverMigrations_ok h
  have hsteps : ∀ d ∈ definitions, d.steps ≠ [] ∧ d.steps.Pairwise fun s t => s.id < t.id := by
    intro d hd
    obtain ⟨name, hdefinition⟩ := hread d hd
    obtain ⟨_, version, _, _, hdiscovered⟩ := discoverDefinition_ok hdefinition
    obtain ⟨hnonempty, hincreasing, _⟩ := discoverSteps_ok hdiscovered
    exact ⟨hnonempty, hincreasing⟩
  exact ⟨⟨definitions, hversions, fun d hd => (hsteps d hd).1, fun d hd => (hsteps d hd).2⟩, rfl⟩

end Success

/-- Two orders of enumeration lead to the same definitions or both to a failure; and what is
returned is sorted, and every step in it is verified against its manifest. -/
theorem discoverMigrations_orderless (fs fs' : FileSystem) (h : SameFiles fs fs') (root : Path) :
    SameOutcome (· = ·) (discoverMigrations fs root) (discoverMigrations fs' root) ∧
      ∀ definitions, discoverMigrations fs root = .ok definitions →
        (definitions.Pairwise fun d e => d.version < e.version) ∧
        ∀ definition ∈ definitions, definition.steps ≠ [] ∧
          (definition.steps.Pairwise fun s t => s.id < t.id) ∧
          ∀ step ∈ definition.steps,
            isSingleServerStatement step.applySql = true ∧
            isSingleServerStatement step.verifySql = true ∧
            step.checksum =
              migrationChecksum step.id step.phase step.execution step.applySql step.verifySql ∧
            ∃ directory manifest fields, DiscoveredStep fs directory manifest fields step ∧
              step.checksum = fields.get (lit "sha256") := by
  refine ⟨discoverMigrations_sameOutcome h root, ?_⟩
  intro definitions hdiscovered
  obtain ⟨hversions, hread⟩ := discoverMigrations_ok hdiscovered
  refine ⟨hversions, ?_⟩
  intro definition hdefinition
  obtain ⟨name, hname⟩ := hread definition hdefinition
  obtain ⟨_, _, _, _, hdiscoveredSteps⟩ := discoverDefinition_ok hname
  obtain ⟨hnonempty, hincreasing, hmanifests⟩ := discoverSteps_ok hdiscoveredSteps
  refine ⟨hnonempty, hincreasing, ?_⟩
  intro step hstep
  obtain ⟨files, _, file, _, _, fields, hsource⟩ := hmanifests step hstep
  exact ⟨hsource.applySingle, hsource.verifySingle, hsource.checksum,
    appended root name, _, fields, hsource, hsource.declared⟩

/-- Two version directories and a file under the root, in a given order; one step in each. -/
def twoVersions (names : List Bytes) : FileSystem where
  isDirectory path := some (path != lit "m/README.md")
  entries path := some (if path = lit "m" then names else [lit "a.step", lit "a.sql"])
  contents path := some (if extension path = lit ".step" then
      lit "id=a\nphase=precheck\nexecution=check\napply=a.sql\nverify=a.sql\nsha256=" ++
        lit "9381caa867a5f1239ad15ab6c4fd7f992f4bd507542b912c2754cae2d35521cb"
    else lit "SELECT 1")

/-- The step in both directories. -/
def probeStep : MigrationStep where
  id := lit "a"
  applySql := lit "SELECT 1"
  verifySql := lit "SELECT 1"
  checksum := lit "9381caa867a5f1239ad15ab6c4fd7f992f4bd507542b912c2754cae2d35521cb"

theorem migrationChecksum_probeStep :
    migrationChecksum (lit "a") .precheck .check (lit "SELECT 1") (lit "SELECT 1") =
      probeStep.checksum := by
  unfold migrationChecksum sha256Hex
  rw [padInput_eq rfl (by decide +kernel)]
  decide +kernel

theorem discoverStep_twoVersions (names : List Bytes) {directory : Path}
    (h : directory = lit "m/0001_users" ∨ directory = lit "m/0002_goods") :
    discoverStep (twoVersions names) directory (lit "a.step") = .ok (some probeStep) := by
  have hread : discoverStep (twoVersions names) directory (lit "a.step") = Except.map some
      (if migrationChecksum (lit "a") .precheck .check (lit "SELECT 1") (lit "SELECT 1") !=
          probeStep.checksum then
        .error (.failed (lit "migration checksum mismatch for " ++ lit "a"))
      else .ok ⟨lit "a", .precheck, .check, lit "SELECT 1", lit "SELECT 1",
        migrationChecksum (lit "a") .precheck .check (lit "SELECT 1") (lit "SELECT 1")⟩) := by
    rcases h with rfl | rfl <;> rfl
  rw [hread, migrationChecksum_probeStep]
  rfl

theorem discoverSteps_twoVersions (names : List Bytes) {directory : Path} (name : Bytes)
    (h : directory = lit "m/0001_users" ∨ directory = lit "m/0002_goods") :
    discoverSteps (twoVersions names) directory name = .ok [probeStep] := by
  have hfiles : (twoVersions names).entries directory = some [lit "a.step", lit "a.sql"] := by
    rcases h with rfl | rfl <;> rfl
  have hsql : discoverStep (twoVersions names) directory (lit "a.sql") = .ok none := by
    rcases h with rfl | rfl <;> rfl
  unfold discoverSteps
  rw [hfiles]
  simp only [collect, discoverStep_twoVersions names h, hsql, bind, Except.bind, pure, Except.pure,
    sortBy, List.mergeSort_singleton]
  rfl

/-- What is found under the root. -/
def foundVersions : List MigrationDefinition :=
  [⟨1, lit "users", [probeStep]⟩, ⟨2, lit "goods", [probeStep]⟩]

theorem discoverMigrations_twoVersions :
    discoverMigrations (twoVersions [lit "0001_users", lit "README.md", lit "0002_goods"])
      (lit "m") = .ok foundVersions := by
  generalize hnames : [lit "0001_users", lit "README.md", lit "0002_goods"] = names
  have husers : discoverDefinition (twoVersions names) (lit "m") (lit "0001_users") =
      .ok (some ⟨1, lit "users", [probeStep]⟩) := by
    show Except.map _ (discoverSteps (twoVersions names) (lit "m/0001_users") _) = _
    rw [discoverSteps_twoVersions names _ (.inl rfl)]
    rfl
  have hgoods : discoverDefinition (twoVersions names) (lit "m") (lit "0002_goods") =
      .ok (some ⟨2, lit "goods", [probeStep]⟩) := by
    show Except.map _ (discoverSteps (twoVersions names) (lit "m/0002_goods") _) = _
    rw [discoverSteps_twoVersions names _ (.inr rfl)]
    rfl
  have hfile : discoverDefinition (twoVersions names) (lit "m") (lit "README.md") = .ok none := rfl
  have hsorted : sortBy MigrationDefinition.version foundVersions = foundVersions :=
    List.mergeSort_of_pairwise (by decide)
  show (collect (discoverDefinition (twoVersions names) (lit "m")) names >>= _) = _
  rw [← hnames] at *
  simp only [collect, husers, hgoods, hfile, bind, Except.bind, pure, Except.pure]
  show distinct _ _ (sortBy MigrationDefinition.version foundVersions) = _
  rw [hsorted]
  rfl

theorem discoverMigrations_orderless_two :
    discoverMigrations (twoVersions [lit "0001_users", lit "README.md", lit "0002_goods"])
        (lit "m") = .ok foundVersions ∧
      discoverMigrations (twoVersions [lit "README.md", lit "0001_users", lit "0002_goods"])
        (lit "m") = .ok foundVersions := by
  have hsame : SameFiles (twoVersions [lit "0001_users", lit "README.md", lit "0002_goods"])
      (twoVersions [lit "README.md", lit "0001_users", lit "0002_goods"]) := by
    refine ⟨fun _ => rfl, ?_, fun _ => rfl⟩
    intro path
    by_cases hroot : path = lit "m"
    · simp only [twoVersions, if_pos hroot]
      exact .some (.swap _ _ _)
    · simp only [twoVersions, if_neg hroot]
      exact .some (.refl _)
  have hboth := (discoverMigrations_orderless _ _ hsame (lit "m")).1
  rw [discoverMigrations_twoVersions] at hboth
  refine ⟨discoverMigrations_twoVersions, ?_⟩
  cases hother : discoverMigrations
      (twoVersions [lit "README.md", lit "0001_users", lit "0002_goods"]) (lit "m") with
  | error e =>
      rw [hother] at hboth
      cases hboth
  | ok definitions =>
      rw [hother] at hboth
      cases hboth with
      | returned hsame => rw [hsame]

end Warehouse.Mysql.Migration
