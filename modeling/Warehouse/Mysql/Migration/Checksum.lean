/-
# Warehouse.Mysql.Migration.Checksum — what the checksum of a step is computed from

`migrationChecksum` hashes the five parts of a step, each behind its length.  So the hashed text
determines the step, and two steps with one checksum are a collision of `sha256Hex`.
-/
import Warehouse.Digest.Framing
import Warehouse.Mysql.Migration.Manifest
import Warehouse.Mysql.Sha256

namespace Warehouse.Mysql.Migration

open Warehouse.Digest

/-! ## The code -/

/-- The `append` of `migrationChecksum`. -/
def appendField (material value : Bytes) : Bytes :=
  material ++ toDecimal value.length ++ [58] ++ value

/-- The text that is hashed. -/
def checksumMaterial (stepId : Bytes) (phase : MigrationPhase) (execution : MigrationExecution)
    (applySql verifySql : Bytes) : Bytes :=
  let material := appendField [] stepId
  let material := appendField material (phaseName phase)
  let material := appendField material (executionName execution)
  let material := appendField material applySql
  appendField material verifySql

/-- `migrationChecksum` -/
def migrationChecksum (stepId : Bytes) (phase : MigrationPhase) (execution : MigrationExecution)
    (applySql verifySql : Bytes) : Bytes :=
  sha256Hex (checksumMaterial stepId phase execution applySql verifySql)

/-! ## Decoding -/

theorem toDecimal_injective : Function.Injective toDecimal := by
  intro m n h
  rw [← digitsValue_toDecimal m, h, digitsValue_toDecimal]

/-- Lengths in decimal, ended by a colon. -/
def decimalLengths : Numerals UInt8 where
  numeral := toDecimal
  separator := 58
  injective := toDecimal_injective
  separated n hmem := by
    have hdigit : isdigit 58 = true := isdigit_toDecimal hmem
    exact absurd hdigit (by decide)

theorem appendField_eq (material value : Bytes) :
    appendField material value = material ++ decimalLengths.frame value := by
  simp [appendField, Numerals.frame, decimalLengths]

variable {id id' applySql applySql' verifySql verifySql' : Bytes} {phase phase' : MigrationPhase}
  {execution execution' : MigrationExecution}

/-- The material is the five fields, framed. -/
theorem checksumMaterial_eq : checksumMaterial id phase execution applySql verifySql =
    decimalLengths.frames [id, phaseName phase, executionName execution, applySql, verifySql] := by
  simp [checksumMaterial, appendField_eq, Numerals.frames]

/-- The material determines the step: no byte can be moved from one part to another.  The checksum is
the hash of the material, so steps that differ and share a checksum are a collision of `sha256Hex`:
their materials are two texts with one hash. -/
theorem checksumMaterial_determines (id id' : Bytes) (phase phase' : MigrationPhase)
    (execution execution' : MigrationExecution) (applySql applySql' verifySql verifySql' : Bytes) :
    (checksumMaterial id phase execution applySql verifySql =
        checksumMaterial id' phase' execution' applySql' verifySql' →
      (id, phase, execution, applySql, verifySql) =
        (id', phase', execution', applySql', verifySql')) ∧
    migrationChecksum id phase execution applySql verifySql =
      sha256Hex (checksumMaterial id phase execution applySql verifySql) ∧
    ((id, phase, execution, applySql, verifySql) ≠
        (id', phase', execution', applySql', verifySql') →
      (migrationChecksum id phase execution applySql verifySql =
          migrationChecksum id' phase' execution' applySql' verifySql' ↔
        checksumMaterial id phase execution applySql verifySql ≠
            checksumMaterial id' phase' execution' applySql' verifySql' ∧
          sha256Hex (checksumMaterial id phase execution applySql verifySql) =
            sha256Hex (checksumMaterial id' phase' execution' applySql' verifySql'))) := by
  have hdetermines : checksumMaterial id phase execution applySql verifySql =
        checksumMaterial id' phase' execution' applySql' verifySql' →
      (id, phase, execution, applySql, verifySql) =
        (id', phase', execution', applySql', verifySql') := by
    intro h
    rw [checksumMaterial_eq, checksumMaterial_eq] at h
    have hfields := decimalLengths.frames_injective h
    simp only [List.cons.injEq, and_true] at hfields
    obtain ⟨rfl, hphase, hexecution, rfl, rfl⟩ := hfields
    rw [phaseName_injective hphase, executionName_injective hexecution]
  refine ⟨hdetermines, rfl, ?_⟩
  intro hdiffer
  constructor
  · intro hchecksum
    exact ⟨fun hmaterial => hdiffer (hdetermines hmaterial), hchecksum⟩
  · intro hcollision
    exact hcollision.2

end Warehouse.Mysql.Migration
