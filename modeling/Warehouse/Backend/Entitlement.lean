/-
# Warehouse.Backend.Entitlement — which statements a request may send

A request sends the statement that inserts goods, or the one that takes them, only on behalf of a
principal that its token stands for and that may write, and under that principal's name.  This is a
fact about every run of the request's program, whatever the executor answers.
-/
import Warehouse.Application.UnitOutcome
import Warehouse.Backend.LegacyTables
import Warehouse.Backend.Service

namespace Warehouse.Backend

open Warehouse.Interaction Warehouse.Mysql

/-! ## Entitlement -/

/-- The token of a request that may write goods. -/
def writerToken : Request → Option Bytes
  | .createGoods command => some command.auth
  | .takeGoods command => some command.auth
  | .login _ => none
  | .listGoods _ => none

/-- The request writes goods under this name. -/
def ActsAs (s : ServiceState) (request : Request) (operatorName : Bytes) : Prop :=
  ∃ token principal, writerToken request = some token ∧ s.sessions token = some principal ∧
    canWrite principal = true ∧ operatorName = principal.username

/-- The request asks for the goods with this id. -/
def Takes (request : Request) (id : ℤ) : Prop :=
  ∃ command, request = .takeGoods command ∧ parseGoodsId command.suppliedId = some id

/-- What a request may send. -/
def Entitled (s : ServiceState) (request : Request) : LegacyStatement → Prop
  | .insertGoods goods => ActsAs s request goods.operatorName
  | .takeGoods operatorName id => ActsAs s request operatorName ∧ Takes request id
  | _ => True

/-- Calls to the executor whose statements meet `D`. -/
def Sending (D : LegacyStatement → Prop) (op : ExecutorCall LegacyStatement) : Prop :=
  ∀ statement, op = .execute statement → D statement

/-- Calls of the service whose repository calls meet `P`. -/
def Asking (P : RepositoryCall → Prop) : ServiceCall → Prop
  | .unit (.repository call) => P call
  | _ => True

/-! ## What a request sends -/

section Sends

open Program

variable {host : Host} {lease : Except SqlError Unit} {s : ServiceState}
  {D : LegacyStatement → Prop} {P : RepositoryCall → Prop}

theorem sending_control (statement : TxControl) : Sending D (.control statement) := nofun

theorem sending_poison : Sending D .poison := nofun

theorem emits_beginUnitOfWork (mode : WorkUnitMode) :
    (beginUnitOfWork lease mode).Emits (Sending D) := by
  cases lease with
  | error e => trivial
  | ok leased =>
      apply emits_bind (Transaction.emits_begin (sending_control _) (sending_control _)
        sending_poison)
      intro begun
      cases begun with
      | error f => trivial
      | ok t =>
          apply emits_bind (Transaction.emits_destroy (sending_control _) sending_poison _)
          intro _
          trivial

/-- The statements of the service's calls are those of its repositories. -/
theorem emits_performService
    (hD : ∀ call, P call → ∀ statement, RepositoryCall.Sends call statement → D statement)
    (op : ServiceCall) (s : ServiceState) (hop : Asking P op) :
    (performService host lease op s).Emits (Sending D) := by
  cases op with
  | begin mode =>
      apply emits_bind (emits_beginUnitOfWork mode)
      intro begun
      cases begun <;> trivial
  | unit call =>
      cases call with
      | repository call =>
          have hsends : (performRepository call).Emits (Sending D) := by
            apply emits_performRepository
            intro statement hstatement other hother
            obtain rfl := ExecutorCall.execute.inj hother
            exact hD call hop statement hstatement
          exact emits_bind (emits_bind hsends fun _ => trivial) fun _ => trivial
      | commit =>
          exact emits_bind (Transaction.emits_commit (sending_control _) sending_poison s.unit)
            fun _ => trivial
      | rollback =>
          exact emits_bind (emits_bind (Transaction.emits_rollback (sending_control _)
            sending_poison s.unit) fun _ => trivial) fun _ => trivial
  | destroy =>
      exact emits_bind (Transaction.emits_destroy (sending_control _) sending_poison s.unit)
        fun _ => trivial
  | createSession principal => trivial
  | findSession token => trivial
  | verify hash password => trivial
  | needsRehash hash => trivial
  | hash password => trivial
  | clear sensitive => trivial

/-- What a program of the service sends, by what it asks of the repositories. -/
theorem emits_service {α : Type} {p : ServiceProgram α} (hp : p.Emits (Asking P))
    (hD : ∀ call, P call → ∀ statement, RepositoryCall.Sends call statement → D statement) :
    (p.interpret (performService host lease) s).Emits (Sending D) :=
  emits_interpret hp (emits_performService hD) s

/-- A request sends what it is entitled to. -/
theorem emits_serve (request : Request) :
    (serve host lease request s).Emits (Sending (Entitled s request)) := by
  cases request with
  | login command =>
      -- nothing of a login is about goods
      have hasks : (login command).Emits (Asking fun call =>
          call = .findByUsername command.username true ∨
            ∃ id hash, call = .updatePasswordHash id hash) := by
        apply emits_bind (p := guardedLogin command)
        · unfold guardedLogin
          split
          · trivial
          · exact emits_withUnit trivial trivial (emits_loginUnit (Or.inl rfl) trivial trivial
              (fun _ => trivial) (fun _ => trivial) trivial (fun id hash => Or.inr ⟨id, hash, rfl⟩)
              fun _ => trivial)
        · exact fun _ => ⟨trivial, fun _ => trivial⟩
      apply emits_service hasks
      intro call hcall statement hsends
      rcases hcall with rfl | ⟨id, hash, rfl⟩
      · cases hsends
        trivial
      · cases hsends
        trivial
  | listGoods query =>
      have hasks : (listGoods query).Emits (Asking fun call =>
          call = .list ⟨lowercaseAscii query.name, query.status⟩) :=
        emits_authenticated trivial fun _ =>
          emits_withUnit trivial trivial (emits_listUnit rfl trivial trivial)
      apply emits_service hasks
      intro call hcall statement hsends
      subst hcall
      cases hsends
      trivial
  | createGoods command =>
      show ((createGoods command).interpret (performService host lease) s).Emits _
      unfold createGoods
      rw [interpret_authorized]
      cases hfound : s.sessions command.auth with
      | none => trivial
      | some principal =>
          show (ite (canWrite principal = true) _ _ : LegacyProgram _).Emits _
          split
          · rename_i hwrite
            show ((ite ((normalizeField command.name).isEmpty = true) _ _ :
              ServiceProgram _).interpret (performService host lease) s).Emits _
            split
            · trivial
            · apply emits_service (emits_withUnit trivial trivial
                (emits_createUnit (P := Asking fun call => ∃ name location,
                  call = .create ⟨name, location, principal.username⟩)
                  ⟨_, _, rfl⟩ trivial trivial))
              intro call hcall statement hsends
              obtain ⟨name, location, rfl⟩ := hcall
              cases hsends with
              | insertGoods => exact ⟨command.auth, principal, rfl, hfound, hwrite, rfl⟩
              | readBack => trivial
          · trivial
  | takeGoods command =>
      show ((takeGoods command).interpret (performService host lease) s).Emits _
      unfold takeGoods
      rw [interpret_authorized]
      cases hfound : s.sessions command.auth with
      | none => trivial
      | some principal =>
          show (ite (canWrite principal = true) _ _ : LegacyProgram _).Emits _
          split
          · rename_i hwrite
            cases hparsed : parseGoodsId command.suppliedId with
            | none => trivial
            | some id =>
                apply emits_service (emits_withUnit trivial trivial
                  (emits_takeUnit (P := Asking fun call =>
                    call = .markTaken id principal.username ∨ call = .findById id)
                    (Or.inl rfl) (Or.inr rfl) trivial trivial))
                intro call hcall statement hsends
                rcases hcall with rfl | rfl
                · cases hsends with
                  | takeGoods =>
                      exact ⟨⟨command.auth, principal, rfl, hfound, hwrite, rfl⟩, command, rfl,
                        hparsed⟩
                  | lockStatus => trivial
                · cases hsends
                  trivial
          · trivial

end Sends

end Warehouse.Backend
