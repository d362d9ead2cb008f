/-
# Warehouse.Backend.GoodsLedger — the goods under requests that overlap

Any number of requests, each on a lease of its own, in every interleaving of their statements,
commits, rollbacks and failures.  What is committed to goods is then a ledger: a row stays, with its
name, its place and the time it came; it changes once at most, when somebody takes it; and of all
requests that ask for the same goods at most one is told that it has them.

The rows change only by entries of the log, and every entry saw the version that it replaces; so two
entries cannot both have found the same goods untaken.  A request that succeeds has its `UPDATE`
among those entries, because its commit was answered.
-/
import Warehouse.Backend.Authorization
import Warehouse.Mysql.SqlNotes

namespace Warehouse.Backend

open Warehouse.Interaction Warehouse.Mysql

/-! ## Rows of goods in a log -/

/-- A statement that was executed for the service. -/
abbrev LegacyEntry : Type :=
  Entry (ExecutorCall LegacyStatement) ExecutorCall.Answer LegacyKey LegacyRecord

/-- A row of goods stays as it is, or is taken by somebody for whom `P` holds. -/
def Stands (dialect : Dialect) (P : Bytes → Prop) (before after : Option LegacyRecord) : Prop :=
  ∀ row, before = some (.goods row) → after = some (.goods row) ∨
    (¬ dialect.isTaken row ∧ ∃ takenAt operatorName, P operatorName ∧
      after = some (.goods (row.take takenAt operatorName)))

section Rows

variable {dialect : Dialect} {P : Bytes → Prop} {id : ℤ} {rows₀ : LegacyRows}
  {e f : LegacyEntry} {log : List LegacyEntry}

theorem isTaken_take (row : GoodsRow) (takenAt operatorName : Bytes) :
    dialect.isTaken (row.take takenAt operatorName) := rfl

instance : Std.Refl (Stands dialect P) := ⟨fun _ _ h => Or.inl h⟩

/-- Goods that are taken stay as they are. -/
instance : IsTrans (Option LegacyRecord) (Stands dialect P) where
  trans _ _ _ hfirst hsecond row hrow := by
    rcases hfirst row hrow with hsame | ⟨hfree, takenAt, operatorName, hP, htaken⟩
    · exact hsecond row hsame
    · rcases hsecond _ htaken with hsame | ⟨hfree', -⟩
      · exact Or.inr ⟨hfree, takenAt, operatorName, hP, hsame⟩
      · exact absurd (isTaken_take row takenAt operatorName) hfree'

/-- No statement does anything else to a row of goods. -/
theorem stands_of_performed {record : LegacyRecord}
    (h : RowStore.Performed (legacyMeaning dialect).server e)
    (hP : ∀ operatorName, e.event.1 = .execute (.takeGoods operatorName id) → P operatorName)
    (hwrite : e.writes (.goods id) = some record) :
    Stands dialect P (e.view (.goods id)) (some record) := by
  intro row hrow
  rcases goods_performed h hwrite with
    ⟨goods, storedAt, -, hfresh, -⟩ | ⟨operatorName, row', takenAt, hsent, hseen, hfree, rfl⟩
  · rw [hfresh] at hrow
    cases hrow
  · obtain rfl : row = row' := by simpa [LegacyRows.goods, hrow] using hseen
    exact Or.inr ⟨hfree, takenAt, operatorName, hP operatorName hsent, rfl⟩

/-- The entry is an `UPDATE` that took the goods with this id. -/
def Took (id : ℤ) (e : LegacyEntry) : Prop :=
  ∃ operatorName response, response.affectedRows = 1 ∧
    e.event = ⟨.execute (.takeGoods operatorName id), .ok response⟩

/-- Such an entry found the goods there, and not taken, and took them. -/
theorem took_performed (h : RowStore.Performed (legacyMeaning dialect).server e)
    (htook : Took id e) :
    ∃ row taken, LegacyRows.goods e.view id = some row ∧ ¬ dialect.isTaken row ∧
      dialect.isTaken taken ∧ e.writes (.goods id) = some (.goods taken) := by
  obtain ⟨operatorName, response, haffected, hevent⟩ := htook
  obtain ⟨client, event, view, writes⟩ := e
  obtain rfl : event = ⟨.execute (.takeGoods operatorName id), .ok response⟩ := hevent
  obtain ⟨counter, locks, counter', performed, hanswer, hmeaning⟩ := h
  obtain rfl : response = performed := Except.ok.inj hanswer
  obtain ⟨-, ⟨row, takenAt, hrow, hfree, rfl, -⟩ | ⟨-, -, -, hnone⟩⟩ := hmeaning
  · exact ⟨row, row.take takenAt operatorName, hrow, hfree, isTaken_take _ _ _, if_pos rfl⟩
  · omega

/-- After one entry has taken the goods, no later one does. -/
theorem not_took_later {past between future : List LegacyEntry}
    (h : Faithful rows₀ (past ++ e :: (between ++ f :: future)))
    (hperformed : ∀ entry ∈ past ++ e :: (between ++ f :: future),
      RowStore.Performed (legacyMeaning dialect).server entry)
    (he : Took id e) : ¬ Took id f := by
  intro hf
  obtain ⟨-, taken, -, -, htaken, hwritten⟩ := took_performed (hperformed e (by simp)) he
  obtain ⟨row, later, hrow, hfree, -, hwrites⟩ := took_performed (hperformed f (by simp)) hf
  obtain ⟨-, -, hrest⟩ := faithful_append.mp h
  obtain ⟨hbetween, hview, -⟩ := faithful_append.mp hrest
  -- the row as the first entry left it is what the second one saw
  have hstands : Stands dialect (fun _ => True) (e.apply (replay past rows₀) (.goods id))
      (replay between (e.apply (replay past rows₀)) (.goods id)) := by
    apply hbetween.evolves
    intro entry hentry record hwrite
    exact stands_of_performed (hperformed entry (by simp [hentry])) (fun _ _ => trivial) hwrite
  have hfirst : e.apply (replay past rows₀) (.goods id) = some (.goods taken) := by
    simp [Entry.apply, hwritten]
  rcases hstands taken hfirst with hsame | ⟨hfree', -⟩
  · have hseen : f.view (.goods id) = some (.goods taken) := by
      rw [hview (.goods id) (by simp [hwrites])]
      exact hsame
    obtain rfl : taken = row := by simpa [LegacyRows.goods, hseen] using hrow
    exact hfree htaken
  · exact hfree' htaken

/-- Of two entries of a log at most one has taken the goods. -/
theorem took_unique (h : Faithful rows₀ log)
    (hperformed : ∀ entry ∈ log, RowStore.Performed (legacyMeaning dialect).server entry)
    (hmem : e ∈ log) (hmem' : f ∈ log) (he : Took id e) (hf : Took id f) : e = f := by
  by_contra hne
  obtain ⟨past, future, rfl⟩ := List.append_of_mem hmem
  rcases List.mem_append.mp hmem' with hpast | hlater
  · obtain ⟨past, between, rfl⟩ := List.append_of_mem hpast
    rw [List.append_assoc, List.cons_append] at h hperformed
    exact not_took_later h hperformed hf he
  · rcases List.mem_cons.mp hlater with rfl | hfuture
    · exact hne rfl
    · obtain ⟨between, future, rfl⟩ := List.append_of_mem hfuture
      exact not_took_later h hperformed he hf

end Rows

/-! ## What a request knows of its transaction -/

section Requests

open Program

variable {dialect : Dialect} {host : Host} {lease : Except SqlError Unit} {s : ServiceState}
  {n : SqlNotes LegacyStatement} {executed : SqlHistory LegacyStatement} {α : Type}
  {code : LegacyApplicationErrorCode}

/-- Statements are sent in an open transaction only; which ones, does not matter here. -/
abbrev Inside (dialect : Dialect) : Environment (ExecutorCall LegacyStatement) ExecutorCall.Answer
    (SqlNotes LegacyStatement) :=
  Demands (legacyMeaning dialect).server fun _ _ => True

/-- Code of a repository, from a transaction that has executed something: if it succeeds, the
transaction is still open and has executed some more, which meets `Q`. -/
abbrev Continues (dialect : Dialect) (executed : SqlHistory LegacyStatement)
    (Q : α → SqlHistory LegacyStatement → Prop)
    (p : LegacyProgram (Except PersistenceFailure α)) (n : SqlNotes LegacyStatement) : Prop :=
  Noted (legacyMeaning dialect) (fun _ _ => True) (fun answer n' => n'.settled = n.settled ∧
    ∀ value, answer = .ok value →
      ∃ more, n'.opened = some (executed ++ more) ∧ Q value more) p n

/-- One statement, and what follows it. -/
theorem continues_execute {statement : LegacyStatement} {Q : α → SqlHistory LegacyStatement → Prop}
    {next : SqlResult → LegacyProgram (Except PersistenceFailure α)}
    (hopened : n.opened = some executed)
    (hfailed : ∀ e, ∃ f, next (.error e) = .ret (.error f))
    (hok : ∀ response n', n'.opened = some (executed ++ [⟨.execute statement, .ok response⟩]) →
      Continues dialect (executed ++ [⟨.execute statement, .ok response⟩])
        (fun value more => Q value (⟨.execute statement, .ok response⟩ :: more))
        (next (.ok response)) n') :
    Continues dialect executed Q (execute statement >>= next) n := by
  rw [Continues, Noted, wp_bind]
  apply noted_execute hopened trivial
  · intro e
    obtain ⟨f, hnext⟩ := hfailed e
    rw [hnext]
    exact ⟨rfl, nofun⟩
  · intro response
    apply wp_post (hok response { n with opened := some (executed ++ _) } rfl)
    intro answer n' hn'
    obtain ⟨hsettled, hvalue⟩ := hn'
    refine ⟨hsettled, ?_⟩
    intro value hanswer
    obtain ⟨more, hmore, hQ⟩ := hvalue value hanswer
    exact ⟨_, by rw [hmore, List.append_assoc]; rfl, hQ⟩

/-- Nothing more is executed. -/
theorem continues_ret {Q : α → SqlHistory LegacyStatement → Prop}
    {answer : Except PersistenceFailure α} (hopened : n.opened = some executed)
    (hQ : ∀ value, answer = .ok value → Q value []) :
    Continues dialect executed Q (.ret answer) n := by
  refine ⟨rfl, ?_⟩
  intro value hanswer
  exact ⟨[], by rw [hopened, List.append_nil], hQ value hanswer⟩

theorem continues_findById {goodsId : ℤ} (hopened : n.opened = some executed) :
    Continues dialect executed (fun _ _ => True) (findById goodsId) n := by
  apply continues_execute hopened
  · exact fun e => ⟨_, rfl⟩
  · intro response n' hopened'
    exact continues_ret hopened' fun _ _ => trivial

theorem continues_create {goods : NewGoods} (hopened : n.opened = some executed) :
    Continues dialect executed (fun _ _ => True) (create goods) n := by
  apply continues_execute hopened
  · exact fun e => ⟨_, rfl⟩
  · intro response n' hopened'
    show Continues _ _ _ (findById _ >>= _) n'
    rw [Continues, Noted, wp_bind]
    apply wp_post (continues_findById hopened')
    intro found n'' hfound
    obtain ⟨hsettled, hfound⟩ := hfound
    rcases found with f | _ | record
    · exact ⟨hsettled, nofun⟩
    · exact ⟨hsettled, nofun⟩
    · obtain ⟨more, hmore, -⟩ := hfound (some record) rfl
      exact ⟨hsettled, fun _ _ => ⟨more, hmore, trivial⟩⟩

theorem continues_list {filter : GoodsFilter} (hopened : n.opened = some executed) :
    Continues dialect executed (fun _ _ => True) (list filter) n := by
  apply continues_execute hopened
  · exact fun e => ⟨_, rfl⟩
  · intro response n' hopened'
    exact continues_ret hopened' fun _ _ => trivial

theorem continues_findByUsername {username : Bytes} {forUpdate : Bool}
    (hopened : n.opened = some executed) :
    Continues dialect executed (fun _ _ => True) (findByUsername username forUpdate) n := by
  apply continues_execute hopened
  · exact fun e => ⟨_, rfl⟩
  · intro response n' hopened'
    exact continues_ret hopened' fun _ _ => trivial

theorem continues_updatePasswordHash {userId : ℕ} {hash : Bytes}
    (hopened : n.opened = some executed) :
    Continues dialect executed (fun _ _ => True) (updatePasswordHash userId hash) n := by
  apply continues_execute hopened
  · exact fun e => ⟨_, rfl⟩
  · intro response n' hopened'
    show Continues _ _ _ (ite (response.affectedRows ≠ 1) _ _) n'
    split
    · exact continues_ret hopened' fun _ _ => trivial
    · exact continues_ret hopened' fun _ _ => trivial

/-- Goods are marked as taken only upon an `UPDATE` that affected one row. -/
theorem continues_markTaken {goodsId : ℤ} {operatorName : Bytes}
    (hopened : n.opened = some executed) :
    Continues dialect executed (fun outcome more => outcome = .taken →
      ∃ response, SqlResponse.affectedRows response = 1 ∧
        (⟨.execute (.takeGoods operatorName goodsId), .ok response⟩ :
          Event (ExecutorCall LegacyStatement) ExecutorCall.Answer) ∈ more)
      (markTaken goodsId operatorName) n := by
  apply continues_execute hopened
  · exact fun e => ⟨_, rfl⟩
  · intro response n' hopened'
    show Continues _ _ _ (ite (response.affectedRows = 1) _ _) n'
    split
    · rename_i haffected
      exact continues_ret hopened' fun _ _ _ => ⟨response, haffected, List.mem_cons_self⟩
    · apply continues_execute hopened'
      · exact fun e => ⟨_, rfl⟩
      · intro status n'' hopened''
        show Continues _ _ _ (ite (status.rows.isEmpty = true) _ _) n''
        split
        · apply continues_ret hopened''
          intro outcome hanswer htaken
          rw [htaken] at hanswer
          cases hanswer
        · apply continues_ret hopened''
          intro outcome hanswer htaken
          rw [htaken] at hanswer
          cases hanswer

/-! ### The use cases -/

/-- The service in the transaction of its unit, on the notes of its executor. -/
abbrev Proceeds (host : Host) (lease : Except SqlError Unit) (dialect : Dialect)
    (Q : Outcome α → SqlNotes LegacyStatement → Prop) (p : ServiceProgram (Outcome α))
    (s : ServiceState) (n : SqlNotes LegacyStatement) : Prop :=
  Serves host lease (noting (legacyMeaning dialect).server) (Inside dialect)
    (fun result n' => result.2.unit.active = false ∧ Q result.1 n') p s n

variable {Q : Outcome α → SqlNotes LegacyStatement → Prop}

/-- A call of a repository, and what follows its value. -/
theorem proceeds_repository {call : RepositoryCall}
    {P : call.Value → SqlHistory LegacyStatement → Prop}
    {next : Except PersistenceFailure call.Value → ServiceProgram (Outcome α)}
    (hcall : Continues dialect executed P (performRepository call) n)
    (hfailed : ∀ f n', Proceeds host lease dialect Q (next (.error f)) s n')
    (hok : ∀ value more n', n'.opened = some (executed ++ more) → P value more →
      Proceeds host lease dialect Q (next (.ok value)) s n') :
    Proceeds host lease dialect Q (repository call >>= next) s n := by
  apply serves_repository
  apply wp_post hcall
  intro answer n' hn'
  obtain ⟨-, hvalue⟩ := hn'
  cases answer with
  | error f => exact hfailed f n'
  | ok value =>
      obtain ⟨more, hmore, hP⟩ := hvalue value rfl
      exact hok value more n' hmore hP

theorem proceeds_abandon (hunit : s.unit = Transaction.opened) (hQ : ∀ n', Q (.error code) n') :
    Proceeds host lease dialect Q (abandon code) s n := by
  apply serves_abandon
  rw [hunit]
  apply wp_post noted_rollback
  intro t n' hrolled
  exact ⟨hrolled.1, hQ n'⟩

/-- A commit that is answered settles what was executed. -/
theorem proceeds_conclude {next : ServiceProgram (Outcome α)} (hunit : s.unit = Transaction.opened)
    (hopened : n.opened = some executed) (hfailed : ∀ n', Q (.error code) n')
    (hnext : ∀ t n', Transaction.active t = false → n'.settled = n.settled ++ executed →
      Proceeds host lease dialect Q next { s with unit := t } n') :
    Proceeds host lease dialect Q (conclude code next) s n := by
  apply serves_conclude
  rw [hunit]
  apply wp_post (noted_commit hopened)
  intro ended n' hended
  obtain ⟨committed, t⟩ := ended
  obtain ⟨hinactive, -, hended⟩ := hended
  cases committed with
  | error f => exact ⟨hinactive, hfailed n'⟩
  | ok _ => exact hnext t n' hinactive hended

/-- The scope of a unit of work. -/
theorem proceeds_withUnit {mode : WorkUnitMode} {body : ServiceProgram (Outcome α)}
    (hfailed : ∀ n', Q (.error code) n')
    (hbody : ∀ n', n'.opened = some [] →
      Proceeds host lease dialect Q body { s with unit := Transaction.opened } n') :
    Serves host lease (noting (legacyMeaning dialect).server) (Inside dialect)
      (fun result n' => Q result.1 n') (withUnit mode code body) s n := by
  apply serves_withUnit
  cases lease with
  | error e => exact hfailed n
  | ok leased =>
      unfold beginUnitOfWork
      rw [wp_bind]
      apply wp_post (noted_begin mode)
      intro begun n' hbegun
      cases begun with
      | error f => exact hfailed n'
      | ok t =>
          obtain ⟨rfl, hopened⟩ := hbegun.2 t rfl
          apply wp_post (hbody n' hopened)
          intro result n'' hresult
          obtain ⟨hinactive, hQ⟩ := hresult
          rw [Transaction.destroy_inactive hinactive]
          exact hQ

/-- The goods have been taken: there is a settled `UPDATE` that affected their row. -/
def TakenFor (id : ℤ) (n : SqlNotes LegacyStatement) : Prop :=
  ∃ operatorName response, SqlResponse.affectedRows response = 1 ∧
    (⟨.execute (.takeGoods operatorName id), .ok response⟩ :
      Event (ExecutorCall LegacyStatement) ExecutorCall.Answer) ∈ n.settled

theorem proceeds_giveUp (hunit : s.unit = Transaction.opened) :
    Proceeds host lease dialect (fun _ _ => True) (abandon code : ServiceProgram (Outcome α)) s n :=
  proceeds_abandon hunit fun _ => trivial

theorem proceeds_openSession {user : UserRecord} (hunit : s.unit = Transaction.opened)
    (hopened : n.opened = some executed) :
    Proceeds host lease dialect (fun _ _ => True) (openSession user) s n := by
  apply proceeds_conclude hunit hopened fun _ => trivial
  intro t n' hinactive _
  exact ⟨hinactive, trivial⟩

/-- Hashing draws from the host and calls on no server. -/
theorem proceeds_hash {text : Bytes} {next : Except Bytes Bytes → ServiceProgram (Outcome α)}
    (h : Proceeds host lease dialect Q (next (host.hash s.drawn text))
      { s with drawn := s.drawn + 1 } n) :
    Proceeds host lease dialect Q (Program.call (.hash text) next) s n := h

theorem proceeds_upgradePassword {command : LoginCommand} {user : UserRecord}
    (hunit : s.unit = Transaction.opened) (hopened : n.opened = some executed) :
    Proceeds host lease dialect (fun _ _ => True) (upgradePassword command user) s n := by
  show Proceeds host lease dialect (fun _ _ => True)
    (ite (host.needsRehash user.passwordHash = true) _ _) s n
  split
  · apply proceeds_hash
    cases host.hash s.drawn command.password with
    | error e => exact proceeds_giveUp hunit
    | ok hash =>
        show Proceeds host lease dialect (fun _ _ => True)
          (repository (.updatePasswordHash user.id hash) >>= _) { s with drawn := s.drawn + 1 } n
        apply proceeds_repository (continues_updatePasswordHash hopened)
        · exact fun f n' => proceeds_giveUp hunit
        · intro _ more n' hopened' _
          exact proceeds_openSession hunit hopened'
  · exact proceeds_openSession hunit hopened

theorem proceeds_loginUnit {command : LoginCommand} (hunit : s.unit = Transaction.opened)
    (hopened : n.opened = some executed) :
    Proceeds host lease dialect (fun _ _ => True) (loginUnit command) s n := by
  apply proceeds_repository (continues_findByUsername hopened)
  · exact fun f n' => proceeds_giveUp hunit
  intro found more n' hopened' _
  cases found with
  | none => exact proceeds_giveUp hunit
  | some user =>
      show wp _ _ _ ((ite (host.verify user.passwordHash command.password = true) _ _ :
        ServiceProgram (Outcome LoginView)).interpret (performService host lease) s) n'
      split
      · exact proceeds_upgradePassword hunit hopened'
      · exact proceeds_giveUp hunit

theorem proceeds_listUnit {query : ListGoodsQuery} (hunit : s.unit = Transaction.opened)
    (hopened : n.opened = some executed) :
    Proceeds host lease dialect (fun _ _ => True) (listUnit query) s n := by
  apply proceeds_repository (continues_list hopened)
  · exact fun f n' => proceeds_giveUp hunit
  · intro rows more n' hopened' _
    exact proceeds_conclude hunit hopened' (fun _ => trivial) fun _ _ hinactive _ =>
      ⟨hinactive, trivial⟩

theorem proceeds_createUnit {goods : NewGoods} (hunit : s.unit = Transaction.opened)
    (hopened : n.opened = some executed) :
    Proceeds host lease dialect (fun _ _ => True) (createUnit goods) s n := by
  apply proceeds_repository (continues_create hopened)
  · exact fun f n' => proceeds_giveUp hunit
  · intro created more n' hopened' _
    exact proceeds_conclude hunit hopened' (fun _ => trivial) fun _ _ hinactive _ =>
      ⟨hinactive, trivial⟩

/-- Who is told that the goods are taken has taken them. -/
theorem proceeds_takeUnit {goodsId : ℤ} {operatorName : Bytes} (hunit : s.unit = Transaction.opened)
    (hopened : n.opened = some executed) :
    Proceeds host lease dialect (fun result n' => ∀ view, result = .ok view → TakenFor goodsId n')
      (takeUnit goodsId operatorName) s n := by
  have hfailed : ∀ code n' (view : GoodsView),
      (.error code : Outcome GoodsView) = .ok view → TakenFor goodsId n' := fun _ _ _ => nofun
  apply proceeds_repository (continues_markTaken hopened)
  · exact fun f n' => proceeds_abandon hunit (hfailed _)
  intro outcome more n₁ hopened₁ htaken
  cases outcome with
  | notFound => exact proceeds_abandon hunit (hfailed _)
  | alreadyTaken => exact proceeds_abandon hunit (hfailed _)
  | taken =>
      obtain ⟨response, haffected, hupdate⟩ := htaken rfl
      apply proceeds_repository (continues_findById hopened₁)
      · exact fun f n' => proceeds_abandon hunit (hfailed _)
      intro found more' n₂ hopened₂ _
      cases found with
      | none => exact proceeds_abandon hunit (hfailed _)
      | some record =>
          apply proceeds_conclude hunit hopened₂ (hfailed _)
          intro t n₃ hinactive hsettled
          refine ⟨hinactive, fun view _ => ⟨operatorName, response, haffected, ?_⟩⟩
          rw [hsettled]
          simp [hupdate]

/-- A request that takes goods and succeeds has taken them. -/
def TookIfOk {request : Request} (result : Outcome request.View) (n : SqlNotes LegacyStatement) :
    Prop :=
  ∀ id, Takes request id → ∀ view, result = .ok view → TakenFor id n

/-- The program of a request, on the notes of its executor. -/
theorem noted_serve (request : Request) :
    (serve host lease request s).wp (noting (legacyMeaning dialect).server) (Inside dialect)
      (fun result n' => TookIfOk result.1 n') n := by
  -- of requests that take nothing there is nothing to show but that they keep to their transaction
  have hnothing : ∀ {request : Request} {result : Outcome request.View} {n'},
      (∀ command, request ≠ .takeGoods command) → TookIfOk result n' := by
    intro request result n' hother id htakes
    obtain ⟨command, hcommand, -⟩ := htakes
    exact absurd hcommand (hother command)
  cases request with
  | login command =>
      show ((guardedLogin command >>= fun result => clearPassword command.password >>= fun _ =>
        pure result).interpret (performService host lease) s).wp _ _ _ n
      rw [interpret_bind, wp_bind]
      refine wp_post (?_ : wp _ _ (fun _ _ => True) _ n) fun result n' _ => hnothing nofun
      show wp _ _ _ ((ite _ _ _ : ServiceProgram _).interpret (performService host lease) s) n
      split
      · trivial
      · exact proceeds_withUnit (Q := fun _ _ => True) (fun _ => trivial)
          fun n' hopened => proceeds_loginUnit rfl hopened
  | listGoods query =>
      refine wp_post (?_ : wp _ _ (fun _ _ => True) _ n) fun result n' _ => hnothing nofun
      show wp _ _ _ ((authenticated _ _).interpret (performService host lease) s) n
      rw [interpret_authenticated]
      cases s.sessions query.auth with
      | none => trivial
      | some principal =>
          exact proceeds_withUnit (Q := fun _ _ => True) (fun _ => trivial)
            fun n' hopened => proceeds_listUnit rfl hopened
  | createGoods command =>
      refine wp_post (?_ : wp _ _ (fun _ _ => True) _ n) fun result n' _ => hnothing nofun
      show wp _ _ _ ((authorized _ _).interpret (performService host lease) s) n
      rw [interpret_authorized]
      cases s.sessions command.auth with
      | none => trivial
      | some principal =>
          show wp _ _ _ (ite (canWrite principal = true) _ _) n
          split
          · show wp _ _ _ ((ite _ _ _ : ServiceProgram _).interpret (performService host lease) s) n
            split
            · trivial
            · exact proceeds_withUnit (Q := fun _ _ => True) (fun _ => trivial)
                fun n' hopened => proceeds_createUnit rfl hopened
          · trivial
  | takeGoods command =>
      show wp _ _ _ ((authorized _ _).interpret (performService host lease) s) n
      rw [interpret_authorized]
      cases s.sessions command.auth with
      | none => exact nofun
      | some principal =>
          show wp _ _ _ (ite (canWrite principal = true) _ _) n
          split
          · cases hparsed : parseGoodsId command.suppliedId with
            | none =>
                intro id _ view hview
                cases hview
            | some goodsId =>
                refine wp_post (proceeds_withUnit (fun _ _ => nofun) fun n' hopened =>
                  proceeds_takeUnit rfl hopened) ?_
                intro result n' htaken id htakes view hview
                obtain ⟨command', hcommand, hid⟩ := htakes
                obtain rfl := Request.takeGoods.inj hcommand
                rw [hparsed] at hid
                obtain rfl := Option.some.inj hid
                exact htaken view hview
          · intro id _ view hview
            cases hview

end Requests

/-! ## The requests together -/

section Ledger

open Program RowSystem

/-- Requests, each with what it meets: the host it runs on, what the pool gives it, and the state
of the service. -/
structure Incoming where
  host : Host
  lease : Except SqlError Unit
  service : ServiceState
  request : Request

/-- What a request returns. -/
abbrev Reply : Type := Σ request : Request, Outcome request.View

/-- The program of a request, up to its reply. -/
def Incoming.program (incoming : Incoming) : LegacyProgram Reply := do
  let (result, _) ← serve incoming.host incoming.lease incoming.request incoming.service
  return ⟨incoming.request, result⟩

/-- The requests around the goods. -/
abbrev Requests : Type :=
  RowSystem (ExecutorCall LegacyStatement) ExecutorCall.Answer LegacyKey LegacyRecord Reply

/-- No request has begun. -/
def arrivals (incoming : ℕ → Incoming) (rows : LegacyRows) (counter : ℕ) : Requests :=
  init (fun i => (incoming i).program) rows counter

/-- Request `i` has returned success. -/
def Succeeded (c : Requests) (i : ℕ) : Prop :=
  ∃ reply view, (c.clients i).program = .ret reply ∧ reply.2 = .ok view

/-- The requests may send what they are entitled to. -/
def Allowed (incoming : ℕ → Incoming) (i : ℕ) : ExecutorCall LegacyStatement → Prop :=
  Sending (Entitled (incoming i).service (incoming i).request)

/-- Somebody who asks for the goods with this id acts under this name. -/
def Taker (incoming : ℕ → Incoming) (id : ℤ) (operatorName : Bytes) : Prop :=
  ∃ i, Takes (incoming i).request id ∧
    ActsAs (incoming i).service (incoming i).request operatorName

variable {dialect : Dialect} {incoming : ℕ → Incoming} {rows₀ : LegacyRows} {counter : ℕ}
  {c c' : Requests} {id : ℤ}

/-- What is known of a reply when it is given. -/
def Justified (incoming : ℕ → Incoming) (i : ℕ) (reply : Reply) (n : SqlNotes LegacyStatement) :
    Prop :=
  ∀ id, Takes (incoming i).request id → ∀ view, reply.2 = .ok view → TakenFor id n

theorem noted_program (i : ℕ) :
    (incoming i).program.wp (noting (legacyMeaning dialect).server)
      (Demands (legacyMeaning dialect).server fun _ op => Allowed incoming i op)
      (Justified incoming i) {} := by
  unfold Incoming.program
  rw [wp_bind]
  have hnoted : (serve (incoming i).host (incoming i).lease (incoming i).request
      (incoming i).service).wp (noting (legacyMeaning dialect).server) (Inside dialect)
      (fun result n => TookIfOk result.1 n) {} := noted_serve (incoming i).request
  refine wp_mono (wp_emits hnoted (emits_serve (incoming i).request)) (fun _ _ _ _ h => h) ?_ ?_
  · intro op n answer n' _ h hrole
    obtain ⟨hallowed, hinside⟩ := h
    obtain ⟨executed, hopened, -⟩ := hinside hrole
    exact ⟨executed, hopened, hallowed⟩
  · intro result n htook
    exact htook

/-- In every interleaving what the requests know is so, and the log has only what they may send. -/
theorem tracked_arrivals
    (hreach : Reachable (legacyMeaning dialect).server (arrivals incoming rows₀ counter) c) :
    c.Tracked (legacyMeaning dialect).server rows₀ (fun i _ op => Allowed incoming i op)
      (Justified incoming) (RowStore.Logged (Allowed incoming)) :=
  tracked_of_reachable (RowStore.logged_invariant (Allowed incoming)) nofun noted_program hreach

/-- From one moment to a later one, every row of goods stands. -/
theorem rows_stand
    (hreach : Reachable (legacyMeaning dialect).server (arrivals incoming rows₀ counter) c)
    (hlater : Reachable (legacyMeaning dialect).server c c') (id : ℤ) :
    Stands dialect (Taker incoming id) (c.store.rows (.goods id)) (c'.store.rows (.goods id)) := by
  have hbefore := (tracked_arrivals hreach).ruled.sound
  have hafter := tracked_arrivals (hreach.trans hlater)
  obtain ⟨since, hsince⟩ := log_of_reachable hlater
  have hfaithful := hafter.ruled.sound.log
  rw [← hsince] at hfaithful
  obtain ⟨-, hrest⟩ := faithful_append.mp hfaithful
  rw [hafter.ruled.sound.rows, ← hsince, replay_append, ← hbefore.rows]
  rw [← hbefore.rows] at hrest
  apply hrest.evolves
  intro e he record hwrite
  have hlogged : e ∈ c'.store.log := by
    rw [← hsince]
    exact List.mem_append_right _ he
  apply stands_of_performed (hafter.ruled.sound.logged e hlogged) _ hwrite
  intro operatorName hsent
  obtain ⟨hacts, htakes⟩ := hafter.kept e hlogged _ hsent
  exact ⟨e.client, htakes, hacts⟩

/-- A request that has succeeded in taking goods has an entry in the log that took them. -/
theorem took_of_succeeded
    (h : c.Tracked (legacyMeaning dialect).server rows₀ (fun i _ op => Allowed incoming i op)
      (Justified incoming) (RowStore.Logged (Allowed incoming)))
    {i : ℕ} (htakes : Takes (incoming i).request id) (hsucceeded : Succeeded c i) :
    ∃ e ∈ c.store.log, e.client = i ∧ Took id e := by
  obtain ⟨reply, view, hreturned, hok⟩ := hsucceeded
  obtain ⟨operatorName, response, haffected, hsettled⟩ := h.returned hreturned id htakes view hok
  obtain ⟨e, hlogged, hclient, hevent⟩ := (h.agrees i).settled _ hsettled
  exact ⟨e, hlogged, hclient, operatorName, response, haffected, hevent⟩

/-- The goods ledger.  However many requests overlap, and whatever fails: from any moment to any
later one a committed row of goods is still there, with its name, its place and the time it came,
and it is either the same row, or it was not taken before and now is, with a time, by somebody who
asked for it; and of all requests for the same goods at most one has returned success. -/
theorem goodsLedger_sound
    (hreach : Reachable (legacyMeaning dialect).server (arrivals incoming rows₀ counter) c)
    (hlater : Reachable (legacyMeaning dialect).server c c') :
    (∀ id row, LegacyRows.goods c.store.rows id = some row →
      ∃ row', LegacyRows.goods c'.store.rows id = some row' ∧
      row'.name = row.name ∧ row'.location = row.location ∧ row'.storedAt = row.storedAt ∧
      (row' = row ∨ (¬ dialect.isTaken row ∧ row'.status = lit "taken" ∧ row'.takenAt ≠ none ∧
        Taker incoming id row'.operatorName))) ∧
    ∀ id i j, Takes (incoming i).request id → Takes (incoming j).request id →
      Succeeded c i → Succeeded c j → i = j := by
  constructor
  · intro id row hrow
    have hrecord : c.store.rows (.goods id) = some (.goods row) := by
      unfold LegacyRows.goods at hrow
      split at hrow
      · rename_i found hfound
        rw [hfound, Option.some.inj hrow]
      · cases hrow
    rcases rows_stand hreach hlater id row hrecord with
      hsame | ⟨hfree, takenAt, operatorName, htaker, htaken⟩
    · exact ⟨row, by simp [LegacyRows.goods, hsame], rfl, rfl, rfl, Or.inl rfl⟩
    · exact ⟨row.take takenAt operatorName, by simp [LegacyRows.goods, htaken], rfl, rfl, rfl,
        Or.inr ⟨hfree, rfl, Option.some_ne_none takenAt, htaker⟩⟩
  · intro id i j htakes htakes' hsucceeded hsucceeded'
    have htracked := tracked_arrivals hreach
    obtain ⟨e, he, hclient, htook⟩ := took_of_succeeded htracked htakes hsucceeded
    obtain ⟨f, hf, hclient', htook'⟩ := took_of_succeeded htracked htakes' hsucceeded'
    have hsame : e = f := took_unique htracked.ruled.sound.log htracked.ruled.sound.logged he hf
      htook htook'
    rw [← hclient, ← hclient', hsame]

end Ledger

/-! ## Alice takes the pallet -/

section Witness

open RowSystem LoneSession

/-- Somebody with the session of alice takes the goods with the id 1. -/
def takingPallet : Incoming where
  host := trustingHost
  lease := .ok ()
  service := { sessions := aliceSession }
  request := .takeGoods ⟨lit "4f6b", lit "G000001"⟩

/-- The pallet is there. -/
def palletStands : LegacyRows := writeGoods 1 palletRow

/-- The pallet, once it is taken. -/
def palletTaken : GoodsRow := palletRow.take (lit "2026-01-02 00:00:00") (lit "alice")

def takingEvents : SqlHistory LegacyStatement :=
  [⟨.control (.setIsolation .command), .ok {}⟩, ⟨.control (.start .command), .ok {}⟩,
    ⟨.execute (.takeGoods (lit "alice") 1), .ok { affectedRows := 1 }⟩,
    ⟨.execute (.selectGoods 1), .ok { rows := [palletTaken.cells 1] }⟩, ⟨.control .commit, .ok {}⟩]

/-- A server that lets the pallet be taken. -/
def takingServer : (call : ExecutorCall LegacyStatement) → Unit → call.Answer × Unit
  | .control _, s => (.ok {}, s)
  | .poison, s => ((), s)
  | .execute (.takeGoods _ _), s => (.ok { affectedRows := 1 }, s)
  | .execute _, s => (.ok { rows := [palletTaken.cells 1] }, s)

theorem runs_takingPallet :
    ∃ reply view, Program.Runs takingPallet.program takingEvents reply ∧ reply.2 = .ok view :=
  ⟨_, _, Program.runs_exec takingServer takingPallet.program (), rfl⟩

/-- The rows before anything happens. -/
def palletSession : LoneSession LegacyStatement LegacyKey LegacyRecord where
  store := { rows := palletStands, counter := 2 }

theorem answers_takingPallet :
    ∃ after, Program.Answers (answers (legacyMeaning byteDialect)) palletSession takingEvents
      after := by
  obtain ⟨s₁, h₁, hfree₁, hactive₁, hview₁, -⟩ :=
    can_start (s := palletSession) (legacyMeaning byteDialect) {} .command rfl
  have hpallet : LegacyRows.goods s₁.view 1 = some palletRow := by
    rw [hview₁]
    rfl
  obtain ⟨s₂, h₂, hfree₂, hactive₂, hview₂, -⟩ := can_execute hfree₁ hactive₁
    (show legacyMeaning byteDialect (.takeGoods (lit "alice") 1) s₁.view s₁.store.counter
      { affectedRows := 1 } _ _ _ from
      ⟨rfl, Or.inl ⟨palletRow, lit "2026-01-02 00:00:00", hpallet, by decide, rfl, rfl, rfl⟩⟩)
  have htaken : LegacyRows.goods s₂.view 1 = some palletTaken := by
    rw [hview₂]
    rfl
  obtain ⟨s₃, h₃, -, -, hview₃, -⟩ := can_execute hfree₂ hactive₂
    (show legacyMeaning byteDialect (.selectGoods 1) s₂.view s₂.store.counter
      { rows := [palletTaken.cells 1] } _ _ _ from ⟨⟨rfl, rfl, rfl⟩, by rw [htaken]; rfl⟩)
  exact ⟨_, .cons (can_isolate .command) (.cons h₁ (.cons h₂ (.cons h₃ (.cons can_commit
    (.nil _)))))⟩

/-- Many ask for the pallet, and one is told that it has it. -/
theorem goodsLedger_sound_pallet :
    ∃ c, Reachable (legacyMeaning byteDialect).server
        (arrivals (fun _ => takingPallet) palletStands 2) c ∧ Succeeded c 0 ∧
      (∀ j, Succeeded c j → 0 = j) ∧
      ∃ row, LegacyRows.goods c.store.rows 1 = some row ∧ row.name = lit "pallet" := by
  obtain ⟨reply, view, hrun, hok⟩ := runs_takingPallet
  obtain ⟨after, hanswers⟩ := answers_takingPallet
  have hperformed : ∀ event ∈ takingEvents, event.1.performed event.2 = true := by
    simp [takingEvents, ExecutorCall.performed, Except.isOk, Except.toBool]
  obtain ⟨c, hreach, -, hreturned⟩ :=
    reachable_of_answers (c := arrivals (fun _ => takingPallet) palletStands 2) hrun hanswers
      hperformed rfl rfl rfl rfl
  have hsucceeded : Succeeded c 0 := ⟨reply, view, hreturned, hok⟩
  have htakes : Takes takingPallet.request 1 := ⟨_, rfl, by decide⟩
  obtain ⟨row, hrow, hname, -⟩ := (goodsLedger_sound .refl hreach).1 1 palletRow rfl
  exact ⟨c, hreach, hsucceeded,
    fun j hj => (goodsLedger_sound hreach .refl).2 1 0 j htakes htakes hsucceeded hj,
    row, hrow, hname⟩

end Witness

end Warehouse.Backend
