/-
# Warehouse.Interaction.MappedClients — clients that do something more with their results

A client that goes on without another call once its program has returned does to the store what the
program does.  So a run of such clients is a run of the programs, step for step, with every result
mapped; what is proved of every run of the one is true of every run of the other.

This module names nothing of the warehouse.
-/
import Warehouse.Interaction.Snapshots

namespace Warehouse.Interaction

namespace Program

variable {Op : Type} {Ans : Op → Type} {α β : Type} {p q : Program Op Ans α}

/-- The result, mapped. -/
def mapped (f : α → β) (p : Program Op Ans α) : Program Op Ans β := p >>= fun a => .ret (f a)

variable {f : α → β}

/-- A mapped program that makes a call was one that makes it. -/
theorem call_of_mapped {op : Op} {next : Ans op → Program Op Ans β}
    (h : p.mapped f = .call op next) :
    ∃ before, p = .call op before ∧ ∀ answer, next answer = (before answer).mapped f := by
  cases p with
  | ret a => cases h
  | call op' before =>
      obtain ⟨rfl, hnext⟩ := Program.call.inj h
      obtain rfl := eq_of_heq hnext
      exact ⟨before, rfl, fun _ => rfl⟩

theorem ret_of_mapped {b : β} (h : p.mapped f = .ret b) : ∃ a, p = .ret a ∧ f a = b := by
  cases p with
  | ret a => exact ⟨a, rfl, Program.ret.inj h⟩
  | call op next => cases h

theorem Rest.mapped (h : Rest p q) (f : α → β) : Rest (p.mapped f) (q.mapped f) := by
  induction h with
  | refl => exact .refl _
  | call answer _ ih => exact Rest.call answer ih

/-- What is left of a program is all of it, if that is so once both are mapped. -/
theorem Rest.eq_of_mapped (h : Rest p q) (hsame : q.mapped f = p.mapped f) : q = p := by
  cases p with
  | ret a => exact h.of_ret
  | call op next =>
      rcases h.eq_or with hwhole | ⟨answer, hrest⟩
      · exact hwhole
      · have hback := hrest.mapped f
        rw [hsame] at hback
        exact absurd rfl hback.next_ne

end Program

namespace RowSystem

variable {Op : Type} {Ans : Op → Type} {K R α β : Type} {srv : RowServer Op Ans K R} {f : ℕ → α → β}
  {c : RowSystem Op Ans K R α} {n i : ℕ}

/-- A client whose result is mapped. -/
def mappedClient (f : α → β) (client : RowClient Op Ans α) : RowClient Op Ans β where
  program := client.program.mapped f
  notes := client.notes
  connected := client.connected
  inflight := client.inflight

/-- The same store, and every client with its result mapped. -/
def mapped (f : ℕ → α → β) (c : RowSystem Op Ans K R α) : RowSystem Op Ans K R β where
  store := c.store
  clients i := mappedClient (f i) (c.clients i)

theorem mapped_put (client : RowClient Op Ans α) (store : RowStore Op Ans K R) :
    (c.put i client store).mapped f = (c.mapped f).put i (mappedClient (f i) client) store := by
  refine congrArg (RowSystem.mk store) (funext fun j => ?_)
  by_cases hj : j = i
  · subst hj
    simp [put]
  · simp [put, mapped, hj]

/-- A step of mapped clients is one of the clients. -/
theorem step_of_mapped {b : RowSystem Op Ans K R β} (h : Step srv (c.mapped f) b) :
    ∃ c', Step srv c c' ∧ b = c'.mapped f := by
  have hput : ∀ {i : ℕ} {client : RowClient Op Ans β} {before : RowClient Op Ans α}
      {store : RowStore Op Ans K R}, client = mappedClient (f i) before →
      (c.mapped f).put i client store = (c.put i before store).mapped f := by
    rintro i _ before store rfl
    exact (mapped_put before store).symm
  cases h with
  | @outside i op next answer hprogram hrole =>
      obtain ⟨before, hbefore, hnext⟩ := Program.call_of_mapped hprogram
      refine ⟨c.put i ((c.clients i).answered srv op answer (before answer)) _,
        .outside i hbefore hrole, hput ?_⟩
      rw [hnext]
      rfl
  | @served i op next answer store hprogram hconnected halive hok hserves =>
      obtain ⟨before, hbefore, hnext⟩ := Program.call_of_mapped hprogram
      refine ⟨c.put i ((c.clients i).answered srv op answer (before answer)) store,
        .served i hbefore hconnected halive hok hserves, hput ?_⟩
      rw [hnext]
      rfl
  | @failed i op next answer hprogram hrole hok =>
      obtain ⟨before, hbefore, hnext⟩ := Program.call_of_mapped hprogram
      refine ⟨c.put i ((c.clients i).answered srv op answer (before answer)) _,
        .failed i hbefore hrole hok, hput ?_⟩
      rw [hnext]
      rfl
  | @aborted i op next answer hprogram hrole hok hconnected =>
      obtain ⟨before, hbefore, hnext⟩ := Program.call_of_mapped hprogram
      refine ⟨c.put i ((c.clients i).answered srv op answer (before answer)) _,
        .aborted i hbefore hrole hok hconnected, hput ?_⟩
      rw [hnext]
      rfl
  | @lost i op next answer hprogram hrole hok hconnected =>
      obtain ⟨before, hbefore, hnext⟩ := Program.call_of_mapped hprogram
      refine ⟨c.put i { (c.clients i).answered srv op answer (before answer) with
        connected := false, inflight := some op } _, .lost i hbefore hrole hok hconnected, hput ?_⟩
      rw [hnext]
      rfl
  | @arrives i op answer store hinflight halive hserves =>
      exact ⟨c.put i { c.clients i with inflight := none } store,
        .arrives i hinflight halive hserves, hput rfl⟩
  | close i => exact ⟨c.put i { c.clients i with inflight := none } _, .close i, hput rfl⟩

/-- A run of mapped clients is one of the clients. -/
theorem run_of_mapped {run : ℕ → RowSystem Op Ans K R β} (h : IsRun srv run n)
    (hstart : run 0 = c.mapped f) :
    ∃ before : ℕ → RowSystem Op Ans K R α, IsRun srv before n ∧ before 0 = c ∧
      ∀ k ≤ n, run k = (before k).mapped f := by
  induction n with
  | zero =>
      refine ⟨fun _ => c, fun k hk => absurd hk (Nat.not_lt_zero k), rfl, ?_⟩
      intro k hk
      obtain rfl := Nat.le_zero.mp hk
      exact hstart
  | succ n ih =>
      obtain ⟨before, hsteps, hfirst, hsame⟩ := ih fun k hk => h k (by omega)
      have hlast := h n (by omega)
      rw [hsame n (Nat.le_refl n)] at hlast
      obtain ⟨c', hstep, hafter⟩ := step_of_mapped hlast
      refine ⟨fun k => if k ≤ n then before k else c', ?_, by simpa using hfirst, ?_⟩
      · intro k hk
        rcases Nat.lt_or_eq_of_le (Nat.le_of_lt_succ hk) with hlt | rfl
        · simpa [show k ≤ n by omega, show k + 1 ≤ n by omega] using hsteps k hlt
        · simpa [show ¬ k + 1 ≤ k by omega] using hstep
      · intro k hk
        rcases Nat.lt_or_eq_of_le hk with hlt | rfl
        · simpa [show k ≤ n by omega] using hsame k (by omega)
        · simpa [show ¬ n + 1 ≤ n by omega] using hafter

end RowSystem

end Warehouse.Interaction
