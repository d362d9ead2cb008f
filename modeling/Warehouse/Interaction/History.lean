/-
# Warehouse.Interaction.History — everything a program may do against an arbitrary environment

The most hostile environment answers every call in any way its type allows.  What is left to
reason about then is the history: the list of calls with the answers they got, oldest first.
`Runs p events a` says that `p`, answered as in `events`, makes exactly these calls and returns `a`;
every behaviour of every environment is one such run, and a run that is cut short is a prefix of
one.  `runs_of_wp` turns a weakest precondition over histories into a statement about runs, with
the guarantee holding at each event over the events before it.
-/
import Mathlib.Data.List.Induction
import Warehouse.Interaction.Program

namespace Warehouse.Interaction

/-- A call together with the answer it got. -/
abbrev Event (Op : Type) (Ans : Op → Type) : Type := (op : Op) × Ans op

/-- The events of a run so far, oldest first. -/
abbrev History (Op : Type) (Ans : Op → Type) : Type := List (Event Op Ans)

/-! ## Calls that are made once -/

section Once

variable {Op : Type} {Ans : Op → Type} {events : History Op Ans}

/-- A call that is never made again has one answer. -/
theorem answer_unique {op : Op} {answer answer' : Ans op}
    (honce : ∀ past answer future, events = past ++ ⟨op, answer⟩ :: future →
      ∀ before, (⟨op, before⟩ : Event Op Ans) ∉ past)
    (h : ⟨op, answer⟩ ∈ events) (h' : ⟨op, answer'⟩ ∈ events) : answer = answer' := by
  obtain ⟨past, future, hsplit⟩ := List.append_of_mem h
  rw [hsplit] at h'
  rcases List.mem_append.mp h' with hbefore | hbehind
  · exact absurd hbefore (honce past answer future hsplit answer')
  rcases List.mem_cons.mp hbehind with hsame | hlater
  · cases hsame
    rfl
  · obtain ⟨between, rest, rfl⟩ := List.append_of_mem hlater
    have hagain : events = (past ++ ⟨op, answer⟩ :: between) ++ ⟨op, answer'⟩ :: rest := by
      rw [hsplit]
      simp
    exact absurd (by simp) (honce _ answer' rest hagain answer)

end Once

/-- Elements of a kind that none of the same kind may follow. -/
theorem countP_le_one {ι : Type} {p : ι → Bool} {xs : List ι}
    (honce : ∀ past x future, xs = past ++ x :: future → p x = true →
      ∀ before ∈ past, ¬ p before = true) : xs.countP p ≤ 1 := by
  induction xs using List.reverseRecOn with
  | nil => simp
  | append_singleton xs x ih =>
      rw [List.countP_append]
      by_cases hx : p x = true
      · have hnone : xs.countP p = 0 := List.countP_eq_zero.mpr (honce xs x [] rfl hx)
        rw [hnone]
        simp [hx]
      · have hold : xs.countP p ≤ 1 := by
          apply ih
          intro past first future hsplit hfirst
          exact honce past first (future ++ [x]) (by simp [hsplit]) hfirst
        simpa [hx] using hold

namespace Program

variable {Op : Type} {Ans : Op → Type} {α β ε : Type}

/-- `p` makes exactly the calls `events`, is answered as recorded there, and returns the value. -/
inductive Runs : Program Op Ans α → History Op Ans → α → Prop
  | ret (a : α) : Runs (.ret a) [] a
  | call {op : Op} {next : Ans op → Program Op Ans α} {answer : Ans op}
      {events : History Op Ans} {a : α} :
      Runs (next answer) events a → Runs (.call op next) (⟨op, answer⟩ :: events) a

/-- The environment that answers anything and only records. -/
def recording (op : Op) (h : History Op Ans) (answer : Ans op) (h' : History Op Ans) : Prop :=
  h' = h ++ [⟨op, answer⟩]

/-- A demand on a call over the events before it, read as a guarantee of `recording`. -/
def demand (D : History Op Ans → Event Op Ans → Prop) :
    Environment Op Ans (History Op Ans) :=
  fun op h answer _ => D h ⟨op, answer⟩

variable {D : History Op Ans → Event Op Ans → Prop} {Q : α → History Op Ans → Prop}

/-- From the history `h`, every call meets `D` over what came before it and the result meets `Q`. -/
abbrev wph (D : History Op Ans → Event Op Ans → Prop) (Q : α → History Op Ans → Prop)
    (p : Program Op Ans α) (h : History Op Ans) : Prop :=
  wp recording (demand D) Q p h

@[simp] theorem wph_call (op : Op) (next : Ans op → Program Op Ans α) (h : History Op Ans) :
    wph D Q (.call op next) h ↔
      ∀ answer, D h ⟨op, answer⟩ ∧ wph D Q (next answer) (h ++ [⟨op, answer⟩]) := by
  constructor
  · intro hp answer
    exact hp answer _ rfl
  · intro hp answer h' hh'
    rw [show h' = h ++ [⟨op, answer⟩] from hh']
    exact hp answer

/-- A program only ever adds to the history. -/
theorem wph_extends {p : Program Op Ans α} {h : History Op Ans} (hp : wph D Q p h) :
    wph D (fun a h' => h <+: h' ∧ Q a h') p h := by
  induction p generalizing h with
  | ret a => exact ⟨List.prefix_refl h, hp⟩
  | call op next ih =>
      rw [wph_call] at hp ⊢
      intro answer
      obtain ⟨hdemand, hnext⟩ := hp answer
      refine ⟨hdemand, wp_post (ih answer hnext) ?_⟩
      rintro a h' ⟨hext, hQ⟩
      exact ⟨(List.prefix_append h _).trans hext, hQ⟩

theorem wpx_extends {X : ε → History Op Ans → Prop} {p : ExceptT ε (Program Op Ans) α}
    {h : History Op Ans} (hp : wpx recording (demand D) Q X p h) :
    wpx recording (demand D) (fun a h' => h <+: h' ∧ Q a h') (fun e h' => h <+: h' ∧ X e h') p h := by
  refine wp_post (wph_extends hp) ?_
  rintro (e | a) h' hh' <;> exact hh'

/-- What is added consists of calls that the program can make. -/
theorem wph_emits {P : Op → Prop} {p : Program Op Ans α} {h : History Op Ans}
    (hp : wph D Q p h) (hemits : p.Emits P) :
    wph D (fun a h' => ∃ new, h' = h ++ new ∧ (∀ event ∈ new, P event.1) ∧ Q a h') p h := by
  induction p generalizing h with
  | ret a => exact ⟨[], (List.append_nil h).symm, by simp, hp⟩
  | call op next ih =>
      rw [wph_call] at hp ⊢
      intro answer
      obtain ⟨hdemand, hnext⟩ := hp answer
      refine ⟨hdemand, wp_post (ih answer hnext (hemits.2 answer)) ?_⟩
      rintro a h' ⟨new, rfl, hnew, hQ⟩
      refine ⟨⟨op, answer⟩ :: new, by simp, ?_, hQ⟩
      intro event hevent
      rcases List.mem_cons.mp hevent with rfl | hevent
      · exact hemits.1
      · exact hnew event hevent

theorem wpx_emits {P : Op → Prop} {X : ε → History Op Ans → Prop}
    {p : ExceptT ε (Program Op Ans) α} {h : History Op Ans}
    (hp : wpx recording (demand D) Q X p h) (hemits : p.run.Emits P) :
    wpx recording (demand D)
      (fun a h' => ∃ new, h' = h ++ new ∧ (∀ event ∈ new, P event.1) ∧ Q a h') X p h := by
  refine wp_post (wph_emits hp hemits) ?_
  rintro (e | a) h' ⟨new, hnew⟩
  · exact hnew.2.2
  · exact ⟨new, hnew⟩

/-- Histories reach every leaf, so what they say of the value alone holds against any environment. -/
theorem returns_of_wph {P : α → Prop} {p : Program Op Ans α} {h : History Op Ans}
    (hp : wph D Q p h) (hQ : ∀ a h, Q a h → P a) : p.Returns P := by
  induction p generalizing h with
  | ret a => exact hQ a h hp
  | call op next ih =>
      rw [wph_call] at hp
      exact fun answer => ih answer (hp answer).2

theorem Returns.of_runs {P : α → Prop} {p : Program Op Ans α} {events : History Op Ans} {a : α}
    (h : p.Returns P) (hrun : Runs p events a) : P a := by
  induction hrun with
  | ret a => exact h
  | @call op next answer events a _ ih => exact ih (h answer)

/-- Every run of a program meets its history precondition: the result at the full history, the
demand at each event over its past. -/
theorem runs_of_wp {p : Program Op Ans α} {h events : History Op Ans} {a : α}
    (hp : wph D Q p h) (hrun : Runs p events a) :
    Q a (h ++ events) ∧ ∀ past event future, events = past ++ event :: future →
      D (h ++ past) event := by
  induction hrun generalizing h with
  | ret a =>
      refine ⟨by simpa using hp, ?_⟩
      intro past event future hnil
      simp at hnil
  | @call op next answer events a _ ih =>
      obtain ⟨hdemand, hnext⟩ := (wph_call op next h).mp hp answer
      obtain ⟨hpost, hguard⟩ := ih hnext
      refine ⟨by simpa using hpost, ?_⟩
      intro past event future hsplit
      cases past with
      | nil =>
          simp only [List.nil_append, List.cons.injEq] at hsplit
          rw [List.append_nil, ← hsplit.1]
          exact hdemand
      | cons first past =>
          simp only [List.cons_append, List.cons.injEq] at hsplit
          rw [← hsplit.1]
          simpa using hguard past event future hsplit.2

/-- `E` may answer every call of the history as it says there, and is taken from `s` to `s'`. -/
inductive Answers {σ : Type} (E : Environment Op Ans σ) : σ → History Op Ans → σ → Prop
  | nil (s : σ) : Answers E s [] s
  | cons {op : Op} {answer : Ans op} {events : History Op Ans} {s s' s'' : σ} :
      E op s answer s' → Answers E s' events s'' → Answers E s (⟨op, answer⟩ :: events) s''

theorem Answers.split {σ : Type} {E : Environment Op Ans σ} {s s' : σ} {past future : History Op Ans}
    {event : Event Op Ans} (h : Answers E s (past ++ event :: future) s') :
    ∃ before behind, Answers E s past before ∧ E event.1 before event.2 behind ∧
      Answers E behind future s' := by
  induction past generalizing s with
  | nil =>
      cases h with
      | cons henv hrest => exact ⟨s, _, .nil s, henv, hrest⟩
  | cons first past ih =>
      cases h with
      | cons henv hrest =>
          obtain ⟨before, behind, hpast, hevent, hfuture⟩ := ih hrest
          exact ⟨before, behind, .cons henv hpast, hevent, hfuture⟩

/-- What every answered call of the history keeps holds at its end. -/
theorem Answers.keeps {σ : Type} {E : Environment Op Ans σ} {I : σ → Prop} {s s' : σ}
    {events : History Op Ans} (h : Answers E s events s')
    (hstep : ∀ event ∈ events, ∀ s s', I s → E event.1 s event.2 s' → I s') (hI : I s) : I s' := by
  induction h with
  | nil => exact hI
  | cons henv _ ih =>
      exact ih (fun event hevent => hstep event (List.mem_cons_of_mem _ hevent))
        (hstep _ List.mem_cons_self _ _ hI henv)

/-- What is known of every event is known of the environment. -/
theorem Answers.restrict {σ : Type} {E : Environment Op Ans σ} {P : Event Op Ans → Prop} {s s' : σ}
    {events : History Op Ans} (h : Answers E s events s') (hP : ∀ event ∈ events, P event) :
    Answers (fun op s answer s' => E op s answer s' ∧ P ⟨op, answer⟩) s events s' := by
  induction h with
  | nil s => exact .nil s
  | cons hstep _ ih =>
      refine .cons ⟨hstep, hP _ List.mem_cons_self⟩ (ih ?_)
      intro event hevent
      exact hP event (List.mem_cons_of_mem _ hevent)

/-- A run under an environment: the result at the end, and the guarantee at every event. -/
theorem runs_under {σ : Type} {E G : Environment Op Ans σ} {Q : α → σ → Prop} {p : Program Op Ans α}
    {events : History Op Ans} {a : α} {s s' : σ} (hp : wp E G Q p s) (hrun : Runs p events a)
    (hanswers : Answers E s events s') :
    Q a s' ∧ ∀ event ∈ events, ∃ before after, G event.1 before event.2 after := by
  induction hrun generalizing s with
  | ret a =>
      cases hanswers
      exact ⟨hp, by simp⟩
  | call _ ih =>
      cases hanswers with
      | cons henv hrest =>
          obtain ⟨hguar, hnext⟩ := hp _ _ henv
          obtain ⟨hQ, hevents⟩ := ih hnext hrest
          refine ⟨hQ, fun event hevent => ?_⟩
          rcases List.mem_cons.mp hevent with rfl | hevent
          · exact ⟨_, _, hguar⟩
          · exact hevents event hevent

/-- A possible run, as the calls that it makes. -/
theorem runs_of_may {σ : Type} {E : Environment Op Ans σ} {Q : α → σ → Prop} {p : Program Op Ans α}
    {s : σ} (h : may E Q p s) : ∃ events a s', Runs p events a ∧ Answers E s events s' ∧ Q a s' := by
  induction p generalizing s with
  | ret a => exact ⟨[], a, s, .ret a, .nil s, h⟩
  | call op next ih =>
      obtain ⟨answer, s', hstep, hrest⟩ := h
      obtain ⟨events, a, s'', hrun, hanswers, hQ⟩ := ih answer hrest
      exact ⟨⟨op, answer⟩ :: events, a, s'', .call hrun, .cons hstep hanswers, hQ⟩

/-- Run `p` against a machine that answers each call from its state: the events and the value. -/
def exec {σ : Type} (respond : (op : Op) → σ → Ans op × σ) :
    Program Op Ans α → σ → History Op Ans × α
  | .ret a, _ => ([], a)
  | .call op next, s =>
      let (answer, s') := respond op s
      let (events, a) := (next answer).exec respond s'
      (⟨op, answer⟩ :: events, a)

theorem runs_exec {σ : Type} (respond : (op : Op) → σ → Ans op × σ) (p : Program Op Ans α) (s : σ) :
    Runs p (p.exec respond s).1 (p.exec respond s).2 := by
  induction p generalizing s with
  | ret a => exact .ret a
  | call op next ih => exact .call (ih (respond op s).1 (respond op s).2)

/-- Runs compose along `bind`. -/
theorem runs_bind {p : Program Op Ans α} {f : α → Program Op Ans β} {events : History Op Ans}
    {b : β} : Runs (p >>= f) events b ↔
      ∃ first second a, events = first ++ second ∧ Runs p first a ∧ Runs (f a) second b := by
  induction p generalizing events with
  | ret a =>
      constructor
      · intro h
        exact ⟨[], events, a, rfl, .ret a, h⟩
      · rintro ⟨first, second, a', rfl, hfirst, hsecond⟩
        cases hfirst
        exact hsecond
  | call op next ih =>
      constructor
      · intro h
        cases h with
        | @call _ _ answer events _ hrest =>
            obtain ⟨first, second, a, rfl, hfirst, hsecond⟩ := (ih answer).mp hrest
            exact ⟨⟨op, answer⟩ :: first, second, a, rfl, .call hfirst, hsecond⟩
      · rintro ⟨first, second, a, rfl, hfirst, hsecond⟩
        cases hfirst with
        | @call _ _ answer first _ hrest =>
            exact .call ((ih answer).mpr ⟨first, second, a, rfl, hrest, hsecond⟩)

/-! ## Whole traces -/

/-- Every run of `p` makes calls, and returns a value, that satisfy `R` together. -/
def Traces : Program Op Ans α → (History Op Ans → α → Prop) → Prop
  | .ret a, R => R [] a
  | .call op next, R => ∀ answer, (next answer).Traces fun events a => R (⟨op, answer⟩ :: events) a

variable {R S : History Op Ans → α → Prop}

@[simp] theorem traces_ret (a : α) : (.ret a : Program Op Ans α).Traces R ↔ R [] a := Iff.rfl

@[simp] theorem traces_call (op : Op) (next : Ans op → Program Op Ans α) :
    (Program.call op next).Traces R ↔
      ∀ answer, (next answer).Traces fun events a => R (⟨op, answer⟩ :: events) a := Iff.rfl

theorem Traces.mono {p : Program Op Ans α} (h : p.Traces R) (hRS : ∀ events a, R events a → S events a) :
    p.Traces S := by
  induction p generalizing R S with
  | ret a => exact hRS [] a h
  | call op next ih =>
      intro answer
      exact ih answer (h answer) fun events a => hRS (⟨op, answer⟩ :: events) a

theorem traces_bind {R : History Op Ans → β → Prop} (p : Program Op Ans α)
    (f : α → Program Op Ans β) :
    (p >>= f).Traces R ↔
      p.Traces fun first a => (f a).Traces fun second b => R (first ++ second) b := by
  induction p generalizing R with
  | ret a => exact Iff.rfl
  | call op next ih =>
      rw [call_bind, traces_call, traces_call]
      exact forall_congr' fun answer => ih answer

theorem Traces.of_runs {p : Program Op Ans α} {events : History Op Ans} {a : α} (h : p.Traces R)
    (hrun : Runs p events a) : R events a := by
  induction hrun generalizing R with
  | ret a => exact h
  | @call op next answer events a _ ih => exact ih (h answer)

theorem traces_of_emits {P : Op → Prop} {p : Program Op Ans α} (hemits : p.Emits P) :
    p.Traces fun events _ => ∀ event ∈ events, P event.1 := by
  induction p with
  | ret a => exact fun event hevent => absurd hevent (List.not_mem_nil)
  | call op next ih =>
      intro answer
      refine (ih answer (hemits.2 answer)).mono fun events a hevents event hevent => ?_
      rcases List.mem_cons.mp hevent with rfl | hevent
      · exact hemits.1
      · exact hevents event hevent

/-- The runs of a program, as a trace condition. -/
theorem traces_runs (p : Program Op Ans α) : p.Traces fun events a => Runs p events a := by
  induction p with
  | ret a => exact .ret a
  | call op next ih => exact fun answer => (ih answer).mono fun events a hrun => .call hrun

/-! ### Programs that may leave early -/

/-- `Traces` along `bind`: what leaves early leaves the whole, what falls through goes on. -/
theorem traces_run_bind {R : History Op Ans → Except ε β → Prop}
    {p : ExceptT ε (Program Op Ans) α} {f : α → ExceptT ε (Program Op Ans) β}
    (herror : p.run.Traces fun first r => ∀ e, r = .error e → R first (.error e))
    (hok : p.run.Traces fun first r => ∀ a, r = .ok a →
      (f a).run.Traces fun second b => R (first ++ second) b) :
    (p >>= f).run.Traces R := by
  rw [ExceptT.run_bind, traces_bind]
  refine (traces_runs p.run).mono fun first r hrun => ?_
  have hleft := herror.of_runs hrun
  have hthrough := hok.of_runs hrun
  cases r with
  | error e =>
      show R (first ++ []) (.error e)
      rw [List.append_nil]
      exact hleft e rfl
  | ok a => exact hthrough a rfl

theorem traces_run_lift {R : History Op Ans → Except ε α → Prop} {p : Program Op Ans α}
    (h : p.Traces fun events a => R events (.ok a)) :
    (liftM p : ExceptT ε (Program Op Ans) α).run.Traces R := by
  show Traces (Except.ok <$> p) R
  rw [map_eq_pure_bind, traces_bind]
  refine h.mono fun events a hR => ?_
  show R (events ++ []) (.ok a)
  rwa [List.append_nil]

/-- A run of a first part and then the rest: it leaves early or goes on. -/
theorem runs_run_bind {p : ExceptT ε (Program Op Ans) α} {f : α → ExceptT ε (Program Op Ans) β}
    {events : History Op Ans} {r : Except ε β} (hrun : Runs (p >>= f).run events r) :
    (∃ e, Runs p.run events (.error e) ∧ r = .error e) ∨
      ∃ first second a, events = first ++ second ∧ Runs p.run first (.ok a) ∧
        Runs (f a).run second r := by
  rw [ExceptT.run_bind] at hrun
  obtain ⟨first, second, left, rfl, hfirst, hsecond⟩ := runs_bind.mp hrun
  cases left with
  | error e =>
      cases hsecond
      exact Or.inl ⟨e, by rwa [List.append_nil], rfl⟩
  | ok a => exact Or.inr ⟨first, second, a, rfl, hfirst, hsecond⟩

/-- A first part that leaves early is the whole run. -/
theorem runs_run_left {p : ExceptT ε (Program Op Ans) α} {events : History Op Ans} {e : ε}
    (f : α → ExceptT ε (Program Op Ans) β) (hrun : Runs p.run events (.error e)) :
    Runs (p >>= f).run events (.error e) := by
  rw [ExceptT.run_bind]
  exact runs_bind.mpr ⟨events, [], .error e, (List.append_nil events).symm, hrun, .ret _⟩

/-- A first part that falls through is gone on with. -/
theorem runs_run_through {p : ExceptT ε (Program Op Ans) α}
    {f : α → ExceptT ε (Program Op Ans) β} {first second : History Op Ans} {a : α} {r : Except ε β}
    (hfirst : Runs p.run first (.ok a)) (hsecond : Runs (f a).run second r) :
    Runs (p >>= f).run (first ++ second) r := by
  rw [ExceptT.run_bind]
  exact runs_bind.mpr ⟨first, second, .ok a, rfl, hfirst, hsecond⟩

/-- The rule for a loop that comes to its end: what holds over its turns. -/
theorem runs_foldlM_ok {ι : Type} {xs : List ι} {f : β → ι → ExceptT ε (Program Op Ans) β}
    (I : List ι → β → History Op Ans → Prop) (past : History Op Ans)
    (hbody : ∀ done x rest b past events b', xs = done ++ x :: rest → I done b past →
      Runs (f b x).run events (.ok b') → I (done ++ [x]) b' (past ++ events))
    {b b' : β} {events : History Op Ans} (hrun : Runs (xs.foldlM f b).run events (.ok b'))
    (h : I [] b past) : I xs b' (past ++ events) := by
  suffices hgen : ∀ rest done b past events, xs = done ++ rest →
      Runs (rest.foldlM f b).run events (.ok b') → I done b past → I xs b' (past ++ events) from
    hgen xs [] b past events rfl hrun h
  intro rest
  induction rest with
  | nil =>
      intro done b past events hxs hrest hI
      rw [List.append_nil] at hxs
      cases hrest
      rw [List.append_nil, hxs]
      exact hI
  | cons x rest ih =>
      intro done b past events hxs hrest hI
      rw [List.foldlM_cons] at hrest
      rcases runs_run_bind hrest with ⟨e, -, heq⟩ | ⟨first, second, c, rfl, hturn, hlater⟩
      · cases heq
      · rw [← List.append_assoc]
        exact ih (done ++ [x]) c _ second (by simp [hxs]) hlater
          (hbody done x rest b past first c hxs hI hturn)

/-- A loop that is left early is left in one turn, behind turns that have fallen through. -/
theorem runs_foldlM_error {ι : Type} {xs : List ι} {f : β → ι → ExceptT ε (Program Op Ans) β}
    {b : β} {events : History Op Ans} {e : ε} (hrun : Runs (xs.foldlM f b).run events (.error e)) :
    ∃ done x rest b' first second, xs = done ++ x :: rest ∧ events = first ++ second ∧
      Runs (done.foldlM f b).run first (.ok b') ∧ Runs (f b' x).run second (.error e) := by
  induction xs generalizing b events with
  | nil => cases hrun
  | cons x xs ih =>
      rw [List.foldlM_cons] at hrun
      rcases runs_run_bind hrun with ⟨e, hturn, heq⟩ | ⟨first, second, b', rfl, hturn, hrest⟩
      · cases heq
        exact ⟨[], x, xs, b, [], events, rfl, rfl, .ret _, hturn⟩
      · obtain ⟨done, y, rest, c, before, last, rfl, rfl, hdone, hlast⟩ := ih hrest
        refine ⟨x :: done, y, rest, c, first ++ before, last, rfl, by simp, ?_, hlast⟩
        rw [List.foldlM_cons, ExceptT.run_bind]
        exact runs_bind.mpr ⟨first, before, .ok b', rfl, hturn, hdone⟩

/-- An event in a run of a loop happens in one turn.  The turns before it have fallen through, and
the loop goes on after it exactly if this turn does. -/
theorem runs_foldlM_at {ι : Type} {xs : List ι} {f : β → ι → ExceptT ε (Program Op Ans) β} {b : β}
    {events : History Op Ans} {r : Except ε β} {event : Event Op Ans}
    (hrun : Runs (xs.foldlM f b).run events r) (hevent : event ∈ events) :
    ∃ done x rest b' first second third turn, xs = done ++ x :: rest ∧
      events = first ++ second ++ third ∧ event ∈ second ∧
      Runs (done.foldlM f b).run first (.ok b') ∧ Runs (f b' x).run second turn ∧
      (∀ e, turn = .error e → third = [] ∧ r = .error e) ∧
      ∀ b'', turn = .ok b'' → Runs (rest.foldlM f b'').run third r := by
  induction xs generalizing b events with
  | nil =>
      cases hrun
      cases hevent
  | cons x xs ih =>
      rw [List.foldlM_cons] at hrun
      rcases runs_run_bind hrun with ⟨e, hturn, rfl⟩ | ⟨second, third, b', rfl, hturn, hrest⟩
      · refine ⟨[], x, xs, b, [], events, [], .error e, rfl, by simp, hevent, .ret _, hturn, ?_, ?_⟩
        · intro e' heq
          cases heq
          exact ⟨rfl, rfl⟩
        · intro b'' heq
          cases heq
      rcases List.mem_append.mp hevent with hin | hlater
      · refine ⟨[], x, xs, b, [], second, third, .ok b', rfl, rfl, hin, .ret _, hturn, ?_, ?_⟩
        · intro e' heq
          cases heq
        · intro b'' heq
          cases heq
          exact hrest
      · obtain ⟨done, y, rest, c, first, between, behind, turn, rfl, rfl, hin, hdone, hy, hleft,
          hthrough⟩ := ih hrest hlater
        refine ⟨x :: done, y, rest, c, second ++ first, between, behind, turn, rfl, by simp, hin, ?_,
          hy, hleft, hthrough⟩
        rw [List.foldlM_cons, ExceptT.run_bind]
        exact runs_bind.mpr ⟨second, first, .ok b', rfl, hturn, hdone⟩

/-- A demand that every call of `p` meets by itself. -/
theorem wph_of_emits {P : Op → Prop} {p : Program Op Ans α} (hemits : p.Emits P)
    (hD : ∀ h event, P event.1 → D h event) (h : History Op Ans) :
    wph D (fun _ _ => True) p h := by
  induction p generalizing h with
  | ret a => trivial
  | call op next ih =>
      rw [wph_call]
      exact fun answer => ⟨hD h _ hemits.1, ih answer (hemits.2 answer) _⟩

end Program

end Warehouse.Interaction
