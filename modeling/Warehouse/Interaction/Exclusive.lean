/-
# Warehouse.Interaction.Exclusive — clients that serialise themselves with the server's lock

The clients of a `Cluster` do their work between taking and giving back one lock.  The rule of this
module reduces what they do together to one client at a time.  A client's `View` is what it may
still count on: the store and its own session while it holds the lock, nothing that moves once the
connection is gone.  If every program, over its own view, only works while it holds the lock, leaves
no unfinished session behind when it gives it back, and after every operation keeps the store's
invariant and its order of progress, then so does the cluster.

This module names nothing of the warehouse.
-/
import Warehouse.Interaction.Server

namespace Warehouse.Interaction

/-! ## One client at a time -/

/-- How a client stands to the lock, as far as it knows. -/
inductive Hold
  | outside | holding | gone
  deriving DecidableEq

/-- What a client knows: the store as it saw it last, and its session. -/
structure View (D S : Type) where
  hold : Hold
  store : D
  session : S

section Rule

variable {Op : Type} {Ans : Op → Type} {D S α : Type}

/-- The environment of one client.  Outside, the store moves under `Rel` and keeps `Inv`; while the
lock is held only the client moves it; a connection that is gone refuses everything. -/
def Server.toView (srv : Server Op Ans D S) (Inv : D → Prop) (Rel : D → D → Prop) :
    Environment Op Ans (View D S) := fun op v answer v' =>
  (srv.role op ≠ .hangUp ∧ srv.refused op answer ∧ v' = { v with hold := .gone }) ∨
  match srv.role op, v.hold with
  | .hangUp, _ => v' = { v with hold := .gone }
  | .acquire, .outside =>
      (srv.granted op answer ∧ ∃ d, Rel v.store d ∧ Inv d ∧ v' = ⟨.holding, d, srv.idle⟩) ∨
        (¬ srv.granted op answer ∧ v' = v)
  | .release, .holding => v' = { v with hold := .outside }
  | .work, .holding => ∃ c, srv.serve op (v.store, v.session) answer c ∧ v' = ⟨.holding, c.1, c.2⟩
  | _, _ => False

/-- What is asked of every operation of a client. -/
def Server.discipline (srv : Server Op Ans D S) (Inv : D → Prop) (Rel : D → D → Prop) :
    Environment Op Ans (View D S) := fun op v _ v' =>
  match srv.role op, v.hold with
  | .work, .outside | .release, .outside | .acquire, .holding => False
  | .release, .holding => v.session = srv.idle
  | .work, .holding => v'.hold = .holding → Inv v'.store ∧ Rel v.store v'.store
  | _, _ => True

/-- A client's view is right about the cluster. -/
def Cluster.Fits (Rel : D → D → Prop) (srv : Server Op Ans D S) (c : Cluster Op Ans D S α) (i : ℕ)
    (v : View D S) : Prop :=
  Rel v.store c.store ∧
  match v.hold with
  | .outside => (c.clients i).connected = true ∧ (c.clients i).session = srv.idle
  | .holding => (c.clients i).connected = true ∧ ((c.clients i).alive = true →
      c.lock = some i ∧ v.store = c.store ∧ v.session = (c.clients i).session)
  | .gone => (c.clients i).connected = false

/-- What an operation on the way may still do. -/
def Cluster.Pending (Inv : D → Prop) (Rel : D → D → Prop) (srv : Server Op Ans D S)
    (c : Cluster Op Ans D S α) (i : ℕ) (op : Op) : Prop :=
  match srv.role op with
  | .release => (c.clients i).session = srv.idle
  | .work => c.lock = some i ∧ ∀ d s, srv.execute op (c.store, (c.clients i).session) (d, s) →
      Inv d ∧ Rel c.store d
  | _ => True

/-- The invariant of one client: only the owner of the lock has anything unfinished, and the rest
of its program still meets its precondition. -/
structure Cluster.ClientSound (Inv : D → Prop) (Rel : D → D → Prop) (Q : α → View D S → Prop)
    (srv : Server Op Ans D S) (c : Cluster Op Ans D S α) (i : ℕ) : Prop where
  dead : (c.clients i).alive = false → c.lock ≠ some i ∧ (c.clients i).inflight = none
  free : c.lock ≠ some i → (c.clients i).session = srv.idle
  resting : (c.clients i).program = none → (c.clients i).connected = true →
    (c.clients i).session = srv.idle
  quiet : (c.clients i).connected = true → (c.clients i).inflight = none
  pending : ∀ op, (c.clients i).inflight = some op → c.Pending Inv Rel srv i op
  view : ∀ p, (c.clients i).program = some p → ∃ v,
    p.wp (srv.toView Inv Rel) (srv.discipline Inv Rel) Q v ∧ c.Fits Rel srv i v

/-- The invariant of the cluster. -/
structure Cluster.Sound (Inv : D → Prop) (Rel : D → D → Prop) (Q : α → View D S → Prop)
    (srv : Server Op Ans D S) (c : Cluster Op Ans D S α) : Prop where
  store : Inv c.store
  client : ∀ i, c.ClientSound Inv Rel Q srv i
  returned : ∀ a ∈ c.returned, ∃ v, Q a v ∧ Rel v.store c.store

variable {Inv : D → Prop} {Rel : D → D → Prop} {Q : α → View D S → Prop}
  {srv : Server Op Ans D S} {c c' : Cluster Op Ans D S α} {i j : ℕ}

/-- Steps of the others that a client does not notice, or that it is told about by `Rel` alone. -/
theorem Cluster.ClientSound.frame [IsTrans D Rel] (h : c.ClientSound Inv Rel Q srv j)
    (hclient : c'.clients j = c.clients j) (hlock : c'.lock = some j ↔ c.lock = some j)
    (hrel : Rel c.store c'.store) (hown : c.lock = some j → c'.store = c.store) :
    c'.ClientSound Inv Rel Q srv j where
  dead hdead := by
    rw [hclient] at hdead ⊢
    exact ⟨fun hown => (h.dead hdead).1 (hlock.mp hown), (h.dead hdead).2⟩
  free hfree := by
    rw [hclient]
    exact h.free fun hown => hfree (hlock.mpr hown)
  resting := by
    rw [hclient]
    exact h.resting
  quiet := by
    rw [hclient]
    exact h.quiet
  pending op hop := by
    rw [hclient] at hop
    have hpending := h.pending op hop
    unfold Cluster.Pending at hpending ⊢
    rw [hclient]
    cases hrole : srv.role op with
    | release => simpa only [hrole] using hpending
    | work =>
        simp only [hrole] at hpending ⊢
        obtain ⟨howner, hexecute⟩ := hpending
        rw [hown howner]
        exact ⟨hlock.mpr howner, hexecute⟩
    | acquire => trivial
    | hangUp => trivial
  view p hp := by
    rw [hclient] at hp
    obtain ⟨v, hwp, hstore, hfits⟩ := h.view p hp
    refine ⟨v, hwp, trans_of Rel hstore hrel, ?_⟩
    rw [hclient]
    cases hhold : v.hold with
    | outside => simpa only [hhold] using hfits
    | gone => simpa only [hhold] using hfits
    | holding =>
        simp only [hhold] at hfits ⊢
        refine ⟨hfits.1, fun halive => ?_⟩
        obtain ⟨howner, hsame, hsession⟩ := hfits.2 halive
        exact ⟨hlock.mpr howner, hsame.trans (hown howner).symm, hsession⟩

/-- A step of one client, seen from the whole cluster. -/
theorem Cluster.Sound.update [IsTrans D Rel] (h : c.Sound Inv Rel Q srv)
    (hclients : ∀ j ≠ i, c'.clients j = c.clients j)
    (hlock : ∀ j ≠ i, (c'.lock = some j ↔ c.lock = some j))
    (hinv : Inv c'.store) (hrel : Rel c.store c'.store)
    (hown : c'.store = c.store ∨ c.lock = some i) (hclient : c'.ClientSound Inv Rel Q srv i)
    (hreturned : ∀ a ∈ c'.returned, a ∈ c.returned ∨ ∃ v, Q a v ∧ Rel v.store c'.store) :
    c'.Sound Inv Rel Q srv ∧ Rel c.store c'.store := by
  refine ⟨⟨hinv, ?_, ?_⟩, hrel⟩
  · intro j
    by_cases hj : j = i
    · exact hj ▸ hclient
    refine (h.client j).frame (hclients j hj) (hlock j hj) hrel ?_
    intro howner
    rcases hown with hsame | hmine
    · exact hsame
    · exact absurd (Option.some.inj (howner.symm.trans hmine)) hj
  · intro a ha
    rcases hreturned a ha with hold | hnew
    · obtain ⟨v, hQ, hv⟩ := h.returned a hold
      exact ⟨v, hQ, trans_of Rel hv hrel⟩
    · exact hnew

theorem takes_other {lock lock' : Option ℕ} (h : takes i lock lock') (hj : j ≠ i) :
    lock' = some j ↔ lock = some j := by
  obtain ⟨hfree | hmine, rfl⟩ := h
  · simp [hfree, hj.symm]
  · simp [hmine, hj.symm]

theorem leaves_other {lock lock' : Option ℕ} (h : leaves i lock lock') (hj : j ≠ i) :
    lock' = some j ↔ lock = some j := by
  rcases h with rfl | ⟨rfl, rfl⟩
  · rfl
  · simp [hj.symm]

theorem asks_other {op : Op} {answer : Ans op} {lock lock' : Option ℕ}
    (h : asks srv i op answer lock lock') (hj : j ≠ i) : lock' = some j ↔ lock = some j := by
  rcases h with ⟨_, htakes⟩ | ⟨_, rfl⟩
  · exact takes_other htakes hj
  · rfl

section Calls

variable {op : Op} {next : Ans op → Program Op Ans α} {v : View D S}

/-- A program that is about to make a call keeps to the discipline there. -/
theorem disciplined_of_wp
    (hwp : (Program.call op next).wp (srv.toView Inv Rel) (srv.discipline Inv Rel) Q v)
    (hrole : srv.role op ≠ .hangUp) :
    ∃ answer, srv.discipline Inv Rel op v answer { v with hold := .gone } := by
  obtain ⟨answer, hrefused⟩ := srv.refusable op hrole
  exact ⟨answer, (hwp answer _ (Or.inl ⟨hrole, hrefused, rfl⟩)).1⟩

/-- A client with a connection works inside the lock. -/
theorem holding_of_work
    (hwp : (Program.call op next).wp (srv.toView Inv Rel) (srv.discipline Inv Rel) Q v)
    (hrole : srv.role op = .work) (hfits : c.Fits Rel srv i v)
    (hconnected : (c.clients i).connected = true) : v.hold = .holding := by
  obtain ⟨_, hdisciplined⟩ := disciplined_of_wp hwp (by simp [hrole])
  obtain ⟨_, hview⟩ := hfits
  cases hhold : v.hold with
  | outside => simp [Server.discipline, hrole, hhold] at hdisciplined
  | holding => rfl
  | gone => simp [hhold, hconnected] at hview

theorem holding_of_release
    (hwp : (Program.call op next).wp (srv.toView Inv Rel) (srv.discipline Inv Rel) Q v)
    (hrole : srv.role op = .release) (hfits : c.Fits Rel srv i v)
    (hconnected : (c.clients i).connected = true) : v.hold = .holding ∧ v.session = srv.idle := by
  obtain ⟨_, hdisciplined⟩ := disciplined_of_wp hwp (by simp [hrole])
  obtain ⟨_, hview⟩ := hfits
  cases hhold : v.hold with
  | outside => simp [Server.discipline, hrole, hhold] at hdisciplined
  | holding => exact ⟨rfl, by simpa [Server.discipline, hrole, hhold] using hdisciplined⟩
  | gone => simp [hhold, hconnected] at hview

theorem outside_of_acquire
    (hwp : (Program.call op next).wp (srv.toView Inv Rel) (srv.discipline Inv Rel) Q v)
    (hrole : srv.role op = .acquire) (hfits : c.Fits Rel srv i v)
    (hconnected : (c.clients i).connected = true) : v.hold = .outside := by
  obtain ⟨_, hdisciplined⟩ := disciplined_of_wp hwp (by simp [hrole])
  obtain ⟨_, hview⟩ := hfits
  cases hhold : v.hold with
  | outside => rfl
  | holding => simp [Server.discipline, hrole, hhold] at hdisciplined
  | gone => simp [hhold, hconnected] at hview

/-- Whatever a working client has sent keeps the invariant if it is executed unseen. -/
theorem executes_sound [Std.Refl Rel]
    (hwp : (Program.call op next).wp (srv.toView Inv Rel) (srv.discipline Inv Rel) Q v)
    (hrole : srv.role op = .work) (hhold : v.hold = .holding) (hinv : Inv v.store) {d : D} {s : S}
    (hexecute : srv.execute op (v.store, v.session) (d, s)) : Inv d ∧ Rel v.store d := by
  rcases srv.served op _ _ hexecute with hsame | ⟨answer, hserve⟩
  · obtain ⟨rfl, -⟩ := Prod.mk.inj hsame
    exact ⟨hinv, refl_of Rel _⟩
  · have hstep : srv.toView Inv Rel op v answer ⟨.holding, d, s⟩ := by
      refine Or.inr ?_
      simp only [hrole, hhold]
      exact ⟨(d, s), hserve, rfl⟩
    have hdisciplined := (hwp answer _ hstep).1
    simp only [Server.discipline, hrole, hhold] at hdisciplined
    exact hdisciplined trivial

end Calls

/-- What a client leaves on the way when it stops waiting for the answer. -/
theorem sends_sound [Std.Refl Rel] {sent : Option Op} (h : c.Sound Inv Rel Q srv)
    (hsent : (c.clients i).Sends srv sent) :
    ((c.clients i).alive = false → sent = none) ∧
      ∀ op, sent = some op → c.Pending Inv Rel srv i op := by
  constructor
  · intro hdead
    cases sent with
    | none => rfl
    | some op =>
        have halive := (hsent op rfl).2.1
        simp [hdead] at halive
  · intro op hop
    obtain ⟨hconnected, halive, hrole, next, hprogram⟩ := hsent op hop
    obtain ⟨v, hwp, hfits⟩ := (h.client i).view _ hprogram
    unfold Cluster.Pending
    cases hkind : srv.role op with
    | acquire => trivial
    | hangUp => trivial
    | release =>
        obtain ⟨hhold, hidle⟩ := holding_of_release hwp hkind hfits hconnected
        obtain ⟨_, hview⟩ := hfits
        simp only [hhold] at hview
        obtain ⟨_, _, hsession⟩ := hview.2 halive
        exact hsession.symm.trans hidle
    | work =>
        have hhold := holding_of_work hwp hkind hfits hconnected
        obtain ⟨_, hview⟩ := hfits
        simp only [hhold] at hview
        obtain ⟨howner, hstore, hsession⟩ := hview.2 halive
        refine ⟨howner, fun d s hexecute => ?_⟩
        rw [← hstore, ← hsession] at hexecute
        rw [← hstore]
        exact executes_sound hwp hkind hhold (hstore ▸ h.store) hexecute

/-! ### The client that takes the step -/

/-- A step inside the client alone. -/
theorem Cluster.ClientSound.reprogram {p : Option (Program Op Ans α)}
    (h : c.ClientSound Inv Rel Q srv i)
    (hresting : p = none → (c.clients i).connected = true →
      (c.clients i).session = srv.idle)
    (hview : ∀ q, p = some q → ∃ v,
      q.wp (srv.toView Inv Rel) (srv.discipline Inv Rel) Q v ∧ c.Fits Rel srv i v) :
    (c.set i { c.clients i with program := p }).ClientSound Inv Rel Q srv i := by
  constructor <;> simp only [set_clients_self, set_lock]
  · exact h.dead
  · exact h.free
  · exact hresting
  · exact h.quiet
  · intro op hop
    simpa [Pending] using h.pending op hop
  · intro q hq
    obtain ⟨v, hwp, hfits⟩ := hview q hq
    exact ⟨v, hwp, by simpa [Fits] using hfits⟩

/-- A client that loses its connection, with `sent` on the way. -/
theorem Cluster.ClientSound.disconnect {program : Option (Program Op Ans α)} {sent : Option Op}
    (h : c.ClientSound Inv Rel Q srv i)
    (hdead : (c.clients i).alive = false → sent = none)
    (hsent : ∀ op, sent = some op → c.Pending Inv Rel srv i op)
    (hview : ∀ p, program = some p → ∃ v,
      p.wp (srv.toView Inv Rel) (srv.discipline Inv Rel) Q v ∧ v.hold = .gone ∧
        Rel v.store c.store) :
    (c.set i { c.clients i with
      program := program, connected := false, inflight := sent }).ClientSound Inv Rel Q srv i := by
  constructor <;> simp only [set_clients_self, set_lock]
  · exact fun halive => ⟨(h.dead halive).1, hdead halive⟩
  · exact h.free
  · exact fun _ hconnected => by cases hconnected
  · exact fun hconnected => by cases hconnected
  · intro op hop
    simpa [Pending] using hsent op hop
  · intro p hp
    obtain ⟨v, hwp, hgone, hstore⟩ := hview p hp
    exact ⟨v, hwp, hstore, by simp [hgone]⟩

/-- A client that is answered. -/
theorem Cluster.ClientSound.answered {p : Program Op Ans α} {session : S}
    (h : c.ClientSound Inv Rel Q srv i) (hconnected : (c.clients i).connected = true)
    (halive : (c.clients i).alive = true)
    (hclient : c'.clients i = { c.clients i with program := some p, session := session })
    (hfree : c'.lock ≠ some i → session = srv.idle)
    (hview : ∃ v, p.wp (srv.toView Inv Rel) (srv.discipline Inv Rel) Q v ∧ c'.Fits Rel srv i v) :
    c'.ClientSound Inv Rel Q srv i := by
  have hquiet := h.quiet hconnected
  constructor <;> rw [hclient]
  · intro hdead
    simp [halive] at hdead
  · exact hfree
  · exact fun hnone => by cases hnone
  · exact fun _ => hquiet
  · intro op hop
    simp [hquiet] at hop
  · rintro p' hp
    cases hp
    exact hview

/-- A client whose last operation arrives after all. -/
theorem Cluster.ClientSound.landed [IsTrans D Rel] {op : Op} {session : S}
    (h : c.ClientSound Inv Rel Q srv i) (hinflight : (c.clients i).inflight = some op)
    (hclient : c'.clients i = { c.clients i with inflight := none, session := session })
    (hfree : c'.lock ≠ some i → session = srv.idle) (hrel : Rel c.store c'.store) :
    c'.ClientSound Inv Rel Q srv i := by
  have hdisconnected : (c.clients i).connected = false := by
    by_contra hconnected
    simp [h.quiet (by simpa using hconnected)] at hinflight
  constructor <;> rw [hclient]
  · intro hdead
    simp [(h.dead hdead).2] at hinflight
  · exact hfree
  · intro _ hconnected
    simp [hdisconnected] at hconnected
  · exact fun _ => rfl
  · exact fun op hop => by cases hop
  · intro p hp
    obtain ⟨v, hwp, hstore, hview⟩ := h.view p hp
    refine ⟨v, hwp, trans_of Rel hstore hrel, ?_⟩
    rw [hclient]
    cases hhold : v.hold with
    | gone => exact hdisconnected
    | outside => simp [hhold, hdisconnected] at hview
    | holding => simp [hhold, hdisconnected] at hview

/-- A client whose session the server has closed. -/
theorem Cluster.ClientSound.closed (h : c.ClientSound Inv Rel Q srv i) :
    Cluster.ClientSound Inv Rel Q srv { c.set i { c.clients i with
        alive := false, inflight := none, session := srv.idle } with
      lock := if c.lock = some i then none else c.lock } i := by
  have hlock : (if c.lock = some i then none else c.lock) ≠ some i := by
    split
    · simp
    · assumption
  constructor <;> simp only [set_clients_self]
  · exact fun _ => ⟨hlock, trivial⟩
  · exact fun _ => trivial
  · exact fun _ _ => trivial
  · exact fun _ => trivial
  · exact fun op hop => by cases hop
  · intro p hp
    obtain ⟨v, hwp, hstore, hview⟩ := h.view p hp
    refine ⟨v, hwp, hstore, ?_⟩
    simp only [set_clients_self]
    cases hhold : v.hold with
    | outside =>
        simp only [hhold] at hview
        exact ⟨hview.1, trivial⟩
    | holding =>
        simp only [hhold] at hview
        exact ⟨hview.1, fun halive => by cases halive⟩
    | gone => simpa [hhold] using hview

/-- What is left of the program of a client whose call was refused. -/
theorem refused_view [Std.Refl Rel] {op : Op} {next : Ans op → Program Op Ans α} {answer : Ans op}
    (h : c.ClientSound Inv Rel Q srv i) (hprogram : (c.clients i).program = some (.call op next))
    (hrole : srv.role op ≠ .hangUp) (hrefused : srv.refused op answer) :
    ∃ v, (next answer).wp (srv.toView Inv Rel) (srv.discipline Inv Rel) Q v ∧
      v.hold = .gone ∧ Rel v.store c.store := by
  obtain ⟨v, hwp, hstore, _⟩ := h.view _ hprogram
  exact ⟨_, (hwp answer _ (Or.inl ⟨hrole, hrefused, rfl⟩)).2, rfl, hstore⟩

/-- What a program needs to be started at any time: it meets its precondition from outside the
lock, and it does not return inside it. -/
structure Server.Admits (srv : Server Op Ans D S) (Inv : D → Prop) (Rel : D → D → Prop)
    (Q : α → View D S → Prop) (allowed : Program Op Ans α → Prop) : Prop where
  wp : ∀ p, allowed p → ∀ d,
    p.wp (srv.toView Inv Rel) (srv.discipline Inv Rel) Q ⟨.outside, d, srv.idle⟩
  left : ∀ a v, Q a v → v.hold ≠ .holding

variable {allowed : Program Op Ans α → Prop}

section Steps

variable [IsTrans D Rel] {op : Op} {next : Ans op → Program Op Ans α} {answer : Ans op}
  {store : D} {session : S} {lock : Option ℕ}

/-- An operation that its client has given up arrives. -/
theorem Cluster.Sound.performs (h : c.Sound Inv Rel Q srv)
    (hinflight : (c.clients i).inflight = some op) (hrole : srv.role op = .work)
    (hexecute : srv.execute op (c.store, (c.clients i).session) (store, session)) :
    Cluster.Sound Inv Rel Q srv { c.set i { c.clients i with
      inflight := none, session := session } with store := store } ∧ Rel c.store store := by
  -- work that is still under way was sent under the lock, which its client has not lost yet
  have hpending := (h.client i).pending op hinflight
  simp only [Pending, hrole] at hpending
  obtain ⟨howner, hsound⟩ := hpending
  obtain ⟨hinv, hrel⟩ := hsound store session hexecute
  refine h.update (i := i) (fun j hj => set_clients_ne _ _ _ hj) (fun j _ => Iff.rfl) hinv
    hrel (Or.inr howner) ?_ (fun a ha => Or.inl ha)
  exact (h.client i).landed hinflight (set_clients_self _ _ _)
    (fun hfree => absurd howner hfree) hrel

variable [Std.Refl Rel]

theorem Cluster.Sound.finish (hadmits : srv.Admits Inv Rel Q allowed) (h : c.Sound Inv Rel Q srv)
    {a : α} (hprogram : (c.clients i).program = some (.ret a)) :
    Cluster.Sound Inv Rel Q srv { c.set i { c.clients i with program := none } with
      returned := a :: c.returned } ∧ Rel c.store c.store := by
  obtain ⟨v, hwp, hfits⟩ := (h.client i).view _ hprogram
  refine h.update (i := i) (fun j hj => set_clients_ne _ _ _ hj) (fun j _ => Iff.rfl) h.store
    (refl_of Rel _) (Or.inl rfl) ((ClientSound.reprogram (h.client i) (p := none) ?_
      (by simp)).frame rfl Iff.rfl (refl_of Rel _) fun _ => rfl) ?_
  · intro _ hconnected
    have hleft := hadmits.left a v hwp
    obtain ⟨_, hview⟩ := hfits
    cases hhold : v.hold with
    | outside =>
        simp only [hhold] at hview
        exact hview.2
    | holding => exact absurd hhold hleft
    | gone => simp [hhold, hconnected] at hview
  · intro b hb
    rcases List.mem_cons.mp hb with rfl | hold
    · exact Or.inr ⟨v, hwp, hfits.1⟩
    · exact Or.inl hold

theorem Cluster.Sound.work (h : c.Sound Inv Rel Q srv)
    (hprogram : (c.clients i).program = some (.call op next)) (hrole : srv.role op = .work)
    (hconnected : (c.clients i).connected = true) (halive : (c.clients i).alive = true)
    (hserve : srv.serve op (c.store, (c.clients i).session) answer (store, session)) :
    Cluster.Sound Inv Rel Q srv { c.set i { c.clients i with
      program := some (next answer), session := session } with store := store } ∧
      Rel c.store store := by
  obtain ⟨v, hwp, hfits⟩ := (h.client i).view _ hprogram
  have hhold := holding_of_work hwp hrole hfits hconnected
  obtain ⟨_, hview⟩ := hfits
  simp only [hhold] at hview
  obtain ⟨howner, hstore, hsession⟩ := hview.2 halive
  -- the holder of the lock sees the store itself, so its view moves with it
  have hviewed : srv.toView Inv Rel op v answer ⟨.holding, store, session⟩ := by
    refine Or.inr ?_
    simp only [hrole, hhold]
    exact ⟨(store, session), by rwa [hstore, hsession], rfl⟩
  obtain ⟨hdisciplined, hnext⟩ := hwp answer _ hviewed
  simp only [Server.discipline, hrole, hhold] at hdisciplined
  obtain ⟨hinv, hrel⟩ := hdisciplined trivial
  refine h.update (i := i) (fun j hj => set_clients_ne _ _ _ hj) (fun j _ => Iff.rfl) hinv
    (hstore ▸ hrel) (Or.inr howner) ?_ (fun a ha => Or.inl ha)
  refine (h.client i).answered hconnected halive (set_clients_self _ _ _)
    (fun hfree => absurd howner hfree) ⟨_, hnext, refl_of Rel _, ?_⟩
  exact ⟨by simpa using hconnected, fun _ => ⟨howner, rfl, by simp⟩⟩

theorem Cluster.Sound.acquire (h : c.Sound Inv Rel Q srv)
    (hprogram : (c.clients i).program = some (.call op next)) (hrole : srv.role op = .acquire)
    (hconnected : (c.clients i).connected = true) (halive : (c.clients i).alive = true)
    (hasks : asks srv i op answer c.lock lock) :
    Cluster.Sound Inv Rel Q srv { c.set i { c.clients i with program := some (next answer) } with
      lock := lock } ∧ Rel c.store c.store := by
  obtain ⟨v, hwp, hfits⟩ := (h.client i).view _ hprogram
  have hhold := outside_of_acquire hwp hrole hfits hconnected
  obtain ⟨hstore, hview⟩ := hfits
  simp only [hhold] at hview
  have hidle := hview.2
  refine h.update (i := i) (fun j hj => set_clients_ne _ _ _ hj) (fun j hj => asks_other hasks hj)
    h.store (refl_of Rel _) (Or.inl rfl) ?_ (fun a ha => Or.inl ha)
  refine (h.client i).answered hconnected halive (set_clients_self _ _ _) (fun _ => hidle) ?_
  by_cases hgranted : srv.granted op answer
  · -- the lock is taken: the client sees the store as it is now
    have hviewed : srv.toView Inv Rel op v answer ⟨.holding, c.store, srv.idle⟩ := by
      refine Or.inr ?_
      simp only [hrole, hhold]
      exact Or.inl ⟨hgranted, c.store, hstore, h.store, rfl⟩
    refine ⟨_, (hwp answer _ hviewed).2, refl_of Rel _, by simpa using hconnected, fun _ => ?_⟩
    rcases hasks with ⟨_, _, htaken⟩ | ⟨hnot, _⟩
    · exact ⟨htaken, rfl, by simpa using hidle.symm⟩
    · exact absurd hgranted hnot
  · have hviewed : srv.toView Inv Rel op v answer v := by
      refine Or.inr ?_
      simp only [hrole, hhold]
      exact Or.inr ⟨hgranted, trivial⟩
    refine ⟨v, (hwp answer _ hviewed).2, hstore, ?_⟩
    simpa [hhold] using hview

theorem Cluster.Sound.release (h : c.Sound Inv Rel Q srv)
    (hprogram : (c.clients i).program = some (.call op next)) (hrole : srv.role op = .release)
    (hconnected : (c.clients i).connected = true) (halive : (c.clients i).alive = true)
    (hleaves : leaves i c.lock lock) :
    Cluster.Sound Inv Rel Q srv { c.set i { c.clients i with program := some (next answer) } with
      lock := lock } ∧ Rel c.store c.store := by
  obtain ⟨v, hwp, hfits⟩ := (h.client i).view _ hprogram
  obtain ⟨hhold, hidle⟩ := holding_of_release hwp hrole hfits hconnected
  obtain ⟨hstore, hview⟩ := hfits
  simp only [hhold] at hview
  obtain ⟨_, _, hsession⟩ := hview.2 halive
  have hsession' : (c.clients i).session = srv.idle := hsession.symm.trans hidle
  refine h.update (i := i) (fun j hj => set_clients_ne _ _ _ hj)
    (fun j hj => leaves_other hleaves hj) h.store (refl_of Rel _) (Or.inl rfl) ?_
    (fun a ha => Or.inl ha)
  refine (h.client i).answered hconnected halive (set_clients_self _ _ _)
    (fun _ => hsession') ?_
  -- the session is idle again, so others may take the lock
  have hviewed : srv.toView Inv Rel op v answer { v with hold := .outside } := by
    refine Or.inr ?_
    simp only [hrole, hhold]
  refine ⟨_, (hwp answer _ hviewed).2, hstore, ?_⟩
  simpa using ⟨hconnected, hsession'⟩

/-- The lock changes hands behind the back of a client that has given up asking for it. -/
theorem Cluster.Sound.relocked (h : c.Sound Inv Rel Q srv)
    (hinflight : (c.clients i).inflight = some op)
    (hothers : ∀ j ≠ i, (lock = some j ↔ c.lock = some j))
    (hfree : lock ≠ some i → (c.clients i).session = srv.idle) :
    Cluster.Sound Inv Rel Q srv { c.set i { c.clients i with inflight := none } with
      lock := lock } ∧ Rel c.store c.store := by
  refine h.update (i := i) (fun j hj => set_clients_ne _ _ _ hj) hothers h.store (refl_of Rel _)
    (Or.inl rfl) ?_ (fun a ha => Or.inl ha)
  exact (h.client i).landed hinflight (set_clients_self _ _ _) hfree (refl_of Rel _)

/-- One step keeps the invariant, and moves the store under `Rel`. -/
theorem Cluster.Sound.step (hadmits : srv.Admits Inv Rel Q allowed)
    (h : c.Sound Inv Rel Q srv) (hstep : Cluster.Step srv allowed c c') :
    c'.Sound Inv Rel Q srv ∧ Rel c.store c'.store := by
  have hrefl : ∀ d, Rel d d := refl_of Rel
  have halone : ∀ {i : ℕ} {client : Client Op Ans S α},
      (c.set i client).ClientSound Inv Rel Q srv i →
        (c.set i client).Sound Inv Rel Q srv ∧ Rel c.store (c.set i client).store :=
    fun hclient => h.update (fun j hj => set_clients_ne _ _ _ hj) (fun j _ => Iff.rfl) h.store
      (hrefl _) (Or.inl rfl) hclient fun a ha => Or.inl ha
  cases hstep with
  | start i hp hprogram hconnected =>
      refine halone ((h.client i).reprogram (fun hnone => by cases hnone) ?_)
      rintro p hp'
      cases hp'
      exact ⟨_, hadmits.wp _ hp c.store, hrefl _, hconnected,
        (h.client i).resting hprogram hconnected⟩
  | finish i hprogram => exact h.finish hadmits hprogram
  | work i hprogram hrole hconnected halive hserve =>
      exact h.work hprogram hrole hconnected halive hserve
  | acquire i hprogram hrole hconnected halive hasks =>
      exact h.acquire hprogram hrole hconnected halive hasks
  | release i hprogram hrole hconnected halive hleaves =>
      exact h.release hprogram hrole hconnected halive hleaves
  | hangUp i hprogram hrole =>
      refine halone ((h.client i).disconnect (fun hdead => ((h.client i).dead hdead).2)
        (h.client i).pending ?_)
      rintro p hp
      cases hp
      obtain ⟨v, hwp, hstore, _⟩ := (h.client i).view _ hprogram
      refine ⟨{ v with hold := .gone }, (hwp _ _ (Or.inr ?_)).2, rfl, hstore⟩
      simp only [hrole]
  | lose i hprogram hrole hconnected hrefused hsent =>
      obtain ⟨hdead, hpending⟩ := sends_sound h hsent
      refine halone ((h.client i).disconnect hdead hpending ?_)
      rintro p hp
      cases hp
      exact refused_view (h.client i) hprogram hrole hrefused
  | refuse i hprogram hrole hconnected hrefused =>
      refine halone ((h.client i).reprogram (fun hnone => by cases hnone) ?_)
      rintro p hp
      cases hp
      obtain ⟨v, hwp, hgone, hstore⟩ := refused_view (h.client i) hprogram hrole hrefused
      exact ⟨v, hwp, hstore, by simpa [hgone] using hconnected⟩
  | crash i hconnected hsent =>
      obtain ⟨hdead, hpending⟩ := sends_sound h hsent
      exact halone ((h.client i).disconnect hdead hpending fun p hp => by cases hp)
  | abandon i hconnected =>
      refine halone ((h.client i).reprogram ?_ fun p hp => by cases hp)
      intro _ hconnected'
      simp [hconnected] at hconnected'
  | performs i hinflight hrole hexecute => exact h.performs hinflight hrole hexecute
  | grants i hinflight hrole htakes =>
      exact h.relocked hinflight (fun j hj => takes_other htakes hj)
        fun hfree => absurd htakes.2 hfree
  | frees i hinflight hrole hleaves =>
      have hidle := (h.client i).pending _ hinflight
      simp only [Pending, hrole] at hidle
      exact h.relocked hinflight (fun j hj => leaves_other hleaves hj) fun _ => hidle
  | close i =>
      refine h.update (i := i) (fun j hj => set_clients_ne _ _ _ hj) ?_ h.store (hrefl _)
        (Or.inl rfl) (h.client i).closed (fun a ha => Or.inl ha)
      intro j hj
      by_cases howner : c.lock = some i
      · simp [howner, hj.symm]
      · simp [howner]

end Steps

/-- The rule: along every run the store keeps its invariant and moves under `Rel`, and what was
returned still meets its postcondition in some view of an earlier store. -/
theorem Cluster.Sound.reachable [Std.Refl Rel] [IsTrans D Rel]
    (hadmits : srv.Admits Inv Rel Q allowed) (h : c.Sound Inv Rel Q srv)
    (hreach : Cluster.Reachable srv allowed c c') :
    c'.Sound Inv Rel Q srv ∧ Rel c.store c'.store := by
  induction hreach with
  | refl => exact ⟨h, refl_of Rel _⟩
  | tail _ hlast ih =>
      obtain ⟨hsound, hrel⟩ := ih
      obtain ⟨hsound', hrel'⟩ := hsound.step hadmits hlast
      exact ⟨hsound', trans_of Rel hrel hrel'⟩

/-- A cluster that nobody has used yet. -/
theorem Cluster.sound_init {d : D} (hinv : Inv d) :
    (Cluster.init srv d : Cluster Op Ans D S α).Sound Inv Rel Q srv where
  store := hinv
  client i :=
    { dead := fun hdead => by cases hdead
      free := fun _ => rfl
      resting := fun _ _ => rfl
      quiet := fun _ => rfl
      pending := fun op hop => by cases hop
      view := fun p hp => by cases hp }
  returned a ha := by cases ha

/-! ### Rules for the view of one client -/

section Views

variable {ε : Type} {X : ε → View D S → Prop} {v : View D S} {d : D} {s : S}

/-- Once the connection is gone nothing moves any more. -/
theorem wp_gone {p : Program Op Ans α} (hgone : v.hold = .gone) (hQ : ∀ a, Q a v) :
    p.wp (srv.toView Inv Rel) (srv.discipline Inv Rel) Q v := by
  induction p with
  | ret a => exact hQ a
  | call op next ih =>
      intro answer v' hstep
      have hsame : v' = v := by
        cases v
        obtain rfl := hgone
        rcases hstep with ⟨_, _, rfl⟩ | hstep
        · rfl
        · cases hrole : srv.role op <;> simp only [hrole] at hstep
          exact hstep
      refine ⟨?_, hsame ▸ ih answer⟩
      unfold Server.discipline
      cases hrole : srv.role op <;> simp [hgone]

theorem wpx_gone {p : ExceptT ε (Program Op Ans) α} (hgone : v.hold = .gone)
    (hQ : ∀ a, Q a v) (hX : ∀ e, X e v) :
    Program.wpx (srv.toView Inv Rel) (srv.discipline Inv Rel) Q X p v := by
  refine wp_gone hgone ?_
  rintro (e | a)
  · exact hX e
  · exact hQ a

/-- An operation inside the lock: it may lose the connection, or it is served. -/
theorem wp_work {op : Op} {next : Ans op → Program Op Ans α} (hrole : srv.role op = .work)
    (hgone : ∀ answer, srv.refused op answer →
      (next answer).wp (srv.toView Inv Rel) (srv.discipline Inv Rel) Q ⟨.gone, d, s⟩)
    (hserve : ∀ answer d' s', srv.serve op (d, s) answer (d', s') → Inv d' ∧ Rel d d' ∧
      (next answer).wp (srv.toView Inv Rel) (srv.discipline Inv Rel) Q ⟨.holding, d', s'⟩) :
    (Program.call op next).wp (srv.toView Inv Rel) (srv.discipline Inv Rel) Q
      ⟨.holding, d, s⟩ := by
  rintro answer v' (⟨_, hrefused, rfl⟩ | hstep)
  · exact ⟨by simp [Server.discipline, hrole], hgone answer hrefused⟩
  · simp only [hrole] at hstep
    obtain ⟨c', hserved, rfl⟩ := hstep
    obtain ⟨hinv, hrel, hnext⟩ := hserve answer c'.1 c'.2 hserved
    refine ⟨?_, hnext⟩
    simp only [Server.discipline, hrole]
    exact fun _ => ⟨hinv, hrel⟩

/-- Giving the lock back, with nothing unfinished. -/
theorem wp_release {op : Op} {next : Ans op → Program Op Ans α} (hrole : srv.role op = .release)
    (hgone : ∀ answer, srv.refused op answer →
      (next answer).wp (srv.toView Inv Rel) (srv.discipline Inv Rel) Q ⟨.gone, d, srv.idle⟩)
    (hleft : ∀ answer,
      (next answer).wp (srv.toView Inv Rel) (srv.discipline Inv Rel) Q ⟨.outside, d, srv.idle⟩) :
    (Program.call op next).wp (srv.toView Inv Rel) (srv.discipline Inv Rel) Q
      ⟨.holding, d, srv.idle⟩ := by
  rintro answer v' (⟨_, hrefused, rfl⟩ | hstep)
  · exact ⟨by simp [Server.discipline, hrole], hgone answer hrefused⟩
  · simp only [hrole] at hstep
    subst hstep
    exact ⟨by simp [Server.discipline, hrole], hleft answer⟩

/-- Asking for the lock. -/
theorem wp_acquire {op : Op} {next : Ans op → Program Op Ans α} (hrole : srv.role op = .acquire)
    (hgone : ∀ answer, srv.refused op answer →
      (next answer).wp (srv.toView Inv Rel) (srv.discipline Inv Rel) Q ⟨.gone, d, s⟩)
    (hdenied : ∀ answer, ¬ srv.granted op answer →
      (next answer).wp (srv.toView Inv Rel) (srv.discipline Inv Rel) Q ⟨.outside, d, s⟩)
    (hgranted : ∀ answer d', srv.granted op answer → Rel d d' → Inv d' →
      (next answer).wp (srv.toView Inv Rel) (srv.discipline Inv Rel) Q
        ⟨.holding, d', srv.idle⟩) :
    (Program.call op next).wp (srv.toView Inv Rel) (srv.discipline Inv Rel) Q
      ⟨.outside, d, s⟩ := by
  rintro answer v' (⟨_, hrefused, rfl⟩ | hstep)
  · exact ⟨by simp [Server.discipline, hrole], hgone answer hrefused⟩
  · simp only [hrole] at hstep
    refine ⟨by simp [Server.discipline, hrole], ?_⟩
    rcases hstep with ⟨hyes, d', hrel, hinv, rfl⟩ | ⟨hno, rfl⟩
    · exact hgranted answer d' hyes hrel hinv
    · exact hdenied answer hno

/-- A call over a connection that is gone. -/
theorem wp_refused {op : Op} {next : Ans op → Program Op Ans α} (hrole : srv.role op ≠ .hangUp)
    (hgone : v.hold = .gone) (hnext : ∀ answer, srv.refused op answer →
      (next answer).wp (srv.toView Inv Rel) (srv.discipline Inv Rel) Q v) :
    (Program.call op next).wp (srv.toView Inv Rel) (srv.discipline Inv Rel) Q v := by
  cases v
  obtain rfl := hgone
  rintro answer v' (⟨_, hrefused, rfl⟩ | hstep)
  · refine ⟨?_, hnext answer hrefused⟩
    unfold Server.discipline
    cases srv.role op <;> trivial
  · cases hkind : srv.role op with
    | hangUp => exact absurd hkind hrole
    | acquire => simp [hkind] at hstep
    | release => simp [hkind] at hstep
    | work => simp [hkind] at hstep

/-- Hanging up. -/
theorem wp_hangUp {op : Op} {next : Ans op → Program Op Ans α} (hrole : srv.role op = .hangUp)
    (hQ : ∀ a v, v.hold = .gone → Q a v) :
    (Program.call op next).wp (srv.toView Inv Rel) (srv.discipline Inv Rel) Q v := by
  rintro answer v' (⟨hne, _, _⟩ | hstep)
  · exact absurd hrole hne
  · simp only [hrole] at hstep
    subst hstep
    exact ⟨by simp [Server.discipline, hrole], wp_gone rfl fun a => hQ a _ rfl⟩

end Views

end Rule

end Warehouse.Interaction
