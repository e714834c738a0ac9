import Backpressure.Pool.Machine

/-!
# Runs of a pool

A run is a sequence of actions of one pool, at moments that never go back.  Who
acts next, what the factory and the policy say, and how much time passes are left
open, so a statement about runs is one about every order of steps.

*Regimes.*  A regime narrows this down: it tells which actions may happen.
`Regime.any` allows everything.  `Regime.tame` leaves out handlers that panic before
there is anything to wait for.  No regime holds time up: it may always pass, also while
somebody could act, so nobody is sure to act before a deadline.

*Histories.*  A run leaves a history: what callers asked and in which phase each
found the pool, everything that could be seen, the members that the scaler took out
of the active ones, and those that a shutdown overlooked.  What is said of accepted,
refused and handled items is read off the history, never off the counters of the pool.
-/

namespace Backpressure

variable {α : Type}

/-- Whether a member waits for an item. -/
def Member.isPolling (m : Member α) : Bool :=
  match m.poller.worker.place with
  | .inside (.polling _ _) => true
  | _ => false

namespace Pool

open Duration (ofMillis)

/-- What a caller asked of a pool. -/
structure Request (α : Type) where
  /-- The name of the call. -/
  call : CallId
  /-- What was asked. -/
  asked : Action α
  /-- The phase in which the call found the pool. -/
  found : PoolPhase

/-- What is known of a run. -/
@[ext] structure History (α : Type) where
  /-- What callers asked, in order. -/
  requests : List (Request α) := []
  /-- What could be seen, in order. -/
  events : List (PoolEvent α) := []
  /-- The members that the scaler took out of the active ones. -/
  scaledOut : List MemberId := []
  /-- The members that still polled, but were not active any more, when the queue was
  sealed.  The shutdown that sealed it does not wait for them. -/
  overlooked : List MemberId := []

instance : Append (History α) where
  append h k :=
    ⟨h.requests ++ k.requests, h.events ++ k.events, h.scaledOut ++ k.scaledOut,
      h.overlooked ++ k.overlooked⟩

/-- The request that an action makes, if it is a call that gets an answer. -/
def request? (p : Pool α) : Action α → Option (Request α)
  | .start => some ⟨p.nextCall, .start, p.phase⟩
  | .offer item wait => some ⟨p.nextCall, .offer item wait, p.phase⟩
  | .shutdown graceful => some ⟨p.nextCall, .shutdown graceful, p.phase⟩
  | .resume _ | .flush | .member _ _ | .scaler _ => none

/-- The members that an action of the scaler took out of the active ones, those
included that it had only just made. -/
def scaledOut (p q : Pool α) : Action α → List MemberId
  | .scaler _ =>
    (p.active ++ List.range' p.crew.length (q.crew.length - p.crew.length)).filter
      fun i => !q.active.contains i
  | _ => []

/-- The members that poll and are not active. -/
def bystanders (p : Pool α) : List MemberId :=
  (List.range p.crew.length).filter fun i =>
    !p.active.contains i && (p.crew[i]?).any Member.isPolling

/-- The members that a step overlooked, if it sealed the queue. -/
def overlooked (p q : Pool α) : List MemberId :=
  if !p.bench.queue.isSealed && q.bench.queue.isSealed then p.bystanders else []

namespace History

/-- What is known of one step. -/
def ofStep (p : Pool α) (a : Action α) (o : PoolOutcome α) : History α where
  requests := (p.request? a).toList
  events := o.events
  scaledOut := p.scaledOut o.pool a
  overlooked := p.overlooked o.pool

variable (h k : History α)

@[simp] theorem requests_append : (h ++ k).requests = h.requests ++ k.requests := rfl

@[simp] theorem events_append : (h ++ k).events = h.events ++ k.events := rfl

@[simp] theorem scaledOut_append : (h ++ k).scaledOut = h.scaledOut ++ k.scaledOut := rfl

@[simp] theorem overlooked_append : (h ++ k).overlooked = h.overlooked ++ k.overlooked := rfl

@[simp] theorem append_empty : h ++ ({} : History α) = h := by
  ext1 <;> simp

@[simp] theorem empty_append : ({} : History α) ++ h = h := by
  ext1 <;> simp

theorem append_assoc (l : History α) : h ++ k ++ l = h ++ (k ++ l) := by
  ext1 <;> simp

/-- An action makes at most one request. -/
@[simp] theorem requests_ofStep (p : Pool α) (a : Action α) (o : PoolOutcome α) :
    (ofStep p a o).requests = (p.request? a).toList := rfl

@[simp] theorem events_ofStep (p : Pool α) (a : Action α) (o : PoolOutcome α) :
    (ofStep p a o).events = o.events := rfl

@[simp] theorem scaledOut_ofStep (p : Pool α) (a : Action α) (o : PoolOutcome α) :
    (ofStep p a o).scaledOut = p.scaledOut o.pool a := rfl

@[simp] theorem overlooked_ofStep (p : Pool α) (a : Action α) (o : PoolOutcome α) :
    (ofStep p a o).overlooked = p.overlooked o.pool := rfl

end History

/-! ## Regimes and runs -/

/-- What may happen in a run. -/
structure Regime (α : Type) where
  /-- Whether an action may happen to a pool in given surroundings. -/
  allows : Pool α → Surroundings α → Action α → Prop := fun _ _ _ => True

/-- Whether an action is not the panic of a handler at its call. -/
def Action.IsTame : Action α → Prop
  | .member _ (.handled .burst) => False
  | _ => True

/-- Everything may happen. -/
def Regime.any : Regime α := {}

/-- Handlers panic only while they run. -/
def Regime.tame : Regime α := { allows := fun _ _ a => a.IsTame }

/-- A run under a regime, from a pool at a moment to a pool at a moment, with what
is known of it. -/
inductive Run (R : Regime α) (t₀ : Instant) (p₀ : Pool α) : History α → Instant → Pool α → Prop where
  /-- Nothing has happened. -/
  | here : Run R t₀ p₀ {} t₀ p₀
  /-- An action happens. -/
  | act {h : History α} {t : Instant} {p : Pool α} {env : Surroundings α} {a : Action α}
      {o : PoolOutcome α} : Run R t₀ p₀ h t p → R.allows p env a → p.step env t a = some o →
      Run R t₀ p₀ (h ++ .ofStep p a o) t o.pool
  /-- Time passes. -/
  | pass {h : History α} {t t' : Instant} {p : Pool α} : Run R t₀ p₀ h t p → t ≤ t' →
      Run R t₀ p₀ h t' p

namespace Run

variable {R R' : Regime α} {t₀ t₁ t₂ : Instant} {p₀ p₁ p₂ : Pool α} {h k : History α}

/-- A run goes on where another one has ended. -/
theorem trans (run : Run R t₀ p₀ h t₁ p₁) (next : Run R t₁ p₁ k t₂ p₂) :
    Run R t₀ p₀ (h ++ k) t₂ p₂ := by
  induction next with
  | here => rwa [History.append_empty]
  | act _ ha hs ih =>
      rw [← History.append_assoc]
      exact ih.act ha hs
  | pass _ ht ih => exact ih.pass ht

/-- A run under a regime is one under any regime that allows as much. -/
theorem mono (ha : ∀ p env a, R.allows p env a → R'.allows p env a) (run : Run R t₀ p₀ h t₁ p₁) :
    Run R' t₀ p₀ h t₁ p₁ := by
  induction run with
  | here => exact .here
  | act _ hok hs ih => exact ih.act (ha _ _ _ hok) hs
  | pass _ ht ih => exact ih.pass ht

/-- What a regime allows is allowed where anything is. -/
theorem toAny (run : Run R t₀ p₀ h t₁ p₁) : Run .any t₀ p₀ h t₁ p₁ :=
  run.mono fun _ _ _ _ => trivial

/-- What holds at first and is kept by every step holds along a run. -/
theorem invariant {I : History α → Pool α → Prop} (run : Run R t₀ p₀ h t₁ p₁) (first : I {} p₀)
    (keep : ∀ {h p env t a o}, I h p → R.allows p env a → p.step env t a = some o →
      I (h ++ .ofStep p a o) o.pool) : I h p₁ := by
  induction run with
  | here => exact first
  | act _ ha hs ih => exact keep ih ha hs
  | pass _ _ ih => exact ih

end Run

/-! ## Plays -/

/-- A factory with a handler for every name that finds everybody fit, and a policy that
changes nothing. -/
def calm : Surroundings α where
  refusal _ := none
  isFit _ := true
  decide _ := .hold

/-- A pool of one member that waits for a stop for 20 milliseconds. -/
def hasty : PoolSettings where
  name := "hasty"
  maxWorkers := 1
  queueCapacity := 4
  shutdownTimeout := ofMillis 20
  scaling := { evaluateInterval := ofMillis 10 }

/-- Lets actions happen one after the other, each at its moment. -/
def play (env : Surroundings α) :
    Instant → Pool α → List (Instant × Action α) → Option (History α × Instant × Pool α)
  | t, p, [] => some ({}, t, p)
  | t, p, (t', a) :: rest =>
    if t' < t then none
    else
      match p.step env t' a with
      | none => none
      | some o =>
        (play env t' o.pool rest).map fun (h, u, q) => (.ofStep p a o ++ h, u, q)

/-- A play is a run, if its regime allows its actions. -/
theorem Run.play {R : Regime α} {env : Surroundings α} :
    ∀ {script : List (Instant × Action α)} {t u : Instant} {p q : Pool α} {h : History α},
      (∀ w ∈ script, ∀ p, R.allows p env w.2) →
      Pool.play env t p script = some (h, u, q) → Run R t p h u q
  | [], t, u, p, q, h, _, hp => by
      cases hp
      exact .here
  | (t', a) :: rest, t, u, p, q, h, ha, hp => by
      simp only [Pool.play] at hp
      split at hp
      · cases hp
      · next hle =>
          split at hp
          · cases hp
          · next o hs =>
              obtain ⟨⟨k, v, r⟩, hk, he⟩ := Option.map_eq_some_iff.mp hp
              cases he
              have hpassed : Run R t p {} t' p := .pass .here (Nat.le_of_not_lt hle)
              have hfirst := hpassed.act (ha _ List.mem_cons_self p) hs
              rw [History.empty_append] at hfirst
              exact hfirst.trans (Run.play (fun b hb => ha b (List.mem_cons_of_mem _ hb)) hk)

/-- What a play has come to, read off its end. -/
theorem play_of_map {β : Type} {env : Surroundings α} {t : Instant} {p : Pool α}
    {script : List (Instant × Action α)} {f : History α × Instant × Pool α → β} {b : β}
    (hf : (p.play env t script).map f = some b) :
    ∃ h u q, p.play env t script = some (h, u, q) ∧ f (h, u, q) = b := by
  obtain ⟨⟨h, u, q⟩, hp, hb⟩ := Option.map_eq_some_iff.mp hf
  exact ⟨h, u, q, hp, hb⟩

end Pool

end Backpressure
