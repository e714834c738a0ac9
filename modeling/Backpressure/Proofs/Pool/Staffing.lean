import Backpressure.Pool.Scaler

/-!
# How a pool is staffed

Whatever a pool does to its members is a chain of a few changes: a member is told
to stop, a member is dismissed, a member joins, the active ones are regrouped.
Each operation of the crew and of the scaler is shown to be such a chain, so that
a property of pools need only be checked for the single changes.

*Partings* are the changes by which members leave.  They touch nothing but the
members that are told to stop or dismissed.

*Sweeping* has a closed form.  A member that is dismissed has stopped or not as
before, so the members of one sweep do not depend on each other.
-/

namespace Backpressure

variable {α : Type}

/-- The poller after it was told to stop. -/
def Poller.told (p : Poller α) : Poller α := { p with worker := p.worker.requestStop }

/-- The poller of a member that has just joined. -/
def Poller.fresh (s : PollerSettings) : Poller α :=
  { worker := { phase := .running, place := .between false }, idle := s.minIdle }

namespace Pool

/-- One change after the other. -/
inductive Chain (C : Pool α → List (PoolEvent α) → Pool α → Prop) (p : Pool α) :
    List (PoolEvent α) → Pool α → Prop where
  /-- No change. -/
  | refl : Chain C p [] p
  /-- One more change. -/
  | tail {es fs : List (PoolEvent α)} {q r : Pool α} : Chain C p es q → C q fs r →
      Chain C p (es ++ fs) r

/-- A change by which members leave. -/
inductive Parting (p : Pool α) : List (PoolEvent α) → Pool α → Prop where
  /-- A member is told to stop. -/
  | tell (i : MemberId) : Parting p [] (p.requestStop i)
  | dismiss (i : MemberId) (t : Instant) (name : String) :
      Parting p [.destroyed name] (p.modifyMember i fun m => { m with dismissed := some t })

/-- The pool after a member has joined. -/
def hired (p : Pool α) (name : String) (t : Instant) : Pool α :=
  { p with
    nextNumber := p.nextNumber + 1
    crew := p.crew ++ [{ name, poller := .fresh p.settings.poller, joined := t }]
    active := p.active ++ [p.crew.length] }

/-- A change of the crew or of what the pool does with it. -/
inductive Staffing (p : Pool α) : List (PoolEvent α) → Pool α → Prop where
  /-- Members leave. -/
  | part {es : List (PoolEvent α)} {q : Pool α} : Parting p es q → Staffing p es q
  /-- A member joins. -/
  | hire (name : String) (t : Instant) : Staffing p [.created name] (p.hired name t)
  /-- Nobody joins. -/
  | refuse (name : String) : Staffing p [.refused name] { p with nextNumber := p.nextNumber + 1 }
  /-- The policy is asked. -/
  | observe (o : Scaling.Observation) : Staffing p [.observed o] p
  /-- The active members are regrouped, and the scaler moves. -/
  | regroup (active : List MemberId) (scaler : Worker ScalerPoint Unit) :
      Staffing p [] { p with active, scaler }

/-- What one action of the scaler can come to. -/
inductive ScalerDeed (env : Surroundings α) (now : Instant) (p : Pool α) : PoolOutcome α → Prop where
  /-- The loop has its turn, or the hook ends. -/
  | turns {w : Worker ScalerPoint Unit} (hp : ∀ point, p.scaler.place ≠ .inside point)
      (hw : ∀ point, w.place = .inside point → ∃ ends, point = .sleeping ends) :
      ScalerDeed env now p { pool := { p with scaler := w } }
  /-- The sleep ends, and nobody is looked at. -/
  | rises {ends : Instant} {o : PoolOutcome α} (hp : p.scaler.place = .inside (.sleeping ends))
      (he : endScaling { pool := p } .done = some o) : ScalerDeed env now p o
  /-- The sleep ends, and the members are looked at. -/
  | evaluates {ends : Instant} {o : PoolOutcome α} (hp : p.scaler.place = .inside (.sleeping ends))
      (hr : p.phase = .running) (ha : afterRemoval env now (p.removeUnfit env now) = some o) :
      ScalerDeed env now p o
  /-- Somebody unfit is no longer waited for. -/
  | replaces {r : Retirement} {next : Option Retirement} {o o' : PoolOutcome α}
      (hp : p.scaler.place = .inside (.replacing r)) (hn : p.retireNext now r = some (next, o))
      (ha : afterRemoval env now (next, o) = some o') : ScalerDeed env now p o'
  /-- Somebody who was one too many is no longer waited for, and somebody else is. -/
  | shrinks {r r' : Retirement} {o o' : PoolOutcome α}
      (hp : p.scaler.place = .inside (.shrinking r)) (hn : p.retireNext now r = some (some r', o))
      (hm : moveScaling o (.shrinking r') = some o') : ScalerDeed env now p o'
  /-- Nobody who was one too many is waited for any more. -/
  | shrunk {r : Retirement} {o o' : PoolOutcome α} (hp : p.scaler.place = .inside (.shrinking r))
      (hn : p.retireNext now r = some (none, o)) (he : endScaling o .done = some o') :
      ScalerDeed env now p o'

namespace Chain

variable {C D : Pool α → List (PoolEvent α) → Pool α → Prop} {p q r : Pool α}
  {es fs : List (PoolEvent α)}

theorem single (h : C p es q) : Chain C p es q := Chain.tail (.refl : Chain C p [] p) h

theorem trans (h : Chain C p es q) (k : Chain C q fs r) : Chain C p (es ++ fs) r := by
  induction k with
  | refl => simpa using h
  | tail _ hc ih =>
      rw [← List.append_assoc]
      exact ih.tail hc

theorem silent (h : Chain C p es q) (hc : C q [] r) : Chain C p es r := by
  simpa using h.tail hc

theorem mono (hCD : ∀ p es q, C p es q → D p es q) (h : Chain C p es q) : Chain D p es q := by
  induction h with
  | refl => exact .refl
  | tail _ hc ih => exact ih.tail (hCD _ _ _ hc)

/-- Letting go of members is part of what a scaler does. -/
theorem staffing (h : Chain Parting p es q) : Chain Staffing p es q :=
  h.mono fun _ _ _ => .part

end Chain

variable {env : Surroundings α} {now : Instant} {p q : Pool α} {o : PoolOutcome α}
  {es : List (PoolEvent α)}

/-! ## What changes leave alone -/

/-- Changes touch nothing but the staff. -/
theorem Chain.eq_staff (h : Chain Staffing p es q) :
    q = { p with
      crew := q.crew
      active := q.active
      nextNumber := q.nextNumber
      scaler := q.scaler } := by
  induction h with
  | refl => rfl
  | tail _ hc ih =>
      cases hc with
      | part hc => cases hc <;> rw [ih] <;> rfl
      | hire name t =>
          rw [ih]
          rfl
      | refuse name => rw [ih]
      | observe o => exact ih
      | regroup active scaler => rw [ih]

/-- Partings touch nothing but the members. -/
theorem Chain.eq_crew (h : Chain Parting p es q) : q = { p with crew := q.crew } := by
  induction h with
  | refl => rfl
  | tail _ hc ih =>
      cases hc <;> rw [ih] <;> rfl

/-- Members leave the active ones before they are let go of, so letting go takes nobody out. -/
theorem Chain.active_eq (h : Chain Parting p es q) : q.active = p.active := by
  rw [h.eq_crew]

theorem Chain.length_crew_eq (h : Chain Parting p es q) : q.crew.length = p.crew.length := by
  induction h with
  | refl => rfl
  | tail _ hc ih =>
      cases hc <;> simpa [requestStop, modifyMember] using ih

/-- All that can be seen of partings is that the factory lets go of members. -/
theorem Chain.destroyed (h : Chain Parting p es q) {e : PoolEvent α} (he : e ∈ es) :
    ∃ name, e = .destroyed name := by
  induction h with
  | refl => cases he
  | tail _ hc ih =>
      cases List.mem_append.mp he with
      | inl hl => exact ih hl
      | inr hr =>
          cases hc with
          | tell i => cases hr
          | dismiss i t name => exact ⟨name, List.mem_singleton.mp hr⟩

/-! ## Joining -/

theorem spawn_staffing (env : Surroundings α) (now : Instant) (p : Pool α) :
    Staffing p (p.spawn env now).2.events (p.spawn env now).2.pool := by
  simp only [spawn]
  split
  · exact .refuse _
  · exact .hire _ now

/-- A member that the factory has a handler for joins the crew. -/
theorem spawn_eq_none (h : p.spawn env now = (none, o)) :
    ∃ name, o = ⟨[.created name], p.hired name now⟩ := by
  simp only [spawn] at h
  split at h
  · cases h
  · cases h
    exact ⟨_, rfl⟩

theorem spawnMany_chain {n : Nat} {error : Option PoolError}
    (h : p.spawnMany env now n = (error, o)) : Chain Staffing p o.events o.pool := by
  induction n generalizing p error o with
  | zero =>
      cases h
      exact .refl
  | succ n ih =>
      have hfirst := spawn_staffing env now p
      simp only [spawnMany] at h
      split at h
      · next hs =>
          cases h
          rw [hs] at hfirst
          exact .single hfirst
      · next o₁ hs =>
          cases h
          rw [hs] at hfirst
          exact (Chain.single hfirst).trans (ih rfl)

/-- Without an error, as many members have joined as were asked for. -/
theorem spawnMany_eq_none {n : Nat} (h : p.spawnMany env now n = (none, o)) :
    ∃ new, new.length = n ∧ (∀ m ∈ new, m.poller = .fresh p.settings.poller) ∧
      o.pool = { p with
        crew := p.crew ++ new
        active := p.active ++ List.range' p.crew.length n
        nextNumber := p.nextNumber + n } := by
  induction n generalizing p o with
  | zero =>
      cases h
      exact ⟨[], rfl, by simp, by simp⟩
  | succ n ih =>
      simp only [spawnMany] at h
      split at h
      · cases h
      · next o₁ hs =>
          obtain ⟨name, rfl⟩ := spawn_eq_none hs
          obtain ⟨he, rfl⟩ := Prod.mk.inj h
          obtain ⟨new, hn, hf, hq⟩ := ih (Prod.ext he rfl)
          refine ⟨{ name, poller := .fresh p.settings.poller, joined := now } :: new,
            by rw [List.length_cons, hn], ?_, ?_⟩
          · intro m hm
            cases List.mem_cons.mp hm with
            | inl hm => rw [hm]
            | inr hm => exact hf m hm
          · simp only [PoolOutcome.after, hq]
            simp [hired, List.range'_succ, Nat.add_assoc, Nat.add_comm 1 n]

@[simp] theorem scaler_spawnMany (env : Surroundings α) (now : Instant) (n : Nat) (p : Pool α) :
    (p.spawnMany env now n).2.pool.scaler = p.scaler := by
  induction n generalizing p with
  | zero => rfl
  | succ n ih =>
      simp only [spawnMany, spawn]
      split
      · next h =>
          split at h <;> cases h
          rfl
      · next h =>
          split at h <;> cases h
          exact ih _

/-- A factory that refuses nobody makes all members. -/
theorem spawnMany_ne_error (now : Instant) (n : Nat) (p : Pool α) (he : env.refusal = fun _ => none) :
    (p.spawnMany env now n).1 = none := by
  induction n generalizing p with
  | zero => rfl
  | succ n ih => simp only [spawnMany, spawn, he, ih]

/-! ## Leaving -/

theorem foldl_requestStop_chain (l : List MemberId) :
    Chain Parting p [] (l.foldl requestStop p) := by
  induction l generalizing p with
  | nil => exact .refl
  | cons i l ih => exact (Chain.single (.tell i)).trans ih

/-- Retiring in turn only lets go of members. -/
theorem retireInTurn_chain {l : List MemberId} {r : Option Retirement}
    (h : p.retireInTurn now l = (r, o)) : Chain Parting p o.events o.pool := by
  induction l generalizing p r o with
  | nil =>
      cases h
      exact .refl
  | cons i l ih =>
      simp only [retireInTurn] at h
      have hfirst : Chain Parting p [] (p.requestStop i) := .single (.tell i)
      split at h
      · cases h
        exact hfirst
      · cases h
        exact (hfirst.tail (.dismiss i now _)).trans (ih rfl)

theorem retireNext_chain {r : Retirement} {next : Option Retirement}
    (h : p.retireNext now r = some (next, o)) : Chain Parting p o.events o.pool := by
  simp only [retireNext] at h
  obtain ⟨-, -, he⟩ := Option.map_eq_some_iff.mp h
  cases he
  exact (Chain.single (.dismiss r.member now _)).trans (retireInTurn_chain rfl)

/-! ## Sweeping -/

@[simp] theorem stopWait_dismissed (i j : MemberId) (t deadline : Instant) :
    (p.modifyMember i fun m => { m with dismissed := some t }).stopWait j deadline now =
      p.stopWait j deadline now := by
  simp only [stopWait, modifyMember, List.getElem?_modify]
  split
  · next m hm =>
      obtain ⟨m', hm', he⟩ := Option.map_eq_some_iff.mp hm
      rw [hm']
      split at he <;> subst he <;> rfl
  · next hm => rw [Option.map_eq_none_iff.mp hm]

/-- A member that is still waited for. -/
def waitsFor (now : Instant) (p : Pool α) (w : MemberId × Instant) : Bool :=
  (p.stopWait w.1 w.2 now).isNone

/-- A member that did not stop in time. -/
def isStraggler (now : Instant) (p : Pool α) (w : MemberId × Instant) : Bool :=
  p.stopWait w.1 w.2 now == some false

/-- A sweep leaves those that are still waited for and counts the others that have
not stopped. -/
theorem sweep_eq (pending : List (MemberId × Instant)) (n : Nat) :
    (p.sweep now pending n).1 =
      (pending.filter (p.waitsFor now), n + pending.countP (p.isStraggler now)) := by
  induction pending generalizing p n with
  | nil => rfl
  | cons w pending ih =>
      obtain ⟨i, deadline⟩ := w
      simp only [sweep]
      have hdismissed : waitsFor now (p.dismiss now i).pool = p.waitsFor now ∧
          isStraggler now (p.dismiss now i).pool = p.isStraggler now := by
        constructor <;> funext w <;> simp [waitsFor, isStraggler, dismiss]
      cases hs : p.stopWait i deadline now with
      | none => simp [ih, waitsFor, isStraggler, hs]
      | some stopped =>
          simp only [ih, hdismissed]
          cases stopped <;>
            simp [waitsFor, isStraggler, hs, Nat.add_assoc, Nat.add_comm 1]

/-- A sweep only lets go of members. -/
theorem sweep_chain (now : Instant) (pending : List (MemberId × Instant)) (n : Nat) (p : Pool α) :
    Chain Parting p (p.sweep now pending n).2.events (p.sweep now pending n).2.pool := by
  induction pending generalizing p n with
  | nil => exact .refl
  | cons w pending ih =>
      obtain ⟨i, deadline⟩ := w
      simp only [sweep]
      split
      · exact ih n _
      · exact (Chain.single (.dismiss i now _)).trans (ih _ _)

/-! ## The scaler -/

/-- The end of an iteration of the scaler moves the scaler and nothing else. -/
theorem endScaling_eq_some {o' : PoolOutcome α} {how : IterationEnd}
    (h : endScaling o how = some o') :
    ∃ w : Worker ScalerPoint Unit, o' = { o with pool.scaler := w } ∧
      ∀ point, w.place ≠ .inside point := by
  simp only [endScaling, putScaler, Worker.finish, Option.map_map, Option.map_eq_some_iff] at h
  obtain ⟨w, hw, rfl⟩ := h
  split at hw
  · next hplace =>
      cases hw
      refine ⟨_, rfl, fun point => ?_⟩
      dsimp only
      split <;> exact (by intro h; cases h)
  · cases hw

theorem moveScaling_eq_some {o' : PoolOutcome α} {point : ScalerPoint}
    (h : moveScaling o point = some o') :
    ∃ w : Worker ScalerPoint Unit, o' = { o with pool.scaler := w } ∧ w.place = .inside point := by
  simp only [moveScaling, putScaler, Worker.move, Option.map_map, Option.map_eq_some_iff] at h
  obtain ⟨w, hw, rfl⟩ := h
  split at hw
  · next hplace =>
      cases hw
      exact ⟨_, rfl, rfl⟩
  · cases hw

/-- Whatever the scaler did, it may then end its iteration. -/
theorem endScaling_chain {o' : PoolOutcome α} {how : IterationEnd}
    (hc : Chain Staffing p o.events o.pool) (h : endScaling o how = some o') :
    Chain Staffing p o'.events o'.pool := by
  obtain ⟨w, rfl, -⟩ := endScaling_eq_some h
  exact hc.silent (.regroup o.pool.active w)

theorem moveScaling_chain {o' : PoolOutcome α} {point : ScalerPoint}
    (hc : Chain Staffing p o.events o.pool) (h : moveScaling o point = some o') :
    Chain Staffing p o'.events o'.pool := by
  obtain ⟨w, rfl, -⟩ := moveScaling_eq_some h
  exact hc.silent (.regroup o.pool.active w)

theorem shrink_chain {n : Nat} {r : Option Retirement} (h : p.shrink now n = (r, o)) :
    Chain Staffing p o.events o.pool := by
  simp only [shrink] at h
  have hfirst := Chain.single (Staffing.regroup (p := p)
    (p.active.take (max (p.active.length - n) p.settings.minWorkers)) p.scaler)
  exact (hfirst.trans (foldl_requestStop_chain _).staffing).trans (retireInTurn_chain h).staffing

/-- Taking out the unfit tells them to stop and lets go of those that have stopped. -/
theorem removeUnfit_chain {r : Option Retirement} (h : p.removeUnfit env now = (r, o)) :
    Chain Staffing p o.events o.pool := by
  simp only [removeUnfit, List.partition_eq_filter_filter] at h
  exact (Chain.single (.regroup _ p.scaler)).trans (retireInTurn_chain h).staffing

/-- Following the policy makes members, or lets go of them. -/
theorem followPolicy_chain (h : p.followPolicy env now = some o) :
    Chain Staffing p o.events o.pool := by
  simp only [followPolicy] at h
  have hseen : Chain Staffing p [.observed (p.observe now)] p := .single (.observe _)
  split at h
  · exact endScaling_chain hseen h
  · split at h
    · next hg => exact endScaling_chain (hseen.trans (spawnMany_chain hg)) h
    · next hg => exact endScaling_chain (hseen.trans (spawnMany_chain hg)) h
  · split at h
    · next hg => exact endScaling_chain (hseen.trans (shrink_chain hg)) h
    · next hg => exact moveScaling_chain (hseen.trans (shrink_chain hg)) h

theorem fillUp_chain (h : p.fillUp env now = some o) : Chain Staffing p o.events o.pool := by
  simp only [fillUp] at h
  split at h
  · next hs => exact endScaling_chain (spawnMany_chain hs) h
  · next hs =>
      obtain ⟨o₁, hf, rfl⟩ := Option.map_eq_some_iff.mp h
      exact (spawnMany_chain hs).trans (followPolicy_chain hf)

theorem afterRemoval_chain {r : Option Retirement} {o' : PoolOutcome α}
    (hc : Chain Staffing p o.events o.pool) (h : afterRemoval env now (r, o) = some o') :
    Chain Staffing p o'.events o'.pool := by
  cases r with
  | some r => exact moveScaling_chain hc h
  | none =>
      obtain ⟨o₁, hf, rfl⟩ := Option.map_eq_some_iff.mp h
      exact hc.trans (fillUp_chain hf)

/-- Whatever the scaler does is one of its deeds. -/
theorem scalerStep_deed {b : ScalerAction} (h : p.scalerStep env now b = some o) :
    ScalerDeed env now p o := by
  cases b with
  | turn =>
      simp only [scalerStep, putScaler, Worker.turn, Option.map_map, Option.map_eq_some_iff] at h
      obtain ⟨w, hw, rfl⟩ := h
      split at hw
      · next hplace =>
          cases hw
          refine .turns (by simp [hplace]) fun point hp => ?_
          dsimp only at hp
          split at hp <;> cases hp
          exact ⟨_, rfl⟩
      · cases hw
  | quit =>
      simp only [scalerStep] at h
      split at h
      · next hplace =>
          split at h
          · exact .rises hplace h
          · cases h
      · cases h
  | evaluate =>
      simp only [scalerStep] at h
      split at h
      · next hplace =>
          split at h
          · cases h
          · split at h
            · exact .rises hplace h
            · next hp => exact .evaluates hplace (Decidable.not_not.mp hp) h
      · cases h
  | retired =>
      simp only [scalerStep] at h
      split at h
      · next r hplace =>
          obtain ⟨⟨next, o₁⟩, hn, ha⟩ := Option.bind_eq_some_iff.mp h
          exact .replaces hplace hn ha
      · next r hplace =>
          obtain ⟨⟨next, o₁⟩, hn, ha⟩ := Option.bind_eq_some_iff.mp h
          cases next with
          | some r' => exact .shrinks hplace hn ha
          | none => exact .shrunk hplace hn ha
      · cases h
  | leave =>
      simp only [scalerStep, putScaler, Worker.finishHook, Option.map_map,
        Option.map_eq_some_iff] at h
      obtain ⟨w, hw, rfl⟩ := h
      split at hw
      · next hplace =>
          cases hw
          exact .turns (by simp [hplace]) (by intro i h; cases h)
      · cases hw

/-- Whatever the scaler does is a chain of changes. -/
theorem ScalerDeed.chain (h : ScalerDeed env now p o) : Chain Staffing p o.events o.pool := by
  cases h with
  | turns hp hw => exact .single (.regroup p.active _)
  | rises hp he => exact endScaling_chain .refl he
  | evaluates hp hr ha => exact afterRemoval_chain (removeUnfit_chain rfl) ha
  | replaces hp hn ha => exact afterRemoval_chain (retireNext_chain hn).staffing ha
  | shrinks hp hn hm => exact moveScaling_chain (retireNext_chain hn).staffing hm
  | shrunk hp hn he => exact endScaling_chain (retireNext_chain hn).staffing he

theorem scalerStep_chain {b : ScalerAction} (h : p.scalerStep env now b = some o) :
    Chain Staffing p o.events o.pool := (scalerStep_deed h).chain

/-! ## A scaler that replaces nobody -/

/-- Partings let nobody join. -/
theorem Chain.not_created (h : Chain Parting p es q) (name : String) : .created name ∉ es := by
  intro he
  obtain ⟨_, he⟩ := h.destroyed he
  cases he

/-- A scaler that is not about to replace anybody leaves the members of a pool that does not
run alone. -/
theorem ScalerDeed.idle (h : ScalerDeed env now p o) (hp : p.phase ≠ .running)
    (hr : ∀ r, p.scaler.place ≠ .inside (.replacing r)) :
    o.pool.active = p.active ∧ (∀ name, .created name ∉ o.events) ∧
      ∀ r, o.pool.scaler.place ≠ .inside (.replacing r) := by
  cases h with
  | turns hp' hw =>
      refine ⟨rfl, (by intro i h; cases h), fun r hplace => ?_⟩
      obtain ⟨ends, he⟩ := hw _ hplace
      cases he
  | rises hp' he =>
      obtain ⟨w, rfl, hw⟩ := endScaling_eq_some he
      exact ⟨rfl, (by intro i h; cases h), fun r => hw _⟩
  | evaluates hp' hr' ha => exact absurd hr' hp
  | replaces hp' hn ha => exact absurd hp' (hr _)
  | shrinks hp' hn hm =>
      have hchain := retireNext_chain hn
      obtain ⟨w, rfl, hw⟩ := moveScaling_eq_some hm
      exact ⟨hchain.active_eq, hchain.not_created, by simp [hw]⟩
  | shrunk hp' hn he =>
      have hchain := retireNext_chain hn
      obtain ⟨w, rfl, hw⟩ := endScaling_eq_some he
      exact ⟨hchain.active_eq, hchain.not_created, fun r => hw _⟩

end Pool

end Backpressure
