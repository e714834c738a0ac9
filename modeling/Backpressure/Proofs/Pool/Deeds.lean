import Backpressure.Pool.Machine
import Backpressure.Proofs.Pool.Staffing
import Backpressure.Proofs.Queue.Effects

/-!
# What a pool can do

`Pool.Deed` lists everything that one action can come to.  The conditions of a
deed are those under which it happens; its result is given by the same functions
that the pool uses, up to the point where all deeds of a kind agree.
`Pool.step_deed` says that the list is complete.

*Calls.*  A new call is made of the pool with one more name given out.  A call
that waits goes on with the pool as it is.  `Offering`, `Following` and `Opening`
cover both, so that an offer, say, is settled by one deed whenever it is settled.

*Retiring.*  Gathering the crew is taken apart: the queue is sealed and perhaps
cleared, the active members are all told to stop, and then they are swept.
-/

namespace Backpressure.Pool

variable {α : Type}

/-! ## The parts of a shutdown -/

/-- The pool with its queue sealed, which a pool that shuts down gracefully leaves
as it is and any other throws away. -/
def sealed (p : Pool α) (graceful : Bool) : PoolOutcome α :=
  let p := { p with bench := { p.bench with queue := p.bench.queue.sealUp, drainOnStop := graceful } }
  if graceful then { pool := p } else p.discardAll

/-- The pool with no active members, and all of them told to stop. -/
def disbanded (p : Pool α) : Pool α := p.active.foldl requestStop { p with active := [] }

/-- The pool when a shutdown begins. -/
def draining (p : Pool α) : Pool α :=
  { p with phase := .draining, scaler := p.scaler.requestStop }

/-- The pool when a shutdown has waited for everybody. -/
def closed (p : Pool α) : PoolOutcome α :=
  let o := p.discardAll
  { o with pool.phase := .stopped }

/-- The members that a shutdown waits for at first, and how long. -/
def leavers (p : Pool α) (now : Instant) : List (MemberId × Instant) :=
  p.active.map fun i => (i, p.patience now)

/-- How a shutdown ends. -/
def verdict (stragglers : Nat) : Except PoolError Unit :=
  if stragglers = 0 then .ok () else .error (.stragglers stragglers)

/-! ## Deeds -/

/-- An offer is settled now: a new offer, or one that waits. -/
inductive Offering (p : Pool α) : Action α → CallId → α → Pool α → Prop where
  | new {item : α} {wait : Duration} (hp : p.phase = .running) :
      Offering p (.offer item wait) p.nextCall item p.named
  | waited {c : CallId} {item : α} {t : Ticket} {deadline : Instant}
      (hc : p.calls.lookup c = some (.offer item t deadline)) : Offering p (.resume c) c item p

/-- A shutdown that is not the first is settled now. -/
inductive Following (p : Pool α) : Action α → CallId → Option PoolError → Pool α → Prop where
  | new {graceful : Bool} (hp : p.phase = .draining ∨ p.phase = .stopped) :
      Following p (.shutdown graceful) p.nextCall none p.named
  | waited {c : CallId} {graceful : Bool} {deadline : Instant} {afterStart : Option PoolError}
      (hc : p.calls.lookup c = some (.shutdown graceful (.awaitingOther deadline) afterStart)) :
      Following p (.resume c) c afterStart p

/-- The first shutdown begins, with what could be seen before. -/
inductive Opening (env : Surroundings α) (now : Instant) (p : Pool α) :
    Action α → CallId → Bool → Option PoolError → List (PoolEvent α) → Pool α → Prop where
  /-- A caller asked for it. -/
  | asked {graceful : Bool} (hp : p.phase = .running) :
      Opening env now p (.shutdown graceful) p.nextCall graceful none [] p.named
  /-- The start went wrong. -/
  | failed {error : PoolError} {o : PoolOutcome α} (hp : p.phase = .created)
      (hs : spawnMany env now p.settings.minWorkers { p.named with phase := .running } =
        (some error, o)) :
      Opening env now p .start p.nextCall false (some error) o.events o.pool

/-- What one action of a pool can come to. -/
inductive Deed (env : Surroundings α) (now : Instant) (p : Pool α) :
    Action α → PoolOutcome α → Prop where
  /-- An offer finds the pool not running. -/
  | spurned {item : α} {wait : Duration} (hp : p.phase ≠ .running) :
      Deed env now p (.offer item wait)
        (answer { pool := { p.named with rejected := p.rejected + 1 } } p.nextCall (.offered false))
  /-- An offer gets a slot. -/
  | accepted {a : Action α} {c : CallId} {item : α} {p' : Pool α} {slots : Permits}
      (ho : Offering p a c item p') (hq : p.bench.queue.slots.closed = false)
      (hs : slots.closed = false) :
      Deed env now p a
        ({ p' with bench.queue := { p.bench.queue with slots }.push item }.endOffer c true)
  /-- An offer gets no slot. -/
  | returned {a : Action α} {c : CallId} {item : α} {p' : Pool α} {slots : Permits}
      (ho : Offering p a c item p') (hs : slots.closed = p.bench.queue.slots.closed) :
      Deed env now p a ({ p' with bench.queue := { p.bench.queue with slots } }.endOffer c false)
  /-- An offer has to wait for a slot. -/
  | queued {item : α} {wait : Duration} {slots : Permits} (hp : p.phase = .running)
      (hs : slots.closed = p.bench.queue.slots.closed) :
      Deed env now p (.offer item wait)
        (await
          { pool := { p.named with bench := { p.bench with
              queue := { p.bench.queue with slots }
              nextTicket := p.bench.nextTicket + 1 } } }
          p.nextCall (.offer item p.bench.nextTicket (now.afterWait wait)))
  /-- A later shutdown ends. -/
  | followed {a : Action α} {c : CallId} {afterStart : Option PoolError} {p' : Pool α}
      {result : Except PoolError Unit} (hf : Following p a c afterStart p')
      (hr : result = .ok () → p.phase = .stopped) :
      Deed env now p a (endShutdown { pool := p' } c afterStart result)
  /-- A later shutdown has to wait for the first. -/
  | follows {graceful : Bool} (hp : p.phase = .draining) :
      Deed env now p (.shutdown graceful)
        (await { pool := p.named } p.nextCall
          (.shutdown graceful (.awaitingOther (p.patience now)) none))
  /-- A pool that was never started is shut down. -/
  | abandoned {graceful : Bool} (hp : p.phase = .created) :
      Deed env now p (.shutdown graceful)
        (endShutdown
          { pool := { p.named with
              phase := .stopped
              scaler := p.scaler.requestStop
              bench := { p.bench with queue := p.bench.queue.closeAndClear.2 } } }
          p.nextCall none (.ok ()))
  /-- The first shutdown has to wait for the scaler. -/
  | opens {a : Action α} {c : CallId} {graceful : Bool} {afterStart : Option PoolError}
      {es : List (PoolEvent α)} {p' : Pool α} (ho : Opening env now p a c graceful afterStart es p')
      (hw : p'.draining.scaler.stopWait (p'.patience now) now = none) :
      Deed env now p a
        ((await { pool := p'.draining } c
          (.shutdown graceful (.awaitingScaler (p'.patience now)) afterStart)).after es)
  /-- The first shutdown need not wait for the scaler. -/
  | rushes {a : Action α} {c : CallId} {graceful : Bool} {afterStart : Option PoolError}
      {es : List (PoolEvent α)} {p' : Pool α} (ho : Opening env now p a c graceful afterStart es p')
      (hw : (p'.draining.scaler.stopWait (p'.patience now) now).isSome) :
      Deed env now p a ((p'.draining.retireCrew now c graceful afterStart).after es)
  /-- The first shutdown no longer waits for the scaler. -/
  | gathers {c : CallId} {graceful : Bool} {deadline : Instant} {afterStart : Option PoolError}
      (hc : p.calls.lookup c = some (.shutdown graceful (.awaitingScaler deadline) afterStart))
      (hw : (p.scaler.stopWait deadline now).isSome) :
      Deed env now p (.resume c) (p.retireCrew now c graceful afterStart)
  /-- The first shutdown no longer waits for some member. -/
  | sweeps {c : CallId} {graceful : Bool} {pending : List (MemberId × Instant)} {stragglers : Nat}
      {afterStart : Option PoolError}
      (hc : p.calls.lookup c = some (.shutdown graceful (.retiring pending stragglers) afterStart)) :
      Deed env now p (.resume c) (p.retireAll now c graceful afterStart pending stragglers)
  /-- A pool is started again. -/
  | restarted (hp : p.phase ≠ .created) :
      Deed env now p .start
        (answer { pool := p.named } p.nextCall
          (.ended (.error (.alreadyStarted p.settings.name))))
  | started {o : PoolOutcome α} {scaler : Worker ScalerPoint Unit} (hp : p.phase = .created)
      (hs : spawnMany env now p.settings.minWorkers { p.named with phase := .running } = (none, o))
      (hw : o.pool.scaler.start = some scaler) :
      Deed env now p .start
        (answer { o with pool.scaler := scaler } p.nextCall (.ended (.ok ())))
  /-- The scaler cannot be started. -/
  | stuck {o : PoolOutcome α} {error : PoolError} (hp : p.phase = .created)
      (hs : spawnMany env now p.settings.minWorkers { p.named with phase := .running } = (none, o))
      (hw : o.pool.scaler.start = none) :
      Deed env now p .start (answer o p.nextCall (.ended (.error error)))
  /-- The members are woken. -/
  | flushed :
      Deed env now p .flush
        { pool := { p with crew := p.crew.map fun m => { m with poller := m.poller.nudge } } }
  /-- A member acts. -/
  | member {i : MemberId} {b : Poller.Action} {m : Member α} {o : Poller.Outcome α}
      (hm : p.crew[i]? = some m) (hs : m.poller.step p.settings.poller now p.bench b = some o) :
      Deed env now p (.member i b)
        { events := o.events.map (.poller i)
          pool := { p.modifyMember i fun m => { m with poller := o.poller } with bench := o.bench } }
  /-- The scaler acts. -/
  | scaler {b : ScalerAction} {o : PoolOutcome α} (hs : p.scalerStep env now b = some o) :
      Deed env now p (.scaler b) o

variable {env : Surroundings α} {now : Instant} {p : Pool α} {o : PoolOutcome α} {c : CallId}
  {graceful : Bool} {afterStart : Option PoolError}

/-! ## Offers -/

/-- An offer that begins is spurned, accepted, returned or stands in line. -/
theorem beginOffer_deed (item : α) (wait : Duration) :
    Deed env now p (.offer item wait) (p.named.beginOffer now p.nextCall item wait) := by
  simp only [beginOffer]
  split
  · next hp => exact .spurned hp
  · next hp =>
      have hrun : p.phase = .running := Decidable.not_not.mp hp
      split
      · cases hq : p.bench.queue.tryOffer item with
        | mk ok queue =>
            cases ok with
            | true =>
                obtain ⟨slots, hs, rfl⟩ := Queue.tryOffer_eq_true hq
                obtain ⟨hopen, -, rfl⟩ := Permits.tryTake_eq_some.mp hs
                simp only [named, hq]
                exact .accepted (.new hrun) hopen hopen
            | false =>
                rw [Queue.tryOffer_eq_false hq] at hq
                simp only [named, hq]
                exact .returned (.new hrun) (Eq.refl p.bench.queue.slots.closed)
      · simp only [named]
        split
        · next queue hq =>
            obtain ⟨slots, hs, rfl⟩ := Queue.tryOffer_eq_true (Queue.offer_eq_accepted hq)
            obtain ⟨hopen, -, rfl⟩ := Permits.tryTake_eq_some.mp hs
            exact .accepted (.new hrun) hopen hopen
        · next queue hq =>
            rw [Queue.offer_eq_returned hq]
            exact .returned (.new hrun) (Eq.refl p.bench.queue.slots.closed)
        · next queue hq =>
            rw [Queue.offer_eq_waiting hq]
            exact .queued hrun (Permits.closed_enroll (p := p.bench.queue.slots))

/-- An offer that waited first has its turn, and only then looks at its deadline. -/
theorem resumeOffer_deed {item : α} {t : Ticket} {deadline : Instant}
    (hc : p.calls.lookup c = some (.offer item t deadline))
    (h : p.resumeOffer now c item t deadline = some o) : Deed env now p (.resume c) o := by
  simp only [Pool.resumeOffer] at h
  split at h
  · next queue hq =>
      cases h
      obtain ⟨hopen, -, rfl⟩ := Queue.resumeOffer_eq_accepted hq
      exact .accepted (.waited hc) hopen hopen
  · next queue hq =>
      cases h
      obtain ⟨-, rfl⟩ := Queue.resumeOffer_eq_returned hq
      exact .returned (.waited hc) Permits.closed_leave
  · next queue hq =>
      split at h
      · cases h
        rw [Queue.resumeOffer_eq_waiting hq]
        exact .returned (.waited hc) Permits.closed_leave
      · cases h

/-! ## Shutdown -/

section Parts

variable (pending : List (MemberId × Instant)) (n : Nat)

@[simp] theorem settings_sweep : (p.sweep now pending n).2.pool.settings = p.settings := by
  rw [(sweep_chain now pending n p).eq_crew]

@[simp] theorem phase_sweep : (p.sweep now pending n).2.pool.phase = p.phase := by
  rw [(sweep_chain now pending n p).eq_crew]

/-- A sweep leaves the queue alone. -/
@[simp] theorem bench_sweep : (p.sweep now pending n).2.pool.bench = p.bench := by
  rw [(sweep_chain now pending n p).eq_crew]

/-- A sweep only lets go of members; who is active has been settled before. -/
@[simp] theorem active_sweep : (p.sweep now pending n).2.pool.active = p.active := by
  rw [(sweep_chain now pending n p).eq_crew]

@[simp] theorem scaler_sweep : (p.sweep now pending n).2.pool.scaler = p.scaler := by
  rw [(sweep_chain now pending n p).eq_crew]

/-- A sweep answers nobody. -/
@[simp] theorem calls_sweep : (p.sweep now pending n).2.pool.calls = p.calls := by
  rw [(sweep_chain now pending n p).eq_crew]

@[simp] theorem nextCall_sweep : (p.sweep now pending n).2.pool.nextCall = p.nextCall := by
  rw [(sweep_chain now pending n p).eq_crew]

end Parts

/-- Disbanding the crew tells each active member to stop, and does nothing else. -/
theorem disbanded_chain : Chain Parting { p with active := [] } [] p.disbanded :=
  foldl_requestStop_chain p.active

@[simp] theorem settings_disbanded : p.disbanded.settings = p.settings := by
  rw [disbanded_chain.eq_crew]

@[simp] theorem phase_disbanded : p.disbanded.phase = p.phase := by
  rw [disbanded_chain.eq_crew]

/-- Disbanding the crew leaves the queue alone. -/
@[simp] theorem bench_disbanded : p.disbanded.bench = p.bench := by
  rw [disbanded_chain.eq_crew]

@[simp] theorem scaler_disbanded : p.disbanded.scaler = p.scaler := by
  rw [disbanded_chain.eq_crew]

@[simp] theorem calls_disbanded : p.disbanded.calls = p.calls := by
  rw [disbanded_chain.eq_crew]

@[simp] theorem nextCall_disbanded : p.disbanded.nextCall = p.nextCall := by
  rw [disbanded_chain.eq_crew]

@[simp] theorem settings_sealed : (p.sealed graceful).pool.settings = p.settings := by
  cases graceful <;> rfl

@[simp] theorem phase_sealed : (p.sealed graceful).pool.phase = p.phase := by
  cases graceful <;> rfl

/-- Sealing the queue leaves the members alone. -/
@[simp] theorem crew_sealed : (p.sealed graceful).pool.crew = p.crew := by
  cases graceful <;> rfl

@[simp] theorem scaler_sealed : (p.sealed graceful).pool.scaler = p.scaler := by
  cases graceful <;> rfl

@[simp] theorem calls_sealed : (p.sealed graceful).pool.calls = p.calls := by
  cases graceful <;> rfl

@[simp] theorem nextCall_sealed : (p.sealed graceful).pool.nextCall = p.nextCall := by
  cases graceful <;> rfl

/-- Gathering the crew, step by step. -/
theorem retireCrew_eq :
    p.retireCrew now c graceful afterStart =
      ((p.sealed graceful).pool.disbanded.retireAll now c graceful afterStart (p.leavers now) 0).after
        (p.sealed graceful).events := by
  have hleavers : p.leavers now =
      p.active.map fun i => (i, (p.sealed graceful).pool.disbanded.patience now) := by
    simp [leavers, patience]
  rw [hleavers]
  cases graceful <;> rfl

/-- A shutdown that waits for nobody any more ends. -/
theorem retireAll_of_nil {pending : List (MemberId × Instant)} {n : Nat}
    (hl : pending.filter (p.waitsFor now) = []) :
    p.retireAll now c graceful afterStart pending n =
      endShutdown
        ((p.sweep now pending n).2.pool.closed.after (p.sweep now pending n).2.events) c afterStart
        (verdict (n + pending.countP (p.isStraggler now))) := by
  have hs : p.sweep now pending n = (_, (p.sweep now pending n).2) := Prod.ext (sweep_eq pending n) rfl
  rw [retireAll, hs, hl]
  rfl

/-- A shutdown that still waits for somebody goes on waiting. -/
theorem retireAll_of_ne_nil {pending : List (MemberId × Instant)} {n : Nat}
    (hl : pending.filter (p.waitsFor now) ≠ []) :
    p.retireAll now c graceful afterStart pending n =
      await (p.sweep now pending n).2 c
        (.shutdown graceful
          (.retiring (pending.filter (p.waitsFor now)) (n + pending.countP (p.isStraggler now)))
          afterStart) := by
  have hs : p.sweep now pending n = (_, (p.sweep now pending n).2) := Prod.ext (sweep_eq pending n) rfl
  rw [retireAll, hs]
  split
  · next hr => exact absurd (Prod.mk.inj (Prod.mk.inj hr).1).1 hl
  · next hr =>
      cases hr
      rfl

/-- The first shutdown waits for the scaler, unless there is nothing to wait for. -/
theorem beginShutdown_running {es : List (PoolEvent α)} {p' : Pool α} {a : Action α}
    (ho : Opening env now p a c graceful afterStart es p') (hp : p'.phase = .running) :
    Deed env now p a ((p'.beginShutdown now c graceful afterStart).after es) := by
  simp only [beginShutdown]
  rw [hp]
  simp only
  split
  · next b hw =>
      exact .rushes ho (Option.isSome_iff_exists.mpr ⟨b, hw⟩)
  · next hw => exact .opens ho hw

/-- What a shutdown comes to depends on the phase that it finds. -/
theorem beginShutdown_deed :
    Deed env now p (.shutdown graceful) (p.named.beginShutdown now p.nextCall graceful none) := by
  cases hp : p.phase with
  | created =>
      rw [beginShutdown, show p.named.phase = .created from hp]
      exact .abandoned hp
  | running => exact beginShutdown_running (.asked hp) hp
  | draining =>
      rw [beginShutdown, show p.named.phase = .draining from hp]
      simp only
      split
      · refine .followed (.new (.inl hp)) ?_
        intro h
        cases h
      · exact .follows hp
  | stopped =>
      rw [beginShutdown, show p.named.phase = .stopped from hp]
      exact .followed (.new (.inr hp)) fun _ => hp

/-- A shutdown that waits goes on from the point that it has got to. -/
theorem resumeShutdown_deed {point : ShutdownPoint}
    (hc : p.calls.lookup c = some (.shutdown graceful point afterStart))
    (h : p.resumeShutdown now c graceful afterStart point = some o) :
    Deed env now p (.resume c) o := by
  cases point with
  | awaitingScaler deadline =>
      obtain ⟨b, hw, rfl⟩ := Option.map_eq_some_iff.mp h
      exact .gathers hc (Option.isSome_iff_exists.mpr ⟨b, hw⟩)
  | retiring pending stragglers =>
      simp only [resumeShutdown] at h
      split at h <;> cases h
      exact .sweeps hc
  | awaitingOther deadline =>
      simp only [resumeShutdown] at h
      split at h
      · next hp =>
          cases h
          exact .followed (.waited hc) fun _ => hp
      · split at h <;> cases h
        refine .followed (.waited hc) ?_
        intro h
        cases h

/-! ## Start -/

/-- A start that fails opens a shutdown. -/
theorem beginStart_deed : Deed env now p .start (p.named.beginStart env now p.nextCall) := by
  by_cases hp : p.phase = .created
  · simp only [beginStart, named, hp, ne_eq, not_true_eq_false, if_false]
    split
    · next error o hs =>
        refine beginShutdown_running (.failed hp hs) ?_
        rw [(spawnMany_chain hs).eq_staff]
    · next o hs =>
        split
        · next scaler hw => exact .started hp hs hw
        · next hw => exact .stuck hp hs hw
  · simp only [beginStart, named, ne_eq, hp, not_false_eq_true, if_true]
    exact .restarted hp

/-! ## The opening of a shutdown -/

section Opening

variable {a : Action α} {es : List (PoolEvent α)} {p' : Pool α}
  (ho : Opening env now p a c graceful afterStart es p')

include ho

/-- Whoever opens a shutdown is a new call. -/
theorem Opening.call_eq : c = p.nextCall := by
  cases ho <;> rfl

theorem Opening.calls_eq : p'.calls = p.calls := by
  cases ho with
  | asked hp => rfl
  | failed hp hs => rw [(spawnMany_chain hs).eq_staff]; rfl

/-- A shutdown is opened once: before the pool drains or has stopped. -/
theorem Opening.phase_eq : p.phase = .created ∨ p.phase = .running := by
  cases ho with
  | asked hp => exact .inr hp
  | failed hp hs => exact .inl hp

end Opening

/-! ## Actions -/

/-- The pool after a member has done something. -/
def acted (p : Pool α) (i : MemberId) (w : Poller.Outcome α) : PoolOutcome α where
  events := w.events.map (.poller i)
  pool := { p.modifyMember i fun m => { m with poller := w.poller } with bench := w.bench }

/-- A member acts on the queue of the pool, and only the member and the queue change. -/
theorem memberStep_eq_some {i : MemberId} {a : Poller.Action} :
    p.memberStep now i a = some o ↔ ∃ m w, p.crew[i]? = some m ∧
      m.poller.step p.settings.poller now p.bench a = some w ∧ o = p.acted i w := by
  simp only [memberStep]
  constructor
  · intro h
    split at h
    · cases h
    · next m hm =>
        obtain ⟨w, hs, rfl⟩ := Option.map_eq_some_iff.mp h
        exact ⟨m, w, hm, hs, rfl⟩
  · rintro ⟨m, w, hm, hs, rfl⟩
    rw [hm]
    exact Option.map_eq_some_iff.mpr ⟨w, hs, rfl⟩

theorem step_member {i : MemberId} {m : Member α} {b : Poller.Action} {w : Poller.Outcome α}
    (env : Surroundings α) (hm : p.crew[i]? = some m)
    (hs : m.poller.step p.settings.poller now p.bench b = some w) :
    p.step env now (.member i b) = some (p.acted i w) :=
  memberStep_eq_some.mpr ⟨m, w, hm, hs, rfl⟩

theorem memberStep_deed {i : MemberId} {a : Poller.Action} (h : p.memberStep now i a = some o) :
    Deed env now p (.member i a) o := by
  obtain ⟨m, w, hm, hs, rfl⟩ := memberStep_eq_some.mp h
  exact .member hm hs

/-- Whatever a pool does is one of its deeds. -/
theorem step_deed {a : Action α} (h : p.step env now a = some o) : Deed env now p a o := by
  cases a with
  | start =>
      cases h
      exact beginStart_deed
  | offer item wait =>
      cases h
      exact beginOffer_deed item wait
  | shutdown graceful =>
      cases h
      exact beginShutdown_deed
  | resume call =>
      simp only [step] at h
      split at h
      · cases h
      · next hc => exact resumeOffer_deed hc h
      · next hc => exact resumeShutdown_deed hc h
  | flush =>
      cases h
      exact .flushed
  | member i a => exact memberStep_deed h
  | scaler a => exact .scaler h

end Backpressure.Pool
