import Backpressure.Proofs.Pool.Crew
import Backpressure.Proofs.Pool.Leader
import Backpressure.Proofs.Pool.Promises

/-!
# The course of a shutdown

A shutdown that moves a pool goes through the same stages every time: it waits for the
scaler, it gathers the crew, it waits for the members, and it succeeds if all of them
have stopped in time.

A `Course` is what holds of a pool at each stage: *before* the crew is gathered, *during*
the wait for the members as long as nobody was given up, and *after* a success.
`Course.Lawful` asks for what keeps it from one stage to the next, and `Run.onCourse`
follows it along a run.  All bookkeeping of calls is done here.

*Steering.*  An action steers if it is the leading shutdown that acts.  All others are
aloof from it.
-/

namespace Backpressure.Pool

variable {α : Type}

/-- Whether an action is one of the leading shutdown. -/
def Steers (env : Surroundings α) (now : Instant) (p : Pool α) : Action α → Prop
  | .start => p.phase = .created ∧
      (spawnMany env now p.settings.minWorkers { p.named with phase := .running }).1.isSome
  | .shutdown _ => p.phase = .running
  | .resume c => ∃ e, (c, e) ∈ p.calls ∧ e.leads
  | .offer _ _ | .flush | .member _ _ | .scaler _ => False

/-- What actions that do not steer leave alone. -/
structure Aloof (p q : Pool α) : Prop where
  /-- No call takes the lead. -/
  calls : ∀ w ∈ q.calls, w.2.leads → w ∈ p.calls
  /-- The pool does not begin anew. -/
  phase : q.phase = .created ∨ q.phase = .running → p.phase = .created ∨ p.phase = .running
  /-- A stopped pool stays stopped. -/
  stops : p.phase = .stopped → q.phase = .stopped

variable {env : Surroundings α} {now : Instant} {p q : Pool α} {a : Action α} {o : PoolOutcome α}
  {c : CallId} {graceful : Bool} {afterStart : Option PoolError} {h : History α}
  {e : PoolErrand α} {es : List (PoolEvent α)} {out : List MemberId}

/-! ## Steering -/

theorem Opening.steers {p' : Pool α} (ho : Opening env now p a c graceful afterStart es p') :
    Steers env now p a := by
  cases ho with
  | asked hp => exact hp
  | failed hp hs => exact ⟨hp, by rw [hs]; rfl⟩

theorem Steers.scaledOut (hst : Steers env now p a) : p.scaledOut q a = [] := by
  cases a with
  | scaler b => exact hst.elim
  | start | offer _ _ | shutdown _ | resume _ | flush | member _ _ => rfl

/-- A call that waits and does not lead does not steer. -/
theorem Docket.not_steers (hd : Docket h p) (hc : p.calls.lookup c = some e)
    (he : e.leads = false) : ¬Steers env now p (.resume c) := by
  rintro ⟨e', hmem, hleads⟩
  rw [hd.errand_unique hmem (mem_of_lookup hc), he] at hleads
  cases hleads

/-- A shutdown that waits is as graceful as was asked. -/
theorem Docket.graceful_eq (hd : Docket h p) {point : ShutdownPoint} {r : Request α} {g : Bool}
    (hc : (c, .shutdown graceful point afterStart) ∈ p.calls)
    (hr : r ∈ (h ++ .ofStep p a o).requests) (hcall : r.call = c) (hasked : r.asked = .shutdown g) :
    g = graceful := by
  have hlt := hd.lt_nextCall (List.mem_append_right _ (List.mem_map_of_mem (f := (·.1)) hc))
  obtain ⟨r', hr', hcall', hconcerns⟩ := hd.concerns _ hc
  have heq := hd.request_unique (mem_requests_of_lt hr (hcall ▸ hlt)) hr' (hcall.trans hcall'.symm)
  rw [← heq, hasked] at hconcerns
  obtain ⟨_, he⟩ := hconcerns
  cases he
  rfl

/-- A shutdown that begins is as graceful as is asked. -/
theorem Opening.graceful_eq {p' : Pool α} (ho : Opening env now p a c graceful afterStart es p')
    (hd : Docket h p) {r : Request α} {g : Bool} (hr : r ∈ (h ++ .ofStep p a o).requests)
    (hcall : r.call = c) (hasked : r.asked = .shutdown g) : g = graceful := by
  have ha := (hd.request_new hr (hcall.trans ho.call_eq)).1
  rw [hasked] at ha
  cases ho <;> cases ha
  rfl

theorem not_leads_of_filter {l : List (CallId × PoolErrand α)} {w : CallId × PoolErrand α}
    (hl : l.countP (·.2.leads) = 0) (hw : w ∈ l) (he : w.2.leads) : False :=
  List.countP_eq_zero.mp hl w hw he

theorem leads_of_mem_append {l : List (CallId × PoolErrand α)} {w : CallId × PoolErrand α}
    (hw : w ∈ l.filter (·.1 != c) ++ [(c, e)]) (he : e.leads = false) (hl : w.2.leads) : w ∈ l := by
  cases List.mem_append.mp hw with
  | inl hw => exact List.mem_of_mem_filter hw
  | inr hw =>
      rw [List.mem_singleton.mp hw, he] at hl
      cases hl

/-- What does not steer is aloof. -/
theorem Deed.aloof (hs : Deed env now p a o) (hst : ¬Steers env now p a) : Aloof p o.pool := by
  cases hs with
  | spurned | restarted => exact ⟨fun w hw _ => List.mem_of_mem_filter hw, id, id⟩
  | accepted ho | returned ho =>
      cases ho <;> exact ⟨fun w hw _ => List.mem_of_mem_filter hw, id, id⟩
  | queued | follows => exact ⟨fun w hw => leads_of_mem_append hw rfl, id, id⟩
  | followed hf => cases hf <;> exact ⟨fun w hw _ => List.mem_of_mem_filter hw, id, id⟩
  | abandoned hp => exact ⟨fun w hw _ => List.mem_of_mem_filter hw, fun _ => .inl hp, fun _ => rfl⟩
  | opens ho | rushes ho => exact absurd ho.steers hst
  | gathers hc | sweeps hc => exact absurd ⟨_, mem_of_lookup hc, rfl⟩ hst
  | started hp hs | stuck hp hs =>
      have hcalls := congrArg Pool.calls (spawnMany_chain hs).eq_staff
      refine ⟨fun w hw _ => hcalls ▸ List.mem_of_mem_filter hw, fun _ => .inl hp, fun hstop => ?_⟩
      rw [hp] at hstop
      cases hstop
  | flushed | member => exact ⟨fun w hw _ => hw, id, id⟩
  | scaler hs =>
      have hstaff := (scalerStep_chain hs).eq_staff
      rw [hstaff]
      exact ⟨fun w hw _ => hw, id, id⟩

/-! ## Sealing -/

/-- Who polls and is not active when the queue is sealed is overlooked. -/
theorem mem_overlooked {i : MemberId} (hp : p.bench.queue.isSealed = false)
    (hq : q.bench.queue.isSealed = true) (hi : i ∈ p.bystanders) :
    i ∈ h.overlooked ++ p.overlooked q := by
  rw [overlooked, hp, hq]
  exact List.mem_append_right _ hi

/-- Gathering the crew seals the queue. -/
theorem isSealed_retireCrew : (p.retireCrew now c graceful afterStart).pool.bench.queue.isSealed := by
  have hsealed : (p.sealed graceful).pool.bench.queue.isSealed = true := by
    cases graceful <;> rfl
  rw [retireCrew_eq, PoolOutcome.after]
  by_cases hl : (p.leavers now).filter ((p.sealed graceful).pool.disbanded.waitsFor now) = []
  · rw [retireAll_of_nil hl]
    rfl
  · rw [retireAll_of_ne_nil hl]
    simpa only [Pool.await, bench_sweep, bench_disbanded] using hsealed

/-- A shutdown that begins leaves the queue as it is, and nobody new is a bystander. -/
theorem Opening.bystanders {p' : Pool α} (ho : Opening env now p a c graceful afterStart es p')
    (he : Ends p) : p'.draining.bench.queue.isSealed = p.bench.queue.isSealed ∧
      ∀ i ∈ p'.draining.bystanders, i ∈ p.bystanders := by
  cases ho with
  | asked hp => exact ⟨rfl, fun _ hi => hi⟩
  | @failed error o hp hs =>
      have hchain := spawnMany_chain hs
      have hbench : o.pool.bench = p.bench := by rw [hchain.eq_staff]; rfl
      refine ⟨congrArg (·.queue.isSealed) hbench, fun i hi => ?_⟩
      -- Who was made just now does not poll.
      obtain ⟨-, m, hm, hpolls⟩ := mem_bystanders.mp hi
      have hnone : o.pool.polls = [] := by
        rw [hchain.polls_eq]
        obtain ⟨s, n, rejected, rfl⟩ := he.created hp
        rfl
      exact absurd (List.flatMap_eq_nil_iff.mp hnone m (List.mem_of_getElem? hm)) hpolls

/-- The leader of a draining pool is the only one. -/
theorem Led.countP_filter (hl : Led p) (hd : Docket h p) (hc : p.calls.lookup c = some e)
    (he : e.leads) :
    p.phase = .draining ∧ (p.calls.filter (·.1 != c)).countP (·.2.leads) = 0 := by
  have hmem := mem_of_lookup hc
  have hphase := hl.phase_eq hmem he
  have hcount := hd.countP_filter hmem
  rw [hl, if_pos hphase, if_pos he] at hcount
  exact ⟨hphase, by omega⟩

/-- A shutdown that moved the pool has succeeded before, or succeeds now: then it steers. -/
theorem steers_of_ok (hd : Docket h p) (hm : MoverLeads h p) (hs : p.step env now a = some o)
    {r : Request α} (hr : r ∈ (h ++ .ofStep p a o).requests) (hmoves : r.Moves)
    (hok : (r.call, .ended (.ok ())) ∈ (h ++ .ofStep p a o).answers) :
    (r ∈ h.requests ∧ (r.call, .ended (.ok ())) ∈ h.answers) ∨
      (r.call, .ended (.ok ())) ∈ answersIn o.events ∧ Steers env now p a := by
  rw [History.answers_append, History.answers_ofStep] at hok
  cases List.mem_append.mp hok with
  | inl hold =>
      have hlt := hd.lt_nextCall (List.mem_append_left _ (List.mem_map_of_mem (f := (·.1)) hold))
      exact .inl ⟨mem_requests_of_lt hr hlt, hold⟩
  | inr hnew =>
      refine .inr ⟨hnew, ?_⟩
      cases (step_deed hs).filing with
      | quiet hr' hn hc he | kept e hr' hn hc he hk | carried hl hn hc he hk =>
          rw [he] at hnew
          cases hnew
      | answered x hr' hn hc he hx =>
          rw [he, List.mem_singleton] at hnew
          obtain ⟨hasked, hfound⟩ := hd.request_new hr (congrArg Prod.fst hnew)
          rw [Request.Moves, hasked, hfound] at hmoves
          obtain ⟨hp, graceful, rfl⟩ := hmoves
          exact hp
      | @settled c e _ x hl hn hc he hx =>
          rw [he, List.mem_singleton] at hnew
          have hcall : r.call = c := congrArg Prod.fst hnew
          have hmem := mem_of_lookup hl
          have hlt := hd.lt_nextCall (List.mem_append_right _ (List.mem_map_of_mem (f := (·.1)) hmem))
          have hreq := mem_requests_of_lt hr (hcall ▸ hlt)
          exact ⟨e, hmem, hm r hreq hmoves e (hcall ▸ hmem)⟩

/-! ## Courses -/

/-- What holds of a pool at each stage of a shutdown.  The members that the scaler took out
are given, those that were overlooked, and whether the shutdown is graceful. -/
structure Course (α : Type) where
  /-- Before the crew is gathered. -/
  before : List MemberId → Pool α → Prop
  /-- While some members are waited for, and nobody was given up. -/
  during : List MemberId → List MemberId → Pool α → Bool → List (MemberId × Instant) → Prop
  /-- When a shutdown that moved the pool has succeeded. -/
  after : List MemberId → List MemberId → Pool α → Bool → Prop

namespace Course

/-- A pool is where it should be. -/
structure Holds (C : Course α) (h : History α) (p : Pool α) : Prop where
  /-- Before a shutdown. -/
  begun : p.phase = .created ∨ p.phase = .running → C.before h.scaledOut p
  /-- While a shutdown waits for the scaler. -/
  awaiting {c : CallId} {graceful : Bool} {deadline : Instant} {afterStart : Option PoolError} :
    (c, .shutdown graceful (.awaitingScaler deadline) afterStart) ∈ p.calls →
      C.before h.scaledOut p
  /-- While a shutdown waits for members and has given up nobody. -/
  retiring {c : CallId} {graceful : Bool} {pending : List (MemberId × Instant)}
    {afterStart : Option PoolError} :
    (c, .shutdown graceful (.retiring pending 0) afterStart) ∈ p.calls →
      C.during h.scaledOut h.overlooked p graceful pending
  /-- When the shutdown that moved the pool has succeeded. -/
  succeeded {r : Request α} {graceful : Bool} : r ∈ h.requests → r.found = .running →
    r.asked = .shutdown graceful → (r.call, .ended (.ok ())) ∈ h.answers →
      p.phase = .stopped ∧ C.after h.scaledOut h.overlooked p graceful

/-- What keeps a pool on its course, in runs of a pool of given settings. -/
structure Lawful (C : Course α) (R : Regime α) (s : PoolSettings) : Prop where
  /-- At first. -/
  first : C.before [] (ofSettings s)
  /-- With an action that does not steer. -/
  aloof {h : History α} {t₀ t : Instant} {p : Pool α} {env : Surroundings α} {a : Action α}
    {o : PoolOutcome α} (run : Run R t₀ (ofSettings s) h t p) (ha : R.allows p env a)
    (hs : Deed env t p a o) (hst : ¬Steers env t p a) :
    (o.pool.phase ≠ .stopped → C.before h.scaledOut p →
      C.before (h ++ .ofStep p a o).scaledOut o.pool) ∧
    (∀ graceful pending, C.during h.scaledOut h.overlooked p graceful pending →
      C.during (h ++ .ofStep p a o).scaledOut h.overlooked o.pool graceful pending) ∧
    ∀ graceful, C.after h.scaledOut h.overlooked p graceful →
      C.after (h ++ .ofStep p a o).scaledOut h.overlooked o.pool graceful
  /-- When a shutdown begins. -/
  opening {out : List MemberId} {p p' : Pool α} {env : Surroundings α} {t : Instant} {a : Action α}
    {c : CallId} {graceful : Bool} {afterStart : Option PoolError} {es : List (PoolEvent α)}
    (ha : R.allows p env a) (ho : Opening env t p a c graceful afterStart es p') :
    C.before out p → C.before out p'.draining
  /-- When a shutdown begins to wait for the scaler. -/
  await {out : List MemberId} {p : Pool α} {t : Instant} {c : CallId} {graceful : Bool}
    {afterStart : Option PoolError} (hp : p.phase = .draining) :
    C.before out p → C.before out (Pool.await { pool := p } c
      (.shutdown graceful (.awaitingScaler (p.patience t)) afterStart)).pool
  /-- When the crew is gathered and nobody is given up at once. -/
  gather {out missed : List MemberId} {p : Pool α} {t : Instant} {graceful : Bool}
    (hp : p.phase = .draining) (hsound : ∀ m ∈ p.crew, m.poller.worker.Sound)
    (hn : (p.leavers t).countP ((p.sealed graceful).pool.disbanded.isStraggler t) = 0)
    (hmissed : p.bench.queue.isSealed = false → ∀ i ∈ p.bystanders, i ∈ missed) :
    C.before out p → C.during out missed (p.sealed graceful).pool.disbanded graceful (p.leavers t)
  /-- When nobody is given up in a sweep. -/
  sweep {out missed : List MemberId} {p : Pool α} {t : Instant} {graceful : Bool}
    {pending : List (MemberId × Instant)} (hsound : ∀ m ∈ p.crew, m.poller.worker.Sound)
    (hn : pending.countP (p.isStraggler t) = 0) :
    C.during out missed p graceful pending →
      C.during out missed (p.sweep t pending 0).2.pool graceful (pending.filter (p.waitsFor t))
  /-- When more members are overlooked. -/
  widen {out missed : List MemberId} (k : List MemberId) {p : Pool α} {graceful : Bool} :
    (∀ pending, C.during out missed p graceful pending →
      C.during out (missed ++ k) p graceful pending) ∧
    (C.after out missed p graceful → C.after out (missed ++ k) p graceful)
  /-- When a call begins to wait for members. -/
  calls {out missed : List MemberId} {p : Pool α} {graceful : Bool}
    {pending : List (MemberId × Instant)} (calls : List (CallId × PoolErrand α)) :
    C.during out missed p graceful pending → C.during out missed { p with calls } graceful pending
  /-- When nobody is waited for any more. -/
  close {out missed : List MemberId} {p : Pool α} {graceful : Bool}
    (calls : List (CallId × PoolErrand α)) (hp : Promised p) :
    C.during out missed p graceful [] → C.after out missed { p.closed.pool with calls } graceful

variable {C : Course α} {R : Regime α} {s : PoolSettings}

/-! ## Keeping to the course -/

theorem Holds.aloof (hC : C.Lawful R s) {t₀ : Instant} (run : Run R t₀ (ofSettings s) h now p)
    (hc : C.Holds h p) (ha : R.allows p env a) (hs : p.step env now a = some o)
    (hst : ¬Steers env now p a) : C.Holds (h ++ .ofStep p a o) o.pool := by
  have haloof := (step_deed hs).aloof hst
  obtain ⟨hbefore, hduring, hafter⟩ := hC.aloof run ha (step_deed hs) hst
  have hled := (run.act ha hs).led
  refine ⟨fun hp => ?_, fun hmem => ?_, fun hmem => ?_, fun hr hfound hasked hx => ?_⟩
  · refine hbefore (fun hstop => ?_) (hc.begun (haloof.phase hp))
    rcases hp with hp | hp <;> simp [hp] at hstop
  · exact hbefore (by simp [hled.phase_eq hmem rfl]) (hc.awaiting (haloof.calls _ hmem rfl))
  · exact (hC.widen _).1 _ (hduring _ _ (hc.retiring (haloof.calls _ hmem rfl)))
  · rcases steers_of_ok run.docket run.moverLeads hs hr ⟨hfound, _, hasked⟩ hx with
      ⟨hr, hx⟩ | ⟨-, hsteers⟩
    · obtain ⟨hp, hok⟩ := hc.succeeded hr hfound hasked hx
      exact ⟨haloof.stops hp, (hC.widen _).2 (hafter _ hok)⟩
    · exact absurd hsteers hst

theorem eq_zero_of_ok {n : Nat}
    (h : (match afterStart with
      | some error => .error error
      | none => verdict n : Except PoolError Unit) = .ok ()) : n = 0 := by
  cases afterStart with
  | some error => cases h
  | none =>
      simp only [verdict] at h
      split at h
      · assumption
      · cases h

/-- What has succeeded is the shutdown that is about to end. -/
structure Ending (h : History α) (c : CallId) (graceful : Bool) (es : List (PoolEvent α)) : Prop where
  /-- It succeeds now. -/
  now {r : Request α} : r ∈ h.requests → r.Moves → (r.call, .ended (.ok ())) ∈ h.answers →
    (r.call, .ended (.ok ())) ∈ answersIn es
  /-- It is as graceful as was asked. -/
  asked {r : Request α} {g : Bool} : r ∈ h.requests → r.call = c → r.asked = .shutdown g →
    g = graceful

/-- A sweep after which nobody is waited for keeps to the course. -/
theorem Lawful.closes (hC : C.Lawful R s) {pending : List (MemberId × Instant)} {n : Nat}
    (hl : pending.filter (p.waitsFor now) = [])
    (hcalls : (p.calls.filter (·.1 != c)).countP (·.2.leads) = 0) (hpromised : Promised p)
    (hswept : n + pending.countP (p.isStraggler now) = 0 →
      C.during h.scaledOut h.overlooked (p.sweep now pending n).2.pool graceful
        (pending.filter (p.waitsFor now)))
    (he : Ending h c graceful (p.retireAll now c graceful afterStart pending n).events) :
    C.Holds h (p.retireAll now c graceful afterStart pending n).pool := by
  have hchain := (sweep_chain now pending n p).staffing
  rw [retireAll_of_nil hl] at he ⊢
  rw [hl] at hswept
  have hnone : ∀ w ∈ (p.sweep now pending n).2.pool.closed.pool.calls.filter (·.1 != c),
      w.2.leads → False := by
    intro w hw
    rw [closed, discardAll, calls_sweep] at hw
    exact not_leads_of_filter hcalls hw
  refine ⟨?_, fun hmem => (hnone _ hmem rfl).elim, fun hmem => (hnone _ hmem rfl).elim, ?_⟩
  · rintro (hphase | hphase) <;> cases hphase
  · intro r g hr hfound hasked hx
    have hnow := he.now hr ⟨hfound, g, hasked⟩ hx
    simp only [endShutdown, answer, PoolOutcome.after, closed, discardAll, answersIn_append,
      hchain.answersIn_eq, answersIn_discarded, answersIn_answered, List.nil_append,
      List.mem_singleton, Prod.mk.injEq, PoolAnswer.ended.injEq] at hnow
    rw [he.asked hr hnow.1 hasked]
    exact ⟨rfl, hC.close _ (hpromised.chain hchain) (hswept (eq_zero_of_ok hnow.2.symm))⟩

/-- A sweep after which somebody is still waited for keeps to the course. -/
theorem Lawful.lingers (hC : C.Lawful R s) {pending : List (MemberId × Instant)} {n : Nat}
    (hl : pending.filter (p.waitsFor now) ≠ []) (hp : p.phase = .draining)
    (hcalls : (p.calls.filter (·.1 != c)).countP (·.2.leads) = 0)
    (hswept : n + pending.countP (p.isStraggler now) = 0 →
      C.during h.scaledOut h.overlooked (p.sweep now pending n).2.pool graceful
        (pending.filter (p.waitsFor now)))
    (he : Ending h c graceful (p.retireAll now c graceful afterStart pending n).events) :
    C.Holds h (p.retireAll now c graceful afterStart pending n).pool := by
  rw [retireAll_of_ne_nil hl] at he ⊢
  -- The call that waits is the only one that leads.
  have hmem : ∀ w ∈ (Pool.await (p.sweep now pending n).2 c (.shutdown graceful
      (.retiring (pending.filter (p.waitsFor now)) (n + pending.countP (p.isStraggler now)))
      afterStart)).pool.calls, w.2.leads → w = (c, .shutdown graceful
      (.retiring (pending.filter (p.waitsFor now)) (n + pending.countP (p.isStraggler now)))
      afterStart) := by
    intro w hw he
    rw [Pool.await, calls_sweep] at hw
    cases List.mem_append.mp hw with
    | inl hw => exact (not_leads_of_filter hcalls hw he).elim
    | inr hw => exact List.mem_singleton.mp hw
  refine ⟨?_, ?_, ?_, ?_⟩
  · simp [Pool.await, hp]
  · intro c' graceful' deadline afterStart' hw
    cases hmem _ hw rfl
  · intro c' graceful' pending' afterStart' hw
    have he := hmem _ hw rfl
    simp only [Prod.mk.injEq, PoolErrand.shutdown.injEq, ShutdownPoint.retiring.injEq] at he
    obtain ⟨-, rfl, ⟨rfl, hn⟩, -⟩ := he
    exact hC.calls _ (hswept hn.symm)
  · intro r g hr hfound hasked hx
    have hnow := he.now hr ⟨hfound, g, hasked⟩ hx
    rw [Pool.await, (sweep_chain now pending n p).staffing.answersIn_eq] at hnow
    cases hnow

/-- A sweep of the members keeps to the course. -/
theorem Lawful.retireAll (hC : C.Lawful R s) {pending : List (MemberId × Instant)} {n : Nat}
    (hp : p.phase = .draining) (hcalls : (p.calls.filter (·.1 != c)).countP (·.2.leads) = 0)
    (hsound : ∀ m ∈ p.crew, m.poller.worker.Sound) (hpromised : Promised p)
    (hduring : n = 0 → pending.countP (p.isStraggler now) = 0 →
      C.during h.scaledOut h.overlooked p graceful pending)
    (he : Ending h c graceful (p.retireAll now c graceful afterStart pending n).events) :
    C.Holds h (p.retireAll now c graceful afterStart pending n).pool := by
  have hswept : n + pending.countP (p.isStraggler now) = 0 →
      C.during h.scaledOut h.overlooked (p.sweep now pending n).2.pool graceful
        (pending.filter (p.waitsFor now)) := by
    intro hn
    obtain ⟨rfl, -⟩ := Nat.eq_zero_of_add_eq_zero hn
    rw [Nat.zero_add] at hn
    exact hC.sweep hsound hn (hduring rfl hn)
  by_cases hl : pending.filter (p.waitsFor now) = []
  · exact hC.closes hl hcalls hpromised hswept he
  · exact hC.lingers hl hp hcalls hswept he

/-- Gathering the crew keeps to the course. -/
theorem Lawful.retireCrew (hC : C.Lawful R s)
    (hp : p.phase = .draining) (hcalls : (p.calls.filter (·.1 != c)).countP (·.2.leads) = 0)
    (hsound : ∀ m ∈ p.crew, m.poller.worker.Sound) (hpromised : Promised p)
    (hmissed : p.bench.queue.isSealed = false → ∀ i ∈ p.bystanders, i ∈ h.overlooked)
    (hbefore : C.before h.scaledOut p)
    (he : Ending h c graceful (p.retireCrew now c graceful afterStart).events) :
    C.Holds h (p.retireCrew now c graceful afterStart).pool := by
  have hgrows : Grows p (p.sealed graceful).pool.disbanded :=
    Grows.trans (q := (p.sealed graceful).pool) (.of_crew_eq (by simp)) disbanded_grows
  rw [retireCrew_eq] at he ⊢
  refine hC.retireAll (by simpa using hp) (by simpa using hcalls) (hgrows.sound hsound)
    hpromised.sealed.disbanded ?_ ⟨?_, he.asked⟩
  · intro _ hn
    exact hC.gather hp hsound hn hmissed hbefore
  · intro r hr hmoves hx
    simpa [PoolOutcome.after, sealed_aside.answers] using he.now hr hmoves hx

/-- Before the stop, a shutdown that moved the pool can only succeed now. -/
theorem Holds.succeeds_now (hc : C.Holds h p) (hd : Docket h p) (hm : MoverLeads h p)
    (hs : p.step env now a = some o) (hp : p.phase ≠ .stopped) {r : Request α}
    (hr : r ∈ (h ++ .ofStep p a o).requests) (hmoves : r.Moves)
    (hx : (r.call, .ended (.ok ())) ∈ (h ++ .ofStep p a o).answers) :
    (r.call, .ended (.ok ())) ∈ answersIn o.events := by
  rcases steers_of_ok hd hm hs hr hmoves hx with ⟨hr', hx'⟩ | ⟨hx', -⟩
  · obtain ⟨hfound, g, hasked⟩ := hmoves
    exact absurd (hc.succeeded hr' hfound hasked hx').1 hp
  · exact hx'

/-- The beginning of a shutdown keeps to the course. -/
theorem Holds.opens (hC : C.Lawful R s) {t₀ : Instant} (run : Run R t₀ (ofSettings s) h now p)
    (hc : C.Holds h p) (ha : R.allows p env a) {p' : Pool α}
    (ho : Opening env now p a c graceful afterStart es p')
    (ho' : o = (Pool.await { pool := p'.draining } c
      (.shutdown graceful (.awaitingScaler (p'.patience now)) afterStart)).after es)
    (hs : p.step env now a = some o) : C.Holds (h ++ .ofStep p a o) o.pool := by
  have hbegun := ho.phase_eq
  have hout : (h ++ .ofStep p a o).scaledOut = h.scaledOut := by simp [ho.steers.scaledOut]
  refine ⟨fun hp => ?_, fun _ => ?_, fun hmem => ?_, fun hr hfound hasked hx => ?_⟩
  · rw [ho'] at hp
    rcases hp with hp | hp <;> cases hp
  · rw [hout, ho']
    exact hC.await rfl (hC.opening ha ho (hc.begun hbegun))
  · rw [ho'] at hmem
    cases List.mem_append.mp hmem with
    | inl hw =>
        have hold := List.mem_of_mem_filter hw
        rw [draining, ho.calls_eq] at hold
        have hcount := run.led.countP_eq (by rcases hbegun with hp | hp <;> simp [hp])
        exact (not_leads_of_filter hcount hold rfl).elim
    | inr hw => cases List.mem_singleton.mp hw
  · have hnow := hc.succeeds_now run.docket run.moverLeads hs
      (by rcases hbegun with hp | hp <;> simp [hp]) hr ⟨hfound, _, hasked⟩ hx
    rw [ho', PoolOutcome.after, Pool.await, answersIn_append, ho.answersIn_eq] at hnow
    cases hnow

/-- A step of a leading shutdown keeps to the course. -/
theorem Holds.steered (hC : C.Lawful R s) {t₀ : Instant} (run : Run R t₀ (ofSettings s) h now p)
    (hc : C.Holds h p) (ha : R.allows p env a) (hs : p.step env now a = some o)
    (hst : Steers env now p a) : C.Holds (h ++ .ofStep p a o) o.pool := by
  have hd := run.docket
  have hout : (h ++ .ofStep p a o).scaledOut = h.scaledOut := by simp [hst.scaledOut]
  have hnow := fun hp {r} => hc.succeeds_now hd run.moverLeads hs hp (r := r)
  cases step_deed hs with
  | spurned | queued | flushed | member | scaler => exact hst.elim
  | accepted ho | returned ho =>
      cases ho with
      | new hp => exact hst.elim
      | waited hc => exact absurd hst (hd.not_steers hc rfl)
  | followed hf =>
      cases hf with
      | new hp =>
          rw [Steers] at hst
          rcases hp with hp | hp <;> simp [hp] at hst
      | waited hc => exact absurd hst (hd.not_steers hc rfl)
  | follows hp | abandoned hp =>
      rw [Steers, hp] at hst
      cases hst
  | restarted hp => exact absurd hst.1 hp
  | started hp hs' | stuck hp hs' =>
      have hsome := hst.2
      rw [hs'] at hsome
      cases hsome
  | opens ho hw => exact hc.opens hC run ha ho rfl hs
  | rushes ho hw =>
      have hbegun := ho.phase_eq
      have hcount := run.led.countP_eq (by rcases hbegun with hp | hp <;> simp [hp])
      refine hC.retireCrew rfl ?_ (ho.grows.sound run.sound) (run.promised.opening ho) ?_ ?_
        ⟨fun hr hmoves hx => ?_, ho.graceful_eq hd⟩
      · rw [ho.call_eq, draining, ho.calls_eq, filter_fresh hd, hcount]
      · intro hopen i hi
        obtain ⟨hsealed, hpolls⟩ := ho.bystanders run.ends
        refine mem_overlooked (hsealed ▸ hopen) ?_ (hpolls i hi)
        exact isSealed_retireCrew
      · rw [hout]
        exact hC.opening ha ho (hc.begun hbegun)
      · simpa [PoolOutcome.after, ho.answersIn_eq] using
          hnow (by rcases hbegun with hp | hp <;> simp [hp]) hr hmoves hx
  | gathers hl hw =>
      have hmem := mem_of_lookup hl
      obtain ⟨hphase, hcount⟩ := run.led.countP_filter hd hl rfl
      refine hC.retireCrew hphase hcount run.sound run.promised
        (fun hopen i hi => mem_overlooked hopen isSealed_retireCrew hi) ?_ ⟨hnow (by simp [hphase]),
        hd.graceful_eq hmem⟩
      rw [hout]
      exact hc.awaiting hmem
  | sweeps hl =>
      have hmem := mem_of_lookup hl
      obtain ⟨hphase, hcount⟩ := run.led.countP_filter hd hl rfl
      refine hC.retireAll hphase hcount run.sound run.promised ?_
        ⟨hnow (by simp [hphase]), hd.graceful_eq hmem⟩
      rintro rfl -
      rw [hout]
      exact (hC.widen _).1 _ (hc.retiring hmem)

/-- A step keeps to the course. -/
theorem Holds.keep (hC : C.Lawful R s) {t₀ : Instant} (run : Run R t₀ (ofSettings s) h now p)
    (hc : C.Holds h p) (ha : R.allows p env a) (hs : p.step env now a = some o) :
    C.Holds (h ++ .ofStep p a o) o.pool := by
  by_cases hst : Steers env now p a
  · exact hc.steered hC run ha hs hst
  · exact hc.aloof hC run ha hs hst

end Course

/-- A run of a new pool keeps to every course that is lawful. -/
theorem Run.onCourse {C : Course α} {R : Regime α} {s : PoolSettings} (hC : C.Lawful R s)
    {t₀ t : Instant} (run : Run R t₀ (ofSettings s) h t p) : C.Holds h p := by
  induction run with
  | here => exact ⟨fun _ => hC.first, nofun, nofun, (by intro i j h; cases h)⟩
  | act run ha hs ih => exact ih.keep hC run ha hs
  | pass _ _ ih => exact ih

end Backpressure.Pool
