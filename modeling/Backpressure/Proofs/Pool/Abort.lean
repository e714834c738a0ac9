import Backpressure.Proofs.Pool.Concurrency
import Backpressure.Proofs.Pool.Finality
import Backpressure.Proofs.Pool.Settling

/-!
# A start that fails

When the factory has no handler for one of the first workers, the start shuts the pool down before
its scaler was started.  The members that were made by then are retired side by side, and the start
is answered with the error of the factory when nobody is waited for any more.

*Halted.*  From the failed start on nobody is active, the scaler cannot move, and the queue is
closed.  Every action keeps that, so no member is ever made again, and no item was ever accepted
that a member could handle.

*Undoing.*  The start waits for its members, all of them up to the same moment, and no other call
can speed it up or hold it back.  When it is answered the pool has stopped, and then all of its
members have been dismissed.
-/

namespace Backpressure.Pool

open Duration (ofMillis)

variable {α : Type}

/-- The factory has a handler for the first workers of a start, but none for number `j`. -/
structure FailsAt (env : Surroundings α) (s : PoolSettings) (j : Nat) (reason : String) : Prop where
  short : j < s.minWorkers
  made {i : Nat} (hi : i < j) : env.refusal (s.workerName i) = none
  refused : env.refusal (s.workerName j) = some reason

/-- Nobody works for the pool, nobody will, and nothing gets into its queue. -/
structure Halted (p : Pool α) : Prop where
  phase : p.phase = .draining ∨ p.phase = .stopped
  active : p.active = []
  scaler : p.scaler.place = .unstarted
  /-- Polls have ended. -/
  closed : p.bench.queue.isClosed = true
  /-- Offers have ended. -/
  sealed : p.bench.queue.slots.closed = true
  offered : p.offered = 0

/-- The call of a start that failed waits for members, all of them up to the same moment. -/
def Undoes (c : CallId) (error : PoolError) (d : Instant) (p : Pool α) : Prop :=
  ∃ pending n, (c, .shutdown false (.retiring pending n) (some error)) ∈ p.calls ∧ pending ≠ [] ∧
    ∀ w ∈ pending, w.2 = d

/-- A start failed with an error, and waits for members or has been answered. -/
structure Aborted (c : CallId) (error : PoolError) (d : Instant) (p : Pool α) : Prop where
  halted : Halted p
  known : c < p.nextCall
  course : Undoes c error d p ∨ p.phase = .stopped ∧ c ∉ p.calls.map (·.1)

/-- Whoever makes a call now is answered at once. -/
def AnswersAtOnce (p : Pool α) (a : Action α) (x : PoolAnswer) : Prop :=
  ∀ env now, ∃ o, p.step env now a = some o ∧ o.events = [.answered p.nextCall x]

/-- Nothing is left of a start that made some members and failed. -/
structure Undone (made : List String) (h : History α) (p : Pool α) : Prop where
  phase : p.phase = .stopped
  active : p.active = []
  alive : p.isAlive = false
  /-- The queue is empty. -/
  items : p.bench.queue.items = []
  closed : p.bench.queue.isClosed = true ∧ p.bench.queue.slots.closed = true
  /-- The factory let go of every member once. -/
  destroyed : (destroyedIn h.events).Perm made
  shutdowns (graceful : Bool) : p.AnswersAtOnce (.shutdown graceful) (.ended (.ok ()))

/-- What holds ever after, when the start `c` of a pool failed at its worker `j`. -/
structure FailedStart (s : PoolSettings) (j : Nat) (reason : String) (c : CallId) (h : History α)
    (p : Pool α) : Prop where
  /-- The pool made the members before the one that failed, and makes no other. -/
  created : createdIn h.events = (List.range j).map s.workerName
  /-- The factory never lets go of the one that failed. -/
  spared : s.workerName j ∉ destroyedIn h.events
  /-- No handler ever runs. -/
  idle : h.handed = []
  offers (item : α) (wait : Duration) : p.AnswersAtOnce (.offer item wait) (.offered false)
  starts : p.AnswersAtOnce .start (.ended (.error (.alreadyStarted s.name)))
  /-- The start is answered with the error of the factory, and nothing is left of it then. -/
  answered {x : PoolAnswer} (hx : (c, x) ∈ h.answers) :
    x = .ended (.error (.factory reason)) ∧ Undone ((List.range j).map s.workerName) h p

variable {env : Surroundings α} {now t u t₀ d : Instant} {p q p₀ : Pool α} {a : Action α}
  {o : PoolOutcome α} {c : CallId} {graceful : Bool} {afterStart : Option PoolError}
  {error : PoolError} {h k : History α} {es : List (PoolEvent α)} {R : Regime α} {s : PoolSettings}
  {j n : Nat} {reason : String}

/-! ## Halted pools -/

namespace Halted

theorem of_eq (hp : Halted p) (hphase : q.phase = p.phase) (hactive : q.active = p.active)
    (hscaler : q.scaler = p.scaler) (hclosed : q.bench.queue.isClosed = p.bench.queue.isClosed)
    (hsealed : q.bench.queue.slots.closed = p.bench.queue.slots.closed)
    (hoffered : q.offered = p.offered) : Halted q where
  phase := hphase ▸ hp.phase
  active := hactive.trans hp.active
  scaler := hscaler ▸ hp.scaler
  closed := hclosed.trans hp.closed
  sealed := hsealed.trans hp.sealed
  offered := hoffered.trans hp.offered

theorem phase_ne_created (hp : Halted p) : p.phase ≠ .created := by
  rcases hp.phase with h | h <;> simp [h]

theorem phase_ne_running (hp : Halted p) : p.phase ≠ .running := by
  rcases hp.phase with h | h <;> simp [h]

theorem retireAll (hp : Halted p) (pending : List (MemberId × Instant)) (n : Nat) :
    Halted (p.retireAll now c graceful afterStart pending n).pool := by
  have hoffered : (p.sweep now pending n).2.pool.offered = p.offered := by
    rw [(sweep_chain now pending n p).eq_crew]
  have hswept : Halted (p.sweep now pending n).2.pool :=
    hp.of_eq (by simp) (by simp) (by simp) (by simp) (by simp) hoffered
  by_cases hl : pending.filter (p.waitsFor now) = []
  · rw [retireAll_of_nil hl]
    exact ⟨.inr rfl, hswept.active, hswept.scaler, rfl, rfl, hswept.offered⟩
  · rw [retireAll_of_ne_nil hl]
    exact hswept.of_eq rfl rfl rfl rfl rfl rfl

/-- A pool whose scaler was never started is halted when its crew is gathered. -/
theorem gathered (hphase : p.phase = .draining ∨ p.phase = .stopped)
    (hscaler : p.scaler.place = .unstarted) (hoffered : p.offered = 0)
    (hclosed : graceful = false ∨ p.bench.queue.isClosed = true) :
    Halted (p.retireCrew now c graceful afterStart).pool := by
  have hsealed : Halted { (p.sealed graceful).pool with active := [] } := by
    cases graceful with
    | false => exact ⟨hphase, rfl, hscaler, rfl, rfl, hoffered⟩
    | true => exact ⟨hphase, rfl, hscaler, hclosed.resolve_left Bool.noConfusion, rfl, hoffered⟩
  have hdisbanded : Halted (p.sealed graceful).pool.disbanded := by
    rw [disbanded_chain.eq_crew]
    exact hsealed.of_eq rfl rfl rfl rfl rfl rfl
  rw [retireCrew_eq]
  exact hdisbanded.retireAll _ _

/-- Every action leaves a halted pool halted, and nobody joins. -/
theorem keep (hp : Halted p) (hs : Deed env now p a o) :
    Halted o.pool ∧ o.pool.crew.length = p.crew.length := by
  have hcreated := hp.phase_ne_created
  have hrunning := hp.phase_ne_running
  cases hs with
  | spurned | follows | restarted => exact ⟨hp.of_eq rfl rfl rfl rfl rfl rfl, rfl⟩
  | accepted ho hopen => exact absurd hp.sealed (Bool.eq_false_iff.mp hopen)
  | returned ho hsame => cases ho <;> exact ⟨hp.of_eq rfl rfl rfl rfl hsame rfl, rfl⟩
  | followed hf => cases hf <;> exact ⟨hp.of_eq rfl rfl rfl rfl rfl rfl, rfl⟩
  | queued hrun => exact absurd hrun hrunning
  | abandoned hnew | started hnew | stuck hnew => exact absurd hnew hcreated
  | opens ho | rushes ho => exact (ho.phase_eq.elim hcreated hrunning).elim
  | gathers =>
      exact ⟨gathered hp.phase hp.scaler hp.offered (.inr hp.closed), length_crew_retireCrew⟩
  | sweeps => exact ⟨hp.retireAll _ _, length_crew_retireAll _ _⟩
  | flushed => exact ⟨hp.of_eq rfl rfl rfl rfl rfl rfl, List.length_map _⟩
  | member hm hs' =>
      have hdeed := Poller.step_deed hs'
      exact ⟨hp.of_eq rfl rfl rfl hdeed.draws.closed_eq hdeed.isSealed_eq rfl,
        List.length_modify _ _ _⟩
  | scaler hs' =>
      rw [scalerStep_of_unstarted hp.scaler] at hs'
      cases hs'

/-- Who offers an item to a halted pool gets it back at once. -/
theorem offers (hp : Halted p) (item : α) (wait : Duration) :
    p.AnswersAtOnce (.offer item wait) (.offered false) := by
  intro env now
  refine ⟨_, rfl, ?_⟩
  have hrunning : p.named.phase ≠ .running := hp.phase_ne_running
  simp only [beginOffer, if_pos hrunning]
  rfl

theorem starts (hp : Halted p) :
    p.AnswersAtOnce .start (.ended (.error (.alreadyStarted p.settings.name))) := by
  intro env now
  refine ⟨_, rfl, ?_⟩
  have hcreated : p.named.phase ≠ .created := hp.phase_ne_created
  simp only [beginStart, if_pos hcreated]
  rfl

end Halted

theorem shutdowns_of_stopped (hp : p.phase = .stopped) (graceful : Bool) :
    p.AnswersAtOnce (.shutdown graceful) (.ended (.ok ())) := by
  intro env now
  refine ⟨_, rfl, ?_⟩
  have hstopped : p.named.phase = .stopped := hp
  simp only [beginShutdown, hstopped]
  rfl

/-! ## The call of the start -/

/-- A call that waits is left alone until it goes on itself. -/
theorem Filing.elsewhere (hf : Filing p a o) (hc : c < p.nextCall) (ha : a ≠ .resume c) :
    (∀ e, (c, e) ∈ o.pool.calls ↔ (c, e) ∈ p.calls) ∧ ∀ x, (c, x) ∉ answersIn o.events := by
  have hstruck {b : CallId} (hb : c ≠ b) (e : PoolErrand α) :
      (c, e) ∈ p.calls.filter (·.1 != b) ↔ (c, e) ∈ p.calls := by simp [List.mem_filter, hb]
  have hentered {b : CallId} (hb : c ≠ b) (e f : PoolErrand α) :
      (c, e) ∈ p.calls.filter (·.1 != b) ++ [(b, f)] ↔ (c, e) ∈ p.calls := by
    simp [List.mem_filter, hb]
  have hnew : c ≠ p.nextCall := Nat.ne_of_lt hc
  cases hf with
  | quiet hr hn hcalls he => exact ⟨fun e => by rw [hcalls], by simp [he]⟩
  | answered x hr hn hcalls he hx =>
      exact ⟨fun e => by rw [hcalls, hstruck hnew], by simp [he, hnew]⟩
  | kept e hr hn hcalls he hk => exact ⟨fun f => by rw [hcalls, hentered hnew], by simp [he]⟩
  | @settled b e o x hl hn hcalls he hx =>
      have hb : c ≠ b := fun h => ha (congrArg _ h.symm)
      exact ⟨fun f => by rw [hcalls, hstruck hb], by simp [he, hb]⟩
  | @carried b e e' o hl hn hcalls he hk =>
      have hb : c ≠ b := fun h => ha (congrArg _ h.symm)
      exact ⟨fun f => by rw [hcalls, hentered hb], by simp [he]⟩

theorem Filing.nextCall_le (hf : Filing p a o) : p.nextCall ≤ o.pool.nextCall := by
  cases hf with
  | quiet _ hn | settled _ _ hn | carried _ hn => exact Nat.le_of_eq hn.symm
  | answered _ _ hn | kept _ _ hn => exact hn ▸ Nat.le_succ _

/-- How the start comes out when it has looked at the members that it waits for. -/
inductive Undoing (c : CallId) (error : PoolError) (d now : Instant) (o : PoolOutcome α) :
    Prop where
  | waits (hw : Undoes c error d o.pool) (hd : now < d) (he : answersIn o.events = [])
  | answers (hp : o.pool.phase = .stopped) (hc : c ∉ o.pool.calls.map (·.1))
      (he : answersIn o.events = [(c, .ended (.error error))])

theorem Undoing.course (ho : Undoing c error d now o) :
    Undoes c error d o.pool ∨ o.pool.phase = .stopped ∧ c ∉ o.pool.calls.map (·.1) := by
  cases ho with
  | waits hw => exact .inl hw
  | answers hp hc => exact .inr ⟨hp, hc⟩

theorem Undoing.answer_eq (ho : Undoing c error d now o) {x : PoolAnswer}
    (hx : (c, x) ∈ answersIn o.events) : x = .ended (.error error) := by
  cases ho with
  | waits hw hd he => simp [he] at hx
  | answers hp hc he => simpa [he] using hx

theorem Undoing.after (ho : Undoing c error d now o) (hes : answersIn es = []) :
    Undoing c error d now (o.after es) := by
  have hsame : answersIn (es ++ o.events) = answersIn o.events := by simp [hes]
  cases ho with
  | waits hw hd he => exact .waits hw hd (hsame.trans he)
  | answers hp hc he => exact .answers hp hc (hsame.trans he)

theorem retireAll_undoing {pending : List (MemberId × Instant)} (hd : ∀ w ∈ pending, w.2 = d) :
    Undoing c error d now (p.retireAll now c false (some error) pending n) := by
  have hquiet := (sweep_chain now pending n p).staffing.answersIn_eq
  by_cases hl : pending.filter (p.waitsFor now) = []
  · rw [retireAll_of_nil hl]
    refine .answers rfl ?_ ?_
    · simp [endShutdown, answer]
    · rw [endShutdown, answer, PoolOutcome.after, answersIn_append, answersIn_append, hquiet]
      rfl
  · rw [retireAll_of_ne_nil hl]
    have hleft : ∀ w ∈ pending.filter (p.waitsFor now), w.2 = d := fun w hw =>
      hd w (List.mem_of_mem_filter hw)
    obtain ⟨w, hw⟩ := List.exists_mem_of_ne_nil _ hl
    have hwait : p.stopWait w.1 w.2 now = none :=
      Option.isNone_iff_eq_none.mp (List.mem_filter.mp hw).2
    refine .waits ⟨_, _, List.mem_append_right _ (List.mem_singleton_self _), hl, hleft⟩ ?_ hquiet
    exact hleft w hw ▸ lt_of_stopWait hwait

/-- The start goes on when the moment has come up to which it waits, and then it is answered. -/
theorem Docket.undoes_returns (hdocket : Docket h p) (hw : Undoes c error d p)
    (env : Surroundings α) (hd : d ≤ now) : ∃ o, p.step env now (.resume c) = some o ∧
      answersIn o.events = [(c, .ended (.error error))] := by
  obtain ⟨pending, n, hmem, hne, hdeadline⟩ := hw
  have hlookup := lookup_of_mem hdocket.nodup_calls hmem
  have hover : ∀ w ∈ pending, (p.stopWait w.1 w.2 now).isSome := fun w hw => by
    refine Option.isSome_iff_ne_none.mpr fun hnone => ?_
    have hlt := lt_of_stopWait hnone
    exact Nat.not_le_of_lt (hdeadline w hw ▸ hlt) hd
  obtain ⟨w, hwmem⟩ := List.exists_mem_of_ne_nil _ hne
  have hready : (pending.any fun w => (p.stopWait w.1 w.2 now).isSome) = true :=
    List.any_eq_true.mpr ⟨w, hwmem, hover w hwmem⟩
  refine ⟨p.retireAll now c false (some error) pending n, ?_, ?_⟩
  · simp only [step, hlookup, resumeShutdown]
    exact if_pos hready
  · have hundoing : Undoing c error d now (p.retireAll now c false (some error) pending n) :=
      retireAll_undoing hdeadline
    cases hundoing with
    | waits hw hlt => exact absurd hlt (Nat.not_lt.mpr hd)
    | answers hp hc he => exact he

/-- Every action leaves a pool aborted, and answers the start with its error or not at all. -/
theorem Aborted.keep (hp : Aborted c error d p) (hdocket : Docket h p) (hled : Led p)
    (hs : Deed env now p a o) :
    Aborted c error d o.pool ∧ ∀ x, (c, x) ∈ answersIn o.events → x = .ended (.error error) := by
  have hhalted := (hp.halted.keep hs).1
  have hknown : c < o.pool.nextCall := Nat.lt_of_lt_of_le hp.known hs.filing.nextCall_le
  by_cases ha : a = .resume c
  · subst ha
    -- the call goes on, so it waits for members, and nothing but a sweep is about those
    have hretires : ∀ e, p.calls.lookup c = some e →
        ∃ pending n, e = .shutdown false (.retiring pending n) (some error) ∧
          ∀ w ∈ pending, w.2 = d := by
      intro e he
      have hmem := mem_of_lookup he
      rcases hp.course with ⟨pending, n, hwait, -, hdeadline⟩ | ⟨-, hnone⟩
      · exact ⟨pending, n, hdocket.errand_unique hmem hwait, hdeadline⟩
      · exact absurd (List.mem_map_of_mem (f := (·.1)) hmem) hnone
    have hundoing : Undoing c error d now o := by
      cases hs with
      | accepted ho | returned ho | followed ho =>
          cases ho with
          | waited hc =>
              obtain ⟨pending, n, he, -⟩ := hretires _ hc
              cases he
      | opens ho | rushes ho => cases ho
      | gathers hc =>
          obtain ⟨pending, n, he, -⟩ := hretires _ hc
          cases he
      | sweeps hc =>
          obtain ⟨pending, n, he, hdeadline⟩ := hretires _ hc
          cases he
          exact retireAll_undoing hdeadline
    exact ⟨⟨hhalted, hknown, hundoing.course⟩, fun x => hundoing.answer_eq⟩
  · obtain ⟨hcalls, hnone⟩ := hs.filing.elsewhere hp.known ha
    refine ⟨⟨hhalted, hknown, ?_⟩, fun x hx => absurd hx (hnone x)⟩
    refine hp.course.imp ?_ fun ⟨hphase, hgone⟩ => ⟨?_, fun hmem => ?_⟩
    · rintro ⟨pending, n, hmem, hrest⟩
      exact ⟨pending, n, (hcalls _).mpr hmem, hrest⟩
    · have hrest : AtRest p := ⟨hphase, hp.halted.active, by simp [hp.halted.scaler]⟩
      exact (hrest.keep hled hs).1.phase
    · obtain ⟨⟨b, e⟩, hcall, rfl⟩ := List.mem_map.mp hmem
      exact hgone (List.mem_map_of_mem (f := (·.1)) ((hcalls e).mp hcall))

/-! ## The start -/

/-- Workers are made up to the first for which there is no handler. -/
theorem spawnMany_refused (now : Instant) (hj : j < n)
    (hmade : ∀ i < j, env.refusal (p.settings.workerName (p.nextNumber + i)) = none)
    (hrefused : env.refusal (p.settings.workerName (p.nextNumber + j)) = some reason) :
    (p.spawnMany env now n).1 = some (.factory reason) ∧
      createdIn (p.spawnMany env now n).2.events =
        (List.range j).map fun i => p.settings.workerName (p.nextNumber + i) := by
  induction j generalizing n p with
  | zero =>
      obtain ⟨n, rfl⟩ := Nat.exists_eq_succ_of_ne_zero (Nat.ne_of_gt hj)
      have hnone : env.refusal (p.settings.workerLabel ++ "-" ++ toString p.nextNumber) =
          some reason := hrefused
      simp only [spawnMany, spawn, hnone, true_and]
      rfl
  | succ j ih =>
      obtain ⟨n, rfl⟩ := Nat.exists_eq_succ_of_ne_zero (Nat.ne_of_gt (Nat.zero_lt_of_lt hj))
      have hfirst : env.refusal (p.settings.workerLabel ++ "-" ++ toString p.nextNumber) = none :=
        hmade 0 (Nat.succ_pos j)
      have hnext (i : Nat) : p.nextNumber + 1 + i = p.nextNumber + (i + 1) := by omega
      obtain ⟨herror, hcreated⟩ := ih (p := p.hired (p.settings.workerName p.nextNumber) now)
        (Nat.lt_of_succ_lt_succ hj)
        (fun i hi => hnext i ▸ hmade (i + 1) (Nat.succ_lt_succ hi)) (hnext j ▸ hrefused)
      have hspawn : p.spawn env now = (none, ⟨[.created (p.settings.workerName p.nextNumber)],
          p.hired (p.settings.workerName p.nextNumber) now⟩) := by
        simp only [spawn, hfirst]
        rfl
      simp only [spawnMany, hspawn]
      refine ⟨herror, ?_⟩
      rw [PoolOutcome.after, createdIn_append, hcreated, List.range_succ_eq_map, List.map_cons,
        List.map_map]
      exact congrArg (p.settings.workerName p.nextNumber :: ·)
        (List.map_congr_left fun i _ => congrArg p.settings.workerName (hnext i))

theorem retireCrew_undoing :
    Undoing c error (p.patience now) now (p.retireCrew now c false (some error)) := by
  rw [retireCrew_eq]
  refine (retireAll_undoing fun w hw => ?_).after sealed_aside.answers
  obtain ⟨i, -, rfl⟩ := List.mem_map.mp hw
  rfl

/-- When the crew has not grown, nobody has joined. -/
theorem Turnover.createdIn_eq_nil {w w' : Leaving} (ht : Turnover now p w es q w')
    (hl : q.crew.length = p.crew.length) : createdIn es = [] := by
  have hlength := congrArg List.length ht.names_eq
  rw [List.length_append, names, names, List.length_map, List.length_map, hl] at hlength
  exact List.length_eq_zero_iff.mp (by omega)

/-- A new pool makes the workers up to the one for which the factory has no handler. -/
theorem FailsAt.spawned (hf : FailsAt env s j reason) (now : Instant) (hsettings : p.settings = s)
    (hnumber : p.nextNumber = 0) : (p.spawnMany env now s.minWorkers).1 = some (.factory reason) ∧
      createdIn (p.spawnMany env now s.minWorkers).2.events = (List.range j).map s.workerName := by
  have hname (i : Nat) : p.settings.workerName (p.nextNumber + i) = s.workerName i := by
    rw [hsettings, hnumber, Nat.zero_add]
  have hspawned := spawnMany_refused now hf.short (fun i hi => hname i ▸ hf.made hi)
    (hname j ▸ hf.refused)
  simpa only [hname] using hspawned

/-- The start of a new pool fails, and its members are retired. -/
theorem FailsAt.retires (hf : FailsAt env s j reason) (hnew : p.IsNew) (hsettings : p.settings = s)
    (hs : Deed env now p .start o) :
    Aborted p.nextCall (.factory reason) (p.patience now) o.pool ∧
      Undoing p.nextCall (.factory reason) (p.patience now) now o ∧
      createdIn o.events = (List.range j).map s.workerName := by
  have hknown : p.nextCall < o.pool.nextCall := by
    cases hs.filing with
    | quiet hr => cases hr
    | answered x hr hn | kept e hr hn => exact hn ▸ Nat.lt_succ_self _
  obtain ⟨hphase, hnumber, hscaler, hoffered⟩ : p.phase = .created ∧ p.nextNumber = 0 ∧
      p.scaler = {} ∧ p.offered = 0 := by
    obtain ⟨_, _, _, rfl⟩ := hnew
    exact ⟨rfl, rfl, rfl, rfl⟩
  obtain ⟨herror, hcreated⟩ := hf.spawned (p := { p.named with phase := .running }) now hsettings
    hnumber
  rw [← hsettings] at herror hcreated
  have hleft := scaler_spawnMany env now p.settings.minWorkers { p.named with phase := .running }
  cases hs with
  | accepted ho | returned ho | followed ho => cases ho
  | restarted hp => exact absurd hphase hp
  | started hp hspawn | stuck hp hspawn =>
      rw [hspawn] at herror
      cases herror
  | opens ho hw =>
      cases ho with
      | failed hp hspawn =>
          rw [hspawn] at hleft
          rw [draining, hleft] at hw
          dsimp only [named] at hw
          rw [hscaler] at hw
          cases hw
  | rushes ho hw =>
      have hquiet := ho.answersIn_eq
      cases ho with
      | @failed error o' hp hspawn =>
          rw [hspawn] at herror hcreated hleft
          cases herror
          have hstaff := (spawnMany_chain hspawn).eq_staff
          have hplace : o'.pool.draining.scaler.place = .unstarted := by
            rw [draining, hleft]
            exact congrArg (fun u => u.requestStop.place) hscaler
          have hzero : o'.pool.draining.offered = 0 := by
            rw [draining, hstaff]
            exact hoffered
          have hpatience : o'.pool.draining.patience now = p.patience now := by
            rw [draining, hstaff]
            rfl
          have hundoing : Undoing p.nextCall (.factory reason) (p.patience now) now _ :=
            (hpatience ▸ retireCrew_undoing).after hquiet
          have hnone : createdIn (o'.pool.draining.retireCrew now p.nextCall false
              (some (.factory reason))).events = [] :=
            (retireCrew_turnover (.refl _)).createdIn_eq_nil length_crew_retireCrew
          refine ⟨⟨.gathered (.inl rfl) hplace hzero (.inl rfl), hknown, hundoing.course⟩,
            hundoing, ?_⟩
          rw [PoolOutcome.after, createdIn_append, hcreated, hnone, List.append_nil, hsettings]

/-! ## Along a run -/

/-- Once a start has failed, nobody joins, and the start is answered with its error or not at
all. -/
theorem Run.aborts (earlier : Run R t₀ (ofSettings s) h u q) (hq : Aborted c error d q)
    (later : Run R u q k t p) : Aborted c error d p ∧ createdIn k.events = [] ∧
      ∀ x, (c, x) ∈ k.answers → x = .ended (.error error) := by
  induction later with
  | here => exact ⟨hq, rfl, fun x hx => absurd hx List.not_mem_nil⟩
  | pass _ _ ih => exact ih
  | act later _ hs ih =>
      obtain ⟨hp, hcreated, hanswers⟩ := ih
      have run := earlier.trans later
      have hdeed := step_deed hs
      obtain ⟨hkept, hanswer⟩ := hp.keep run.docket run.led hdeed
      refine ⟨hkept, ?_, fun x hx => ?_⟩
      · rw [History.events_append, createdIn_append, hcreated]
        exact (run.turnover hs).createdIn_eq_nil (hp.halted.keep hdeed).2
      · rw [History.answers_append] at hx
        exact (List.mem_append.mp hx).elim (hanswers x) (hanswer x)

/-- In a halted pool no item was ever handed to a handler, and none is queued. -/
theorem Ledger.idle (hl : Ledger h p) (hp : Halted p) :
    h.handed = [] ∧ p.bench.queue.items = [] := by
  have hnone : h.accepted = [] := List.length_eq_zero_iff.mp (hl.accepted ▸ hp.offered)
  have horder := hl.order
  rw [hnone] at horder
  obtain ⟨htaken, hitems⟩ := List.append_eq_nil_iff.mp horder.symm
  have hperm := taken_perm (h := h)
  rw [htaken] at hperm
  exact ⟨(List.append_eq_nil_iff.mp hperm.symm.eq_nil).1, hitems⟩

/-- When a halted pool has stopped, everybody has been dismissed. -/
theorem Run.departed_eq (run : Run R t₀ (ofSettings s) h t p) (hp : Halted p)
    (hstopped : p.phase = .stopped) : p.departed = p.names := by
  have hline : p.line = [] := line_eq_nil (by simp [hp.scaler])
  have hdeparting : p.departing = [] := run.led.departing_eq_nil (by simp [hstopped])
  have hgone : ∀ m ∈ p.crew, m.dismissed.isSome = true := by
    intro m hm
    obtain ⟨i, hi⟩ := List.mem_iff_getElem?.mp hm
    have hhere := run.roster.here i
    rw [leaving, hline, hdeparting, hp.active, Pool.dismissedAt_eq hi] at hhere
    refine Option.isSome_iff_ne_none.mpr fun hnone => ?_
    exact absurd (hhere.mpr ⟨(List.getElem?_eq_some_iff.mp hi).1, hnone⟩) List.not_mem_nil
  rw [departed, List.filter_eq_self.mpr hgone, names]

/-- The start waits for somebody. -/
theorem Undoes.exists_leaving (hw : Undoes c error d p) : ∃ i, (i, some d) ∈ p.leaving := by
  obtain ⟨pending, n, hmem, hne, hdeadline⟩ := hw
  obtain ⟨w, hw⟩ := List.exists_mem_of_ne_nil _ hne
  have hawaited : (w.1, some d) ∈ awaited pending :=
    hdeadline w hw ▸ List.mem_map_of_mem (f := fun w => (w.1, some w.2)) hw
  exact ⟨w.1, List.mem_append_right _ (List.mem_flatMap.mpr ⟨_, hmem, hawaited⟩)⟩

/-- A call that was answered does not wait any more. -/
theorem Aborted.phase_eq (hp : Aborted c error d p) (hdocket : Docket h p) {x : PoolAnswer}
    (hx : (c, x) ∈ h.answers) : p.phase = .stopped := by
  rcases hp.course with ⟨pending, n, hmem, -⟩ | ⟨hphase, -⟩
  · have hanswered := List.mem_map_of_mem (f := (·.1)) hx
    have hwaits := List.mem_map_of_mem (f := (·.1)) hmem
    exact absurd rfl ((List.nodup_append.mp hdocket.nodup).2.2 c hanswered c hwaits)
  · exact hphase

/-- A call that was not answered waits. -/
theorem Aborted.undoes (hp : Aborted c error d p) (hdocket : Docket h p)
    (hx : ∀ x, (c, x) ∉ h.answers) : Undoes c error d p := by
  refine hp.course.resolve_right fun ⟨_, hgone⟩ => ?_
  have hknown := hdocket.once.mem_iff.mpr (List.mem_range.mpr hp.known)
  cases List.mem_append.mp hknown with
  | inl hanswered =>
      obtain ⟨⟨b, x⟩, hmem, rfl⟩ := List.mem_map.mp hanswered
      exact hx x hmem
  | inr hwaits => exact hgone hwaits

/-- When the start has been answered, nothing is left of it. -/
theorem Run.undone (run : Run R t₀ (ofSettings s) h t p) (hp : Aborted c error d p) {x : PoolAnswer}
    (hx : (c, x) ∈ h.answers) : Undone p.names h p := by
  have hphase := hp.phase_eq run.docket hx
  exact {
    phase := hphase
    active := hp.halted.active
    alive := isAlive_of_active hp.halted.active
    items := (run.ledger.idle hp.halted).2
    closed := ⟨hp.halted.closed, hp.halted.sealed⟩
    destroyed := run.departed_perm.symm.trans (.of_eq (run.departed_eq hp.halted hphase))
    shutdowns := shutdowns_of_stopped hphase }

/-- As long as the start has not been answered there is a member that it waits for, and it can be
answered when the moment has come up to which it waits. -/
theorem Run.returns (run : Run R t₀ (ofSettings s) h t p) (hp : Aborted c error d p)
    (hx : ∀ x, (c, x) ∉ h.answers) : 0 < p.crew.length ∧ ∀ env v, d ≤ v → ∃ o,
      p.step env v (.resume c) = some o ∧ answersIn o.events = [(c, .ended (.error error))] := by
  have hwaits := hp.undoes run.docket hx
  refine ⟨?_, fun env v hv => run.docket.undoes_returns hwaits env hv⟩
  obtain ⟨i, hi⟩ := hwaits.exists_leaving
  have hleaves := List.mem_map_of_mem (f := (·.1)) hi
  exact Nat.zero_lt_of_lt (run.roster.lt_length (List.mem_append_right _ hleaves))

/-- The factory never lets go of a worker that is not among those it has made. -/
theorem Run.not_mem_destroyedIn (run : Run R t₀ (ofSettings s) h t p) {name : String}
    (hname : name ∉ p.names) : name ∉ destroyedIn h.events := by
  intro hmem
  obtain ⟨m, hm, rfl⟩ := List.mem_map.mp (run.departed_perm.mem_iff.mpr hmem)
  exact hname (List.mem_map_of_mem (List.mem_of_mem_filter hm))

/-- A start that fails leaves nothing behind: it ends with the error of the factory, by the end of
the shutdown timeout at the latest, and by then the pool has stopped for good and every member that
was made has been let go of. -/
theorem Run.aborted (made : make s = .ok p₀) (before : Run R t₀ p₀ h t p) (hp : p.phase = .created)
    (hf : FailsAt env s j reason) (hs : p.step env t .start = some o)
    (later : Run R t o.pool k u q) :
    FailedStart s j reason p.nextCall (h ++ .ofStep p .start o ++ k) q ∧
      ((∃ x, (p.nextCall, x) ∈ (h ++ .ofStep p .start o ++ k).answers) ∨
        0 < j ∧ t < t.afterWait s.shutdownTimeout ∧
          ∀ env' v, t.afterWait s.shutdownTimeout ≤ v → ∃ o',
            q.step env' v (.resume p.nextCall) = some o' ∧
              answersIn o'.events = [(p.nextCall, .ended (.error (.factory reason)))]) := by
  obtain ⟨rfl, -⟩ := make_eq_ok made
  have hsettings : p.settings = s := before.settings_eq
  have hnew := before.ends.created hp
  have hpatience : p.patience t = t.afterWait s.shutdownTimeout := by rw [patience, hsettings]
  obtain ⟨hfirst, hundoing, hmade⟩ := hf.retires hnew hsettings (step_deed hs)
  rw [hpatience] at hfirst hundoing
  have start : Run .any t₀ (ofSettings s) (h ++ .ofStep p .start o) t o.pool :=
    before.toAny.act trivial hs
  obtain ⟨haborted, hnobody, hanswers⟩ := start.aborts hfirst later.toAny
  have whole := start.trans later.toAny
  have hcreated : createdIn (h ++ .ofStep p .start o ++ k).events =
      (List.range j).map s.workerName := by
    have hbefore : createdIn h.events = [] := by
      rw [← before.names_eq]
      obtain ⟨_, _, _, rfl⟩ := hnew
      rfl
    rw [History.events_append, History.events_append, createdIn_append, createdIn_append, hbefore,
      hnobody, List.append_nil, List.nil_append]
    exact hmade
  have hnames := whole.names_eq.trans hcreated
  constructor
  · refine ⟨hcreated, whole.not_mem_destroyedIn ?_, (whole.ledger.idle haborted.halted).1,
      haborted.halted.offers, ?_, fun {x} hx => ⟨?_, hnames ▸ whole.undone haborted hx⟩⟩
    · -- the members have smaller numbers
      rw [hnames, List.mem_map]
      rintro ⟨i, hi, heq⟩
      exact Nat.ne_of_lt (List.mem_range.mp hi) (s.workerName_injective heq)
    · have hname := haborted.halted.starts
      rwa [whole.settings_eq] at hname
    · rw [History.answers_append, History.answers_append, History.answers_ofStep,
        List.append_assoc] at hx
      rcases List.mem_append.mp hx with hold | hnow
      · have hmem := List.mem_map_of_mem (f := (·.1)) hold
        exact absurd (before.docket.lt_nextCall (List.mem_append_left _ hmem)) (Nat.lt_irrefl _)
      · exact (List.mem_append.mp hnow).elim hundoing.answer_eq (hanswers x)
  · by_cases hanswered : ∃ x, (p.nextCall, x) ∈ (h ++ .ofStep p .start o ++ k).answers
    · exact .inl hanswered
    · obtain ⟨hcrew, hreturns⟩ := whole.returns haborted (not_exists.mp hanswered)
      have hlength := congrArg List.length hnames
      rw [names, List.length_map, List.length_map, List.length_range] at hlength
      refine .inr ⟨hlength ▸ hcrew, ?_, hreturns⟩
      cases hundoing with
      | waits hw hlt => exact hlt
      | answers hphase hgone he =>
          refine absurd ⟨.ended (.error (.factory reason)), ?_⟩ hanswered
          simp [History.answers_append, he]

/-- A factory that has no handler for the second worker. -/
def stingy : Surroundings Nat :=
  { calm with refusal := fun name => if name = "worker-1" then some "no" else none }

/-- The first member is told to stop before it has done anything, and it stops. -/
def retreat : List (Instant × Action Nat) :=
  [(0, .member 0 (.turn 0)), (0, .member 0 .drain), (ofMillis 5, .resume 0)]

theorem aborted_of_stingy : ∃ o k q, make hastyPair = .ok (ofSettings hastyPair : Pool Nat) ∧
    FailsAt stingy hastyPair 1 "no" ∧ (ofSettings hastyPair).step stingy 0 .start = some o ∧
      o.pool.phase = .draining ∧ o.pool.play stingy 0 retreat = some (k, ofMillis 5, q) ∧
      (0, .ended (.error (.factory "no"))) ∈ k.answers ∧
      FailedStart hastyPair 1 "no" 0 (.ofStep (ofSettings hastyPair) .start o ++ k) q := by
  have hplay : ((ofSettings hastyPair).step stingy 0 .start).bind (fun o =>
      (o.pool.play stingy 0 retreat).map fun w => (o.pool.phase, w.1.answers, w.2.1)) =
      some (.draining, [(0, .ended (.error (.factory "no")))], ofMillis 5) := by
    rfl
  obtain ⟨o, hstep, hplay⟩ := Option.bind_eq_some_iff.mp hplay
  obtain ⟨k, u, q, hp, he⟩ := play_of_map hplay
  simp only [Prod.mk.injEq] at he
  obtain ⟨hphase, hanswers, rfl⟩ := he
  have hmade : make hastyPair = .ok (ofSettings hastyPair : Pool Nat) := by rfl
  have hfails : FailsAt stingy hastyPair 1 "no" := by
    refine ⟨by decide, fun {i} hi => ?_, by rfl⟩
    rw [Nat.lt_one_iff.mp hi]
    rfl
  have later : Run .any 0 o.pool k (ofMillis 5) q :=
    Run.play (fun _ _ _ => trivial) hp
  have hfailed := (Run.aborted hmade (R := .any) .here rfl hfails hstep later).1
  refine ⟨o, k, q, hmade, hfails, hstep, hphase, hp, ?_, hfailed⟩
  rw [hanswers]
  exact List.mem_cons_self

end Backpressure.Pool
