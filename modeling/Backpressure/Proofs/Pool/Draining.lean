import Backpressure.Proofs.Pool.Ledger
import Backpressure.Proofs.Pool.Manned
import Backpressure.Proofs.Pool.Overlooked

/-!
# A graceful shutdown drains

When a pool with one handler for all members gathers its crew and gives up nobody at
once, everybody active is waited for.  From then on everybody has been told to stop, so
nobody begins to poll.  A member that is waited for gives up its poll before it ends, and
its hook ends only when no permit is free.

So while somebody who is waited for is about, nothing is lost.  When all of them have
stopped, no permit is free but those that others have given back since.

*Overlooked.*  The scaler tells a member to stop, waits for it up to the shutdown timeout,
and then lets go of it.  If such a member has not been able to act since, it still polls
when the queue is sealed, nobody waits for it, and an item that is promised to it stays in
the queue and is thrown away in the end.  Each member that is overlooked in this way costs
one item at most (`Drains.length_items_le`), and without one the queue is empty before
the rest is thrown away.  The course `drains` says this of every run.
-/

namespace Backpressure.Pool

open Duration (ofMillis)

variable {α : Type}

/-- Whether a member does not poll any more, but is still about. -/
def lingers (p : Pool α) (i : MemberId) : Bool :=
  (p.crew[i]?).any fun m => !m.isPolling && !m.poller.worker.place.isFinished

/-- A pool that lets its members handle what is left, and waits for some of them, while
others are overlooked. -/
structure Drains (p : Pool α) (waited missed : List MemberId) : Prop where
  phase : p.phase = .draining
  /-- Everybody has been told to stop. -/
  told : ∀ m ∈ p.crew, m.poller.worker.stop = true
  /-- The scaler is not about to replace anybody. -/
  steady : ∀ r, p.scaler.place ≠ .inside (.replacing r)
  /-- Polls go on. -/
  opened : p.bench.queue.ready.closed = false
  /-- Offers have ended. -/
  sealed : p.bench.queue.slots.closed = true
  /-- The members handle what is left. -/
  drains : p.bench.drainOnStop = true
  /-- Whoever polls is waited for or overlooked. -/
  polling {i : MemberId} {m : Member α} (hm : p.crew[i]? = some m) (hp : m.poller.polls ≠ []) :
    i ∈ waited ∨ i ∈ missed
  /-- When nobody who is waited for is about, only those permits are free that others who
  were overlooked have given back. -/
  free : (∃ i ∈ waited, ∃ m, p.crew[i]? = some m ∧ m.poller.worker.place.isFinished = false) ∨
    p.bench.queue.ready.free ≤ missed.countP p.lingers
  /-- Nothing was thrown away. -/
  kept : p.discarded = 0

variable {env : Surroundings α} {now : Instant} {p q : Pool α} {a : Action α} {o : PoolOutcome α}
  {h : History α} {m : Member α} {waited missed : List MemberId} {i : MemberId}

theorem lingers_iff : p.lingers i = true ↔ ∃ m, p.crew[i]? = some m ∧ m.poller.polls = [] ∧
    m.poller.worker.place.isFinished = false := by
  simp only [lingers, Option.any_eq_true, Bool.and_eq_true, Bool.not_eq_true', ← Bool.not_eq_true,
    isPolling_iff, ne_eq, not_not]

theorem Tells.lingers_eq {l : List MemberId} (h : Tells l p q) : q.lingers i = p.lingers i := by
  rw [Bool.eq_iff_iff, lingers_iff, lingers_iff]
  constructor
  · rintro ⟨m', hm', hpolls, hf⟩
    obtain ⟨m, hm, ha⟩ := h.back hm'
    exact ⟨m, hm, ha.polls ▸ hpolls, ha.finished ▸ hf⟩
  · rintro ⟨m, hm, hpolls, hf⟩
    obtain ⟨m', hm', ha⟩ := h.fore hm
    exact ⟨m', hm', ha.polls.trans hpolls, ha.finished.trans hf⟩

/-- Who is still about and was not given up is waited for. -/
theorem stopWait_eq_none {deadline : Instant} (hsound : ∀ m ∈ p.crew, m.poller.worker.Sound)
    (hm : p.crew[i]? = some m) (hf : m.poller.worker.place.isFinished = false)
    (hn : ¬p.isStraggler now (i, deadline)) : p.stopWait i deadline now = none := by
  simp only [isStraggler, beq_iff_eq, stopWait, hm, Worker.stopWait] at hn ⊢
  split
  · next hp =>
      rw [(hsound m (List.mem_of_getElem? hm)).isFinished hp] at hf
      cases hf
  · next hp =>
      rw [if_neg hp] at hn
      split
      · next hle => exact absurd (if_pos hle) hn
      · rfl

/-! ## Gathering -/

/-- Somebody active is about, and is waited for if it is not given up at once. -/
theorem Manned.active_about (hm : Manned p) (hp : p.phase = .draining)
    (hsound : ∀ m ∈ p.crew, m.poller.worker.Sound) (ht : Tells p.active p q) :
    ∃ i ∈ p.active, ∃ m, q.crew[i]? = some m ∧ m.poller.worker.place.isFinished = false := by
  obtain ⟨i, hi⟩ := List.exists_mem_of_ne_nil _ (hm.crewed (by simp [hp]))
  obtain ⟨m, hmem, hstop⟩ := (hm.order.active i).mp hi
  obtain ⟨m', hmem', halike⟩ := ht.fore hmem
  refine ⟨i, hi, m', hmem', ?_⟩
  rw [halike.finished]
  cases hsound m (List.mem_of_getElem? hmem) with
  | running _ _ hl =>
      revert hl
      cases m.poller.worker.place <;> simp [Place.isLooping, Place.isFinished]
  | told _ hs | stopped _ hs => simp [hstop] at hs

/-- A pool that gathers its crew drains. -/
theorem Manned.gather (hm : Manned p) (hp : p.phase = .draining)
    (hsound : ∀ m ∈ p.crew, m.poller.worker.Sound)
    (hmissed : p.bench.queue.isSealed = false → ∀ i ∈ p.bystanders, i ∈ missed) :
    Drains (p.sealed true).pool.disbanded p.active missed := by
  have ht : Tells p.active p (p.sealed true).pool.disbanded := by
    have htold : Tells p.active { (p.sealed true).pool with active := [] } _ := .foldl p.active
    exact ⟨htold.fore, htold.back⟩
  refine ⟨?_, ?_, ?_, ?_, ?_, ?_, ?_, .inl (hm.active_about hp hsound ht), ?_⟩
  · rw [phase_disbanded, phase_sealed, hp]
  · intro m' hm'
    obtain ⟨i, hi⟩ := List.mem_iff_getElem?.mp hm'
    obtain ⟨m, hmem, ha⟩ := ht.back hi
    rw [ha.stop, Bool.or_eq_true, decide_eq_true_iff]
    cases hs : m.poller.worker.stop with
    | true => exact .inl rfl
    | false => exact .inr ((hm.order.active i).mpr ⟨m, hmem, hs⟩)
  · rw [scaler_disbanded, scaler_sealed]
    exact hm.steady
  · rw [bench_disbanded]
    exact hm.opened
  · rw [bench_disbanded]
    rfl
  · rw [bench_disbanded]
    rfl
  · intro i m' hi hpolls
    obtain ⟨m, hmem, ha⟩ := ht.back hi
    by_cases hactive : i ∈ p.active
    · exact .inl hactive
    · exact .inr (hmissed hm.unsealed i (mem_bystanders.mpr ⟨hactive, m, hmem, ha.polls ▸ hpolls⟩))
  · rw [disbanded_chain.eq_crew]
    exact hm.kept

/-! ## Waiting -/

/-- Whoever polls is about. -/
theorem isFinished_of_polls (hp : m.poller.polls ≠ []) :
    m.poller.worker.place.isFinished = false :=
  Bool.eq_false_iff.mpr fun hf => hp (Poller.polls_of_finished hf)

/-- What tells or lets go of members, and leaves the permits alone, drains on. -/
theorem Drains.of_tells {l : List MemberId} (hd : Drains p waited missed) (h : Tells l p q)
    (hp : q.phase = p.phase) (hr : ∀ r, q.scaler.place ≠ .inside (.replacing r))
    (hready : q.bench.queue.ready = p.bench.queue.ready)
    (hslots : q.bench.queue.slots.closed = p.bench.queue.slots.closed)
    (hdrain : q.bench.drainOnStop = p.bench.drainOnStop) (hk : q.discarded = p.discarded) :
    Drains q waited missed where
  phase := hp.trans hd.phase
  told m' hm' := by
    obtain ⟨i, hi⟩ := List.mem_iff_getElem?.mp hm'
    obtain ⟨m, hm, ha⟩ := h.back hi
    rw [ha.stop, hd.told m (List.mem_of_getElem? hm)]
    rfl
  steady := hr
  opened := hready ▸ hd.opened
  sealed := hslots.trans hd.sealed
  drains := hdrain.trans hd.drains
  polling hi hpolls := by
    obtain ⟨m, hm, ha⟩ := h.back hi
    exact hd.polling hm (ha.polls ▸ hpolls)
  free := by
    rcases hd.free with ⟨i, hi, m, hm, hf⟩ | hle
    · obtain ⟨m', hm', ha⟩ := h.fore hm
      exact .inl ⟨i, hi, m', hm', ha.finished.trans hf⟩
    · rw [hready, show q.lingers = p.lingers from funext fun _ => h.lingers_eq]
      exact .inr hle
  kept := hk.trans hd.kept

/-- Only those who are about have to be waited for, and more may be overlooked. -/
theorem Drains.narrow {left more : List MemberId} (hd : Drains p waited missed)
    (hl : ∀ {i m}, p.crew[i]? = some m → m.poller.worker.place.isFinished = false →
      i ∈ waited → i ∈ left) : Drains p left (missed ++ more) where
  phase := hd.phase
  told := hd.told
  steady := hd.steady
  opened := hd.opened
  sealed := hd.sealed
  drains := hd.drains
  polling hm hp :=
    (hd.polling hm hp).imp (hl hm (isFinished_of_polls hp)) (List.mem_append_left _)
  free := by
    refine hd.free.imp (fun ⟨i, hi, m, hm, hf⟩ => ⟨i, hl hm hf hi, m, hm, hf⟩) fun hle => ?_
    rw [List.countP_append]
    exact Nat.le_add_right_of_le hle
  kept := hd.kept

/-- A sweep that gives up nobody drains on. -/
theorem Drains.sweep {pending : List (MemberId × Instant)}
    (hd : Drains p (pending.map (·.1)) missed) (hsound : ∀ m ∈ p.crew, m.poller.worker.Sound)
    (hn : pending.countP (p.isStraggler now) = 0) :
    Drains (p.sweep now pending 0).2.pool ((pending.filter (p.waitsFor now)).map (·.1)) missed := by
  have hleft : Drains p ((pending.filter (p.waitsFor now)).map (·.1)) missed := by
    rw [← List.append_nil missed]
    refine hd.narrow fun {i m} hm hf hi => ?_
    obtain ⟨⟨i, deadline⟩, hw, rfl⟩ := List.mem_map.mp hi
    have hwait := stopWait_eq_none hsound hm hf (List.countP_eq_zero.mp hn _ hw)
    refine List.mem_map.mpr ⟨(i, deadline), List.mem_filter.mpr ⟨hw, ?_⟩, rfl⟩
    simp [waitsFor, hwait]
  have heq := (sweep_chain now pending 0 p).eq_crew
  refine hleft.of_tells (.sweep pending 0) ?_ ?_ ?_ ?_ ?_ ?_ <;> rw [heq]
  exact hd.steady

/-! ## What is left -/

/-- There are as many tickets as members that poll. -/
theorem length_polls : p.polls.length =
    (List.range p.crew.length).countP fun i => (p.crew[i]?).any Member.isPolling := by
  have hcrew : p.crew.map some = (List.range p.crew.length).map (p.crew[·]?) := by
    refine List.ext_getElem (by simp) fun i hi _ => ?_
    rw [List.length_map] at hi
    simp [List.getElem?_eq_getElem hi]
  calc p.polls.length = p.crew.countP Member.isPolling := by
        rw [polls]
        induction p.crew with
        | nil => rfl
        | cons m crew ih =>
            rw [List.flatMap_cons, List.length_append, ih, length_polls_eq, List.countP_cons, Nat.add_comm]
    _ = (p.crew.map some).countP (·.any Member.isPolling) := by
        rw [List.countP_map]
        rfl
    _ = (List.range p.crew.length).countP fun i => (p.crew[i]?).any Member.isPolling := by
        rw [hcrew, List.countP_map]
        rfl

/-- No more tickets ask for a permit than members poll. -/
theorem Promised.length_granted_le (hp : Promised p) :
    p.bench.queue.ready.granted.length ≤ p.polls.length := by
  refine (List.subperm_ext_iff.mpr fun u _ => ?_).length_le
  have hasks := hp.asks u
  rw [Permits.asks, List.count_append] at hasks
  omega

/-- When nobody is waited for any more, as many items are left at most as members were
overlooked. -/
theorem Drains.length_items_le (hd : Drains p [] missed) (hp : Promised p) :
    p.bench.queue.items.length ≤ missed.length := by
  have hgranted := hp.length_granted_le
  have hpolls : p.polls.length ≤ missed.countP fun i => (p.crew[i]?).any Member.isPolling := by
    rw [length_polls, List.countP_eq_length_filter, List.countP_eq_length_filter]
    refine (List.subperm_of_subset (List.nodup_range.filter _) fun i hi => ?_).length_le
    have hpolling := (List.mem_filter.mp hi).2
    obtain ⟨m, hm, hpolls⟩ := (Option.any_eq_true _ _).mp hpolling
    have hmissed := (hd.polling hm (isPolling_iff.mp hpolls)).resolve_left List.not_mem_nil
    exact List.mem_filter.mpr ⟨hmissed, hpolling⟩
  have hfree : p.bench.queue.ready.free ≤ missed.countP p.lingers :=
    hd.free.resolve_left (by rintro ⟨i, hi, -⟩; cases hi)
  have hapart : missed.countP p.lingers ≤
      missed.countP fun i => ¬(p.crew[i]?).any Member.isPolling := by
    refine List.countP_mono_left fun i _ hl => ?_
    obtain ⟨m, hm, hnone, -⟩ := lingers_iff.mp hl
    have hnot : m.isPolling = false := Bool.eq_false_iff.mpr fun hp => isPolling_iff.mp hp hnone
    simp [hm, hnot]
  have hlength := missed.length_eq_countP_add_countP fun i => (p.crew[i]?).any Member.isPolling
  rw [hp.backed hd.opened, Permits.stock]
  omega

/-! ## Everybody else -/

theorem countP_lt {f g : MemberId → Bool} {l : List MemberId} (hfg : ∀ j ∈ l, f j = true → g j = true)
    (hi : i ∈ l) (hf : f i = false) (hg : g i = true) : l.countP f < l.countP g := by
  have hsame : l.filter f = (l.filter g).filter f := by
    rw [List.filter_filter]
    refine List.filter_congr fun j hj => ?_
    cases hj' : f j with
    | true => simp [hfg j hj hj']
    | false => rfl
  rw [List.countP_eq_length_filter, List.countP_eq_length_filter, hsame,
    List.length_filter_lt_length_iff_exists]
  exact ⟨i, List.mem_filter.mpr ⟨hi, hg⟩, by simp [hf]⟩

/-- A member that acts drains on. -/
theorem Drains.member {es : List (Poller.Event α)} {w : Poller α} {b : Bench α}
    (hd : Drains p waited missed) (hp : Promised p) (hm : p.crew[i]? = some m)
    (hs : Poller.Deed m.poller p.bench es w b) (hl : es.flatMap Poller.Event.itemLost = []) :
    Drains { p.modifyMember i fun m => { m with poller := w } with bench := b } waited missed where
  phase := hd.phase
  told m' hm' := by
    obtain ⟨j, hj⟩ := List.mem_iff_getElem?.mp hm'
    rcases getElem?_acted hm hj with ⟨rfl, rfl⟩ | ⟨-, hj⟩
    · exact hs.stop_eq.trans (hd.told m (List.mem_of_getElem? hm))
    · exact hd.told m' (List.mem_of_getElem? hj)
  steady := hd.steady
  opened := hs.draws.closed_eq.trans hd.opened
  sealed := hs.isSealed_eq.trans hd.sealed
  drains := hs.drainOnStop_eq.trans hd.drains
  polling hj hpolls := by
    rcases getElem?_acted hm hj with ⟨rfl, rfl⟩ | ⟨-, hj⟩
    · exact absurd (hs.polls_of_stop (hd.told m (List.mem_of_getElem? hm))) hpolls
    · exact hd.polling hj hpolls
  free := by
    have hacted : { p.modifyMember i fun m => { m with poller := w } with bench := b }.crew[i]? =
        some { m with poller := w } := by
      simp only [modifyMember, List.getElem?_modify_eq, hm]
      rfl
    have hother : ∀ {j : MemberId}, j ≠ i →
        { p.modifyMember i fun m => { m with poller := w } with bench := b }.crew[j]? =
          p.crew[j]? := by
      intro j hj
      simp only [modifyMember, List.getElem?_modify_ne _ _ (Ne.symm hj)]
    cases hf : w.worker.place.isFinished with
    | true =>
        -- The hook has ended, so no permit is free.
        rw [hs.free_eq_zero hf hd.drains hd.opened hp.backed hl]
        exact .inr (Nat.zero_le _)
    | false =>
        rcases hd.free with ⟨j, hj, m', hm', hf'⟩ | hle
        · by_cases hij : j = i
          · exact .inl ⟨i, hij ▸ hj, _, hacted, hf⟩
          · exact .inl ⟨j, hj, m', (hother hij).trans hm', hf'⟩
        have hnow : { p.modifyMember i fun m => { m with poller := w } with bench := b }.lingers i :=
          lingers_iff.mpr ⟨_, hacted, hs.polls_of_stop (hd.told m (List.mem_of_getElem? hm)), hf⟩
        have hmono : ∀ j ∈ missed, p.lingers j = true →
            { p.modifyMember i fun m => { m with poller := w } with bench := b }.lingers j := by
          intro j _ hj
          by_cases hij : j = i
          · exact hij ▸ hnow
          · rwa [lingers, hother hij]
        by_cases hpolls : m.poller.polls = []
        · exact .inr (Nat.le_trans (hs.draws.free_le hpolls)
            (Nat.le_trans hle (List.countP_mono_left hmono)))
        -- The member gives up its poll, and may give a permit back.
        rcases hd.polling hm hpolls with hi | hi
        · exact .inl ⟨i, hi, _, hacted, hf⟩
        · have hbefore : p.lingers i = false := by
            simp [lingers, hm, isPolling_iff.mpr hpolls]
          exact .inr (Nat.le_trans hs.draws.free_le_succ
            (Nat.le_trans (Nat.succ_le_succ hle) (countP_lt hmono hi hbefore hnow)))
  kept := hd.kept

/-- Whatever does not steer drains on. -/
theorem Drains.aloof (hd : Drains p waited missed) (hp : Promised p) (ha : a.IsTame)
    (hs : Deed env now p a o) (hst : ¬Steers env now p a) : Drains o.pool waited missed := by
  cases hs with
  | spurned | follows | restarted =>
      exact hd.of_tells (.of_crew_eq rfl) rfl hd.steady rfl rfl rfl rfl
  | accepted ho hq =>
      rw [hd.sealed] at hq
      cases hq
  | returned ho hslots =>
      cases ho <;> exact hd.of_tells (.of_crew_eq rfl) rfl hd.steady rfl hslots rfl rfl
  | queued hp' hslots => exact hd.of_tells (.of_crew_eq rfl) rfl hd.steady rfl hslots rfl rfl
  | followed hf => cases hf <;> exact hd.of_tells (.of_crew_eq rfl) rfl hd.steady rfl rfl rfl rfl
  | abandoned hp' =>
      rw [hd.phase] at hp'
      cases hp'
  | opens ho | rushes ho => exact absurd ho.steers hst
  | gathers hc | sweeps hc => exact absurd ⟨_, mem_of_lookup hc, rfl⟩ hst
  | started hp' hs' hw | stuck hp' hs' hw =>
      rw [hd.phase] at hp'
      cases hp'
  | flushed => exact hd.of_tells .flush rfl hd.steady rfl rfl rfl rfl
  | @member i b m o hi hs' =>
      have hb : b ≠ .handled .burst := by
        rintro rfl
        exact ha
      exact hd.member hp hi (Poller.step_deed hs') (Poller.itemLost_of_ne_burst hb hs')
  | scaler hs' =>
      have hchain := scalerStep_chain hs'
      have hstaff := hchain.eq_staff
      obtain ⟨-, hnone, hsteady⟩ := (scalerStep_deed hs').idle (by simp [hd.phase]) hd.steady
      obtain ⟨l, hl⟩ := Tells.of_chain hchain hnone
      refine hd.of_tells hl ?_ hsteady ?_ ?_ ?_ ?_ <;> rw [hstaff]

/-- Nothing is thrown away but at the end of a shutdown. -/
theorem Deed.discarded_eq (hs : Deed env now p a o) (hst : ¬Steers env now p a) :
    o.pool.discarded = p.discarded := by
  cases hs with
  | spurned | queued | follows | abandoned | restarted | flushed | member => rfl
  | accepted ho | returned ho => cases ho <;> rfl
  | followed hf => cases hf <;> rfl
  | opens ho | rushes ho => exact absurd ho.steers hst
  | gathers hc | sweeps hc => exact absurd ⟨_, mem_of_lookup hc, rfl⟩ hst
  | started hp hs hw | stuck hp hs hw =>
      have hdiscarded := congrArg Pool.discarded (spawnMany_chain hs).eq_staff
      exact hdiscarded
  | scaler hs => rw [(scalerStep_chain hs).eq_staff]

/-! ## The course of a graceful shutdown -/

/-- A pool is manned until its crew is gathered; then it drains, if that is wanted. -/
def drains : Course α where
  before _ p := Manned p
  during _ missed p graceful pending := graceful = true → Drains p (pending.map (·.1)) missed
  after _ missed p graceful := graceful = true → p.discarded ≤ missed.length

/-- A pool with one handler for all members drains. -/
theorem drains_lawful {s : PoolSettings} (hmin : 0 < s.minWorkers) :
    drains.Lawful (Regime.handler (α := α)) s where
  first := .first s
  aloof run ha hs hst := by
    refine ⟨?_, ?_, ?_⟩
    · intro hp hm
      refine hm.aloof run.ends run.sound ?_ ha hs hst hp
      rw [run.settings_eq]
      exact hmin
    · intro _ _ hd hg
      exact (hd hg).aloof run.promised ha.2.2 hs hst
    · intro _ hk hg
      exact Nat.le_trans (Nat.le_of_eq (hs.discarded_eq hst)) (hk hg)
  opening ha ho hm := hm.opening ha ho
  await _ hm := hm.await
  gather hp hsound _ hmissed hm := by
    rintro rfl
    have hgathered := hm.gather hp hsound hmissed
    rwa [leavers, List.map_map, show ((·.1) ∘ fun i => (i, _)) = id from rfl, List.map_id]
  sweep hsound hn hd hg := (hd hg).sweep hsound hn
  widen k := by
    refine ⟨fun _ hd hg => (hd hg).narrow fun _ _ hi => hi, fun hk hg => ?_⟩
    rw [List.length_append]
    exact Nat.le_add_right_of_le (hk hg)
  calls _ hd hg := (hd hg).of_tells (.of_crew_eq rfl) rfl (hd hg).steady rfl rfl rfl rfl
  close _ hp hd hg := by
    simp only [closed, discardAll, Queue.closeAndClear, Queue.length, Queue.close, Queue.sealUp,
      (hd hg).kept, Nat.zero_add]
    exact (hd hg).length_items_le hp

/-- When nothing was thrown away, what left the queue was handed to a handler. -/
theorem taken_eq_handed (hn : h.thrown = []) : h.taken = h.handed := by
  rw [History.thrown, List.flatMap_eq_nil_iff] at hn
  refine List.flatMap_congr fun e he => ?_
  rw [PoolEvent.taken, hn e he, List.append_nil]

/-- From the moment at which a graceful shutdown that moved the pool has succeeded, the queue is
empty, and what was accepted was handed to a handler or thrown away.  No more items were thrown
away than members were overlooked, all of whom the scaler had taken out.  If nobody was
overlooked, all that was accepted was handed to a handler, in this order. -/
theorem Run.discarded_le_overlooked {t₀ t : Instant} {s : PoolSettings} {p₀ : Pool α} {c : CallId}
    (made : make s = .ok p₀) (run : Run .handler t₀ p₀ h t p)
    (asked : ⟨c, .shutdown true, .running⟩ ∈ h.requests)
    (ok : (c, .ended (.ok ())) ∈ h.answers) :
    p.bench.queue.items = [] ∧
      (h.accepted.map (·.2)).Perm (h.handed ++ h.thrown) ∧ p.discarded = h.thrown.length ∧
      p.discarded ≤ h.overlooked.length ∧ h.overlooked ⊆ h.scaledOut ∧
      (h.overlooked = [] → p.discarded = 0 ∧ h.accepted.map (·.2) = h.handed) := by
  obtain ⟨rfl, hmin⟩ := make_eq_ok made
  obtain ⟨hphase, hkept⟩ := (run.onCourse (drains_lawful hmin)).succeeded asked rfl rfl ok
  have hdiscarded : p.discarded ≤ h.overlooked.length := hkept rfl
  have hitems := (run.ends.stopped hphase).items
  have htaken : h.accepted.map (·.2) = h.taken := by
    rw [run.ledger.order, hitems, List.append_nil]
  refine ⟨hitems, htaken ▸ taken_perm, run.ledger.thrown, hdiscarded,
    run.overlooked_subset_scaledOut, fun hnone => ?_⟩
  have hzero : p.discarded = 0 := by
    rw [hnone] at hdiscarded
    exact Nat.le_zero.mp hdiscarded
  have hthrown : h.thrown = [] :=
    List.eq_nil_of_length_eq_zero (run.ledger.thrown.symm.trans hzero)
  exact ⟨hzero, htaken.trans (taken_eq_handed hthrown)⟩

/-- A factory with one handler for all members, and a policy that changes nothing. -/
def oneHandler : Surroundings α where
  refusal _ := none
  isFit m := m.phase == .running
  decide _ := .hold

/-- A member handles an item while the pool shuts down, and then the one that is left. -/
def backlog : List (Instant × Action Nat) :=
  [(0, .start), (0, .offer 1 0), (0, .offer 2 0), (0, .member 0 (.turn 0)), (0, .scaler .turn),
    (0, .shutdown true), (0, .scaler .quit), (0, .scaler .turn), (0, .scaler .leave),
    (0, .resume 3), (0, .member 0 (.handled .handled)), (0, .member 0 (.turn 0)),
    (0, .member 0 .drain), (0, .member 0 (.handled .failed)), (0, .member 0 .drain),
    (0, .resume 3)]

theorem handed_of_backlog : ∃ h t p,
    (ofSettings hasty).play oneHandler 0 backlog = some (h, t, p) ∧
      make hasty = .ok (ofSettings hasty : Pool Nat) ∧
      (⟨3, .shutdown true, .running⟩ ∈ h.requests ∧ (3, .ended (.ok ())) ∈ h.answers) ∧
      h.overlooked = [] ∧ p.bench.queue.items = [] ∧ h.accepted.map (·.2) = h.handed ∧
      p.discarded = 0 ∧ p.offered = 2 ∧ p.bench.processed = 1 ∧ p.bench.failed = 1 := by
  have hplay : ((ofSettings hasty).play oneHandler 0 backlog).map
      (fun w => (w.1.requests[3]?, w.1.answers[3]?, w.1.overlooked, w.2.2.offered,
        w.2.2.bench.processed, w.2.2.bench.failed)) =
      some (some ⟨3, .shutdown true, .running⟩, some (3, .ended (.ok ())), [], 2, 1, 1) := by
    rfl
  obtain ⟨h, t, p, hp, he⟩ := play_of_map hplay
  simp only [Prod.mk.injEq] at he
  obtain ⟨hasked, hok, hmissed, hcounts⟩ := he
  have hmade : make hasty = .ok (ofSettings hasty : Pool Nat) := rfl
  have hallows : ∀ w ∈ backlog, ∀ p, Regime.handler.allows p oneHandler w.2 := by
    simp [backlog, Regime.handler, oneHandler, Action.IsTame]
  have hrun : Run .handler 0 _ h t p := Run.play hallows hp
  have hasked := List.mem_of_getElem? hasked
  have hok := List.mem_of_getElem? hok
  obtain ⟨hitems, -, -, -, -, hdrained⟩ := hrun.discarded_le_overlooked hmade hasked hok
  obtain ⟨hdiscarded, hhanded⟩ := hdrained hmissed
  exact ⟨h, t, p, hp, hmade, ⟨hasked, hok⟩, hmissed, hitems, hhanded, hdiscarded, hcounts⟩

/-- A pool of one member or two that waits for a stop for 20 milliseconds. -/
def flexible : PoolSettings := { hasty with maxWorkers := 2 }

/-- One handler for all members, and a policy that adds a second member and takes it away. -/
def wavering : Surroundings α :=
  { oneHandler with decide := fun o => if o.active < 2 then .grow 1 else .shrink 1 }

/-- Two members poll.  The second is told to stop and does not act for the time that the scaler
waits for it, while an item is promised to each of them; then the pool is shut down. -/
def oversleeping : List (Instant × Action Nat) :=
  [(0, .start), (0, .member 0 (.turn 0)), (0, .scaler .turn), (ofMillis 10, .scaler .evaluate),
    (ofMillis 10, .member 1 (.turn 0)), (ofMillis 10, .scaler .turn),
    (ofMillis 20, .scaler .evaluate), (ofMillis 20, .offer 1 0), (ofMillis 20, .offer 2 0),
    (ofMillis 20, .member 0 (.look 0)), (ofMillis 20, .member 0 (.handled .handled)),
    (ofMillis 20, .member 0 (.turn 0)), (ofMillis 40, .scaler .retired),
    (ofMillis 40, .shutdown true), (ofMillis 40, .scaler .turn), (ofMillis 40, .scaler .leave),
    (ofMillis 40, .resume 3), (ofMillis 40, .member 0 .quit), (ofMillis 40, .member 0 (.turn 0)),
    (ofMillis 40, .member 0 .drain), (ofMillis 40, .resume 3)]

/-- A graceful shutdown can succeed and throw away an item that was accepted. -/
theorem discarded_of_oversleeping : ∃ h t p,
    (ofSettings flexible).play wavering 0 oversleeping = some (h, t, p) ∧
      Run .handler 0 (ofSettings flexible) h t p ∧
      make flexible = .ok (ofSettings flexible : Pool Nat) ∧
      ⟨3, .shutdown true, .running⟩ ∈ h.requests ∧ (3, .ended (.ok ())) ∈ h.answers ∧
      p.discarded = 1 ∧ h.handed = [1] ∧ h.thrown = [2] ∧ h.overlooked = [1] := by
  have hplay : ((ofSettings flexible).play wavering 0 oversleeping).map
      (fun w => (w.1.requests[3]?, w.1.answers[3]?, w.2.2.discarded, w.1.handed, w.1.thrown,
        w.1.overlooked)) =
      some (some ⟨3, .shutdown true, .running⟩, some (3, .ended (.ok ())), 1, [1], [2], [1]) := by
    rfl
  obtain ⟨h, t, p, hp, he⟩ := play_of_map hplay
  simp only [Prod.mk.injEq] at he
  obtain ⟨hasked, hok, hread⟩ := he
  have hallows : ∀ w ∈ oversleeping, ∀ p, Regime.handler.allows p wavering w.2 := by
    simp [oversleeping, Regime.handler, wavering, oneHandler, Action.IsTame]
  exact ⟨h, t, p, hp, Run.play hallows hp, rfl,
    List.mem_of_getElem? hasked, List.mem_of_getElem? hok, hread⟩

end Backpressure.Pool
