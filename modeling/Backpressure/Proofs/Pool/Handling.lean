import Backpressure.Proofs.Poller.Handling
import Backpressure.Proofs.Pool.Ledger
import Backpressure.Proofs.Pool.Promises

/-!
# What handlers do to the members of a pool

Whatever a handler does with an item, its member goes on, and the end of the handling is
counted by its kind.  There is one exception: a handler that panics when it is called, before
there is anything to wait for.  That end is counted nowhere, and in the hook of a member that
stops it is the end of the hook, so what is left in the queue is left there.

*Counts.*  Only members handle items, so the counters can be compared with the ends that are
seen along a run (`Run.counted`).

*Rounds.*  A member takes an item and handles it, for as long as it likes, again and again.
While the queue is not closed, a member that is ready handles as many items as are free, the
oldest first, with whatever ends (`Ready.serves`).

`Run.contained` is about every run of a new pool and all its members.
-/

namespace Backpressure.Pool

open Duration (ofMillis)

variable {α : Type} {env : Surroundings α} {now t₀ : Instant} {p q : Pool α} {a : Action α}
  {o : PoolOutcome α} {c : CallId} {graceful : Bool} {afterStart : Option PoolError}
  {h : History α} {i : MemberId} {start : Poller.Action}

/-- The items whose handling has ended, with the ways in which they did. -/
def History.ends (h : History α) : List (α × HandlerEnd) := h.events.flatMap PoolEvent.ends

theorem History.ends_append (h k : History α) : (h ++ k).ends = h.ends ++ k.ends := by
  rw [ends, events_append, List.flatMap_append, ends, ends]

/-! ## Counts -/

/-- The counters of handled items, of those handled well and of those that failed. -/
def handledCounts (p : Pool α) : Nat × Nat := (p.bench.processed, p.bench.failed)

theorem retireAll_handledCounts (pending : List (MemberId × Instant)) (n : Nat) :
    (p.retireAll now c graceful afterStart pending n).pool.handledCounts = p.handledCounts := by
  by_cases hl : pending.filter (p.waitsFor now) = []
  · rw [retireAll_of_nil hl]
    simp [handledCounts, endShutdown, Pool.answer, PoolOutcome.after, closed, discardAll]
  · rw [retireAll_of_ne_nil hl]
    simp [handledCounts, Pool.await]

theorem retireCrew_handledCounts :
    (p.retireCrew now c graceful afterStart).pool.handledCounts = p.handledCounts := by
  rw [retireCrew_eq, PoolOutcome.after, retireAll_handledCounts]
  cases graceful <;> simp [handledCounts, sealed, discardAll]

theorem Opening.handledCounts_eq {p' : Pool α} {es : List (PoolEvent α)}
    (ho : Opening env now p a c graceful afterStart es p') :
    p'.handledCounts = p.handledCounts := by
  cases ho with
  | asked hp => rfl
  | failed hp hs => rw [(spawnMany_chain hs).eq_staff]; rfl

/-- Only what members do is counted. -/
theorem Deed.handledCounts_eq (hs : Deed env now p a o) (ha : ∀ i b, a ≠ .member i b) :
    o.pool.handledCounts = p.handledCounts := by
  cases hs with
  | spurned | queued | follows | abandoned | restarted | flushed => rfl
  | accepted ho | returned ho => cases ho <;> rfl
  | followed hf => cases hf <;> rfl
  | opens ho hw => exact ho.handledCounts_eq
  | rushes ho hw => exact retireCrew_handledCounts.trans ho.handledCounts_eq
  | gathers => exact retireCrew_handledCounts
  | sweeps => exact retireAll_handledCounts _ _
  | started hp hs' hw | stuck hp hs' hw =>
      have hbench := congrArg Pool.handledCounts (spawnMany_chain hs').eq_staff
      exact hbench
  | member => exact absurd rfl (ha _ _)
  | scaler hs' => rw [(scalerStep_chain hs').eq_staff]; rfl

theorem ends_ofStep_acted (w : Poller.Outcome α) (b : Poller.Action) :
    (History.ofStep p (.member i b) (p.acted i w)).ends = w.events.flatMap Poller.Event.ends :=
  List.flatMap_map ..

theorem crew_acted {m : Member α} (hm : p.crew[i]? = some m) (w : Poller.Outcome α) :
    (p.acted i w).pool.crew[i]? = some { m with poller := w.poller } := by
  simp only [acted, modifyMember, List.getElem?_modify_eq, hm]
  rfl

/-- What the counters show of ends that were seen. -/
structure Counted (h : History α) (p : Pool α) : Prop where
  /-- The items handled well. -/
  processed : p.bench.processed = h.ends.countP (·.2 = .handled)
  /-- The items whose handling failed or panicked while it ran. -/
  failed : p.bench.failed = h.ends.countP (·.2.isFailure)

theorem Counted.keep (hc : Counted h p) (hs : p.step env now a = some o) :
    Counted (h ++ .ofStep p a o) o.pool := by
  -- a member counts what it sees end, and nobody else sees an end or counts one
  by_cases hmember : ∃ i b, a = .member i b
  · obtain ⟨i, b, rfl⟩ := hmember
    obtain ⟨m, o', -, hs', rfl⟩ := memberStep_eq_some.mp hs
    obtain ⟨hprocessed, hfailed⟩ := (Poller.step_deed hs').counted
    constructor
    · rw [History.ends_append, List.countP_append, ends_ofStep_acted, ← hc.processed]
      exact hprocessed
    · rw [History.ends_append, List.countP_append, ends_ofStep_acted, ← hc.failed]
      exact hfailed
  · have ha : ∀ i b, a ≠ .member i b := fun i b he => hmember ⟨i, b, he⟩
    have hends : (History.ofStep p a o).ends = [] := (step_deed hs).ends_eq ha
    obtain ⟨hprocessed, hfailed⟩ := Prod.mk.inj ((step_deed hs).handledCounts_eq ha)
    constructor
    · rw [History.ends_append, hends, List.append_nil, hprocessed]
      exact hc.processed
    · rw [History.ends_append, hends, List.append_nil, hfailed]
      exact hc.failed

theorem Run.counted {R : Regime α} {t : Instant} {s : PoolSettings}
    (run : Run R t₀ (ofSettings s) h t p) : Counted h p :=
  run.invariant (I := Counted) ⟨rfl, rfl⟩ fun hc _ hs => hc.keep hs

/-! ## Rounds -/

/-- A member takes an item next, if one is free, by an action of its own. -/
def Ready (p : Pool α) (i : MemberId) (start : Poller.Action) : Prop :=
  ∃ m, p.crew[i]? = some m ∧ m.poller.Ready p.bench start

/-- A member takes one item after the other by an action.  Each handling ends at a moment and in a
way of its own, and the next item is taken then. -/
def rounds (i : MemberId) (start : Poller.Action) :
    Instant → List (Instant × HandlerEnd) → List (Instant × Action α)
  | _, [] => []
  | t, (u, how) :: rest =>
    (t, .member i start) :: (u, .member i (.handled how)) :: rounds i start u rest

theorem play_member {t u : Instant} {b : Poller.Action} {m : Member α} {w : Poller.Outcome α}
    (hm : p.crew[i]? = some m) (htu : t ≤ u)
    (hw : m.poller.step p.settings.poller u p.bench b = some w) (rest : List (Instant × Action α)) :
    p.play env t ((u, .member i b) :: rest) =
      ((p.acted i w).pool.play env u rest).map fun (h, v, r) =>
        (.ofStep p (.member i b) (p.acted i w) ++ h, v, r) := by
  simp only [play, if_neg (Nat.not_lt_of_le htu), step_member env hm hw]

/-- A member takes an item, and some time later its handling ends. -/
theorem play_round (env : Surroundings α) {t u : Instant} {b b' : Poller.Action} {m : Member α}
    {w w' : Poller.Outcome α}
    (hm : p.crew[i]? = some m) (htu : t ≤ u)
    (hw : m.poller.step p.settings.poller t p.bench b = some w)
    (hw' : w.poller.step p.settings.poller u w.bench b' = some w') :
    ∃ k : History α, k.ends = (w.events ++ w'.events).flatMap Poller.Event.ends ∧
      ∀ rest, p.play env t ((t, .member i b) :: (u, .member i b') :: rest) =
        (((p.acted i w).pool.acted i w').pool.play env u rest).map fun (h, v, r) =>
          (k ++ h, v, r) := by
  refine ⟨.ofStep p (.member i b) (p.acted i w) ++
    .ofStep (p.acted i w).pool (.member i b') ((p.acted i w).pool.acted i w'), ?_, ?_⟩
  · rw [History.ends_append, ends_ofStep_acted, ends_ofStep_acted, List.flatMap_append]
  · intro rest
    rw [play_member hm (Nat.le_refl _) hw, play_member (crew_acted hm w) htu hw', Option.map_map]
    refine congrArg (Option.map · _) (funext fun r => ?_)
    simp only [Function.comp_apply, History.append_assoc]

/-- What a member has come to that has handled items, with these ends. -/
structure Served (p : Pool α) (i : MemberId) (start : Poller.Action) (hows : List HandlerEnd)
    (k : History α) (q : Pool α) : Prop where
  /-- It handled the oldest items, one after the other. -/
  ends : k.ends = (p.bench.queue.items.take hows.length).zip hows
  /-- The rest is left. -/
  items : q.bench.queue.items = p.bench.queue.items.drop hows.length
  /-- As many items as before are promised to others. -/
  free : q.bench.queue.ready.free = p.bench.queue.ready.free - hows.length
  /-- It is ready for the next one. -/
  ready : q.Ready i start

/-- A member that is ready handles as many items as are free, whatever their handlers do; in the
hook, if they do not panic when they are called. -/
theorem Ready.serves {ends : List (Instant × HandlerEnd)} (hr : p.Ready i start) (hp : Promised p)
    (hc : p.bench.queue.ready.closed = false) (hlen : ends.length ≤ p.bench.queue.ready.free)
    (hmono : (now :: ends.map (·.1)).IsChain (· ≤ ·))
    (hh : start = .drain → ∀ e ∈ ends, e.2 ≠ .burst) :
    ∃ k u q, p.play env now (rounds i start now ends) = some (k, u, q) ∧
      Served p i start (ends.map (·.2)) k q := by
  -- one round, after which the member is ready again, the promises still hold, and one item less
  -- is free; so the rounds that are left go through as well
  induction ends generalizing p now with
  | nil => exact ⟨{}, now, p, rfl, rfl, rfl, rfl, hr⟩
  | cons e rest ih =>
      obtain ⟨u, how⟩ := e
      obtain ⟨m, hm, hready⟩ := hr
      rw [List.length_cons] at hlen
      obtain ⟨hle, hmono⟩ := List.isChain_cons_cons.mp hmono
      obtain ⟨a, w, w', hw, hw', hi, hfree, hends, hready'⟩ :=
        hready.round hp.backed hc (by omega) p.settings.poller now u how
          fun hstart => hh hstart _ List.mem_cons_self
      have hm₁ := crew_acted hm w
      have hp₂ : Promised ((p.acted i w).pool.acted i w').pool :=
        (hp.member hm (Poller.step_deed hw)).member hm₁ (Poller.step_deed hw')
      have hr₂ : ((p.acted i w).pool.acted i w').pool.Ready i start :=
        ⟨_, crew_acted hm₁ w', hready'⟩
      have hc₂ : w'.bench.queue.ready.closed = false := by rw [hfree]; exact hc
      have hfree₂ : w'.bench.queue.ready.free = p.bench.queue.ready.free - 1 := by rw [hfree]
      obtain ⟨k, hk, hplay⟩ := play_round env hm hle hw hw'
      obtain ⟨k', v, q, hrest, hserved⟩ := ih hr₂ hp₂ hc₂
        (show rest.length ≤ w'.bench.queue.ready.free by omega) hmono
        fun hstart e he => hh hstart e (List.mem_cons_of_mem _ he)
      refine ⟨k ++ k', v, q, by rw [rounds, hplay, hrest]; rfl, ?_, ?_, ?_, hserved.ready⟩
      · rw [History.ends_append, hk, hends, hserved.ends, hi]
        rfl
      · rw [hserved.items, hi]
        rfl
      · rw [hserved.free]
        show w'.bench.queue.ready.free - (rest.map (·.2)).length = _
        simp only [List.length_map, List.length_cons, List.map_cons, hfree₂]
        omega

/-- In the hook, a handler that panics when it is called ends everything: its item is counted
nowhere, and what is left in the queue is left there. -/
theorem Ready.shatters {u : Instant} (hr : p.Ready i .drain) (hp : Promised p)
    (hc : p.bench.queue.ready.closed = false) (hf : 0 < p.bench.queue.ready.free) (htu : now ≤ u) :
    ∃ a k q, p.play env now [(now, .member i .drain), (u, .member i (.handled .burst))] =
        some (k, u, q) ∧
      k.ends = [(a, .burst)] ∧ p.bench.queue.items = a :: q.bench.queue.items ∧
      q.handledCounts = p.handledCounts ∧
      ∃ m, q.crew[i]? = some m ∧ m.poller.worker.place.isFinished := by
  obtain ⟨m, hm, hready⟩ := hr
  obtain ⟨a, w, w', hw, hw', hi, hends, hcounts, hfinished⟩ :=
    hready.outburst hp.backed hc hf p.settings.poller now u
  obtain ⟨k, hk, hplay⟩ := play_round env hm htu hw hw'
  refine ⟨a, k, ((p.acted i w).pool.acted i w').pool, ?_, hk.trans hends, hi, ?_, _,
    crew_acted (crew_acted hm w) w', hfinished⟩
  · rw [hplay]
    simp [play]
  · exact Prod.ext hcounts.1 hcounts.2

/-- When no item is free, the hook ends. -/
theorem Ready.rests (hr : p.Ready i .drain) (hf : p.bench.queue.ready.free = 0) :
    ∃ o, p.step env now (.member i .drain) = some o ∧ o.events = [.poller i (.left false)] ∧
      o.pool.bench = p.bench ∧
      ∃ m, o.pool.crew[i]? = some m ∧ m.poller.worker.place.isFinished := by
  obtain ⟨m, hm, hready⟩ := hr
  obtain ⟨w, hw, hes, hbench, hfinished⟩ := hready.rest hf p.settings.poller now
  refine ⟨p.acted i w, step_member env hm hw, ?_, hbench, _, crew_acted hm w, hfinished⟩
  rw [acted, hes]
  rfl

/-! ## All members of a pool -/

/-- What is known of handlers and members after a run. -/
structure Contained (h : History α) (now : Instant) (p : Pool α) : Prop extends Counted h p where
  /-- Each item that was handed to a handler is in hand, or its handling has ended once. -/
  hands : h.handed.Perm (p.inHand ++ h.ends.map (·.1))
  /-- A member goes on when a handling has ended. -/
  onward : ∀ env i how o, p.step env now (.member i (.handled how)) = some o →
    ∃ m m', p.crew[i]? = some m ∧ o.pool.crew[i]? = some m' ∧
      Poller.Onward how m.poller.worker.place m'.poller.worker.place
  /-- While polls go on and nobody polls, all items are free. -/
  free : p.bench.queue.ready.closed = false → p.polls = [] →
    p.bench.queue.ready.free = p.bench.queue.items.length
  /-- While polls go on, a member that is ready handles as many items as are free, whatever becomes
  of them; in the hook, unless a handler panics when it is called. -/
  serves : p.bench.queue.ready.closed = false → ∀ env i start (ends : List (Instant × HandlerEnd)),
    p.Ready i start → ends.length ≤ p.bench.queue.ready.free →
    (now :: ends.map (·.1)).IsChain (· ≤ ·) → (start = .drain → ∀ e ∈ ends, e.2 ≠ .burst) →
    ∃ k u q, p.play env now (rounds i start now ends) = some (k, u, q) ∧
      Served p i start (ends.map (·.2)) k q
  /-- That ends the hook, and leaves its item uncounted and the others where they are. -/
  shatters : p.bench.queue.ready.closed = false → ∀ env i u, p.Ready i .drain →
    0 < p.bench.queue.ready.free → now ≤ u →
    ∃ a k q, p.play env now [(now, .member i .drain), (u, .member i (.handled .burst))] =
        some (k, u, q) ∧
      k.ends = [(a, .burst)] ∧ p.bench.queue.items = a :: q.bench.queue.items ∧
      q.handledCounts = p.handledCounts ∧
      ∃ m, q.crew[i]? = some m ∧ m.poller.worker.place.isFinished
  /-- Otherwise the hook ends when no item is free. -/
  rests : ∀ env i, p.Ready i .drain → p.bench.queue.ready.free = 0 →
    ∃ o, p.step env now (.member i .drain) = some o ∧ o.events = [.poller i (.left false)] ∧
      o.pool.bench = p.bench ∧ ∃ m, o.pool.crew[i]? = some m ∧ m.poller.worker.place.isFinished

theorem map_fst_ends (h : History α) : h.ends.map (·.1) = h.ended := by
  simp only [History.ends, History.ended, List.map_flatMap, PoolEvent.map_fst_ends]

/-- Whatever handlers do, the ends are counted and the members go on, unless a handler panics when
it is called. -/
theorem Run.contained {R : Regime α} {s : PoolSettings}
    (run : Run R t₀ (ofSettings s) h now p) : Contained h now p where
  toCounted := run.counted
  hands := by
    rw [map_fst_ends]
    exact run.ledger.hands
  onward env i how o hs := by
    obtain ⟨m, w, hm, hw, rfl⟩ := memberStep_eq_some.mp hs
    exact ⟨m, _, hm, crew_acted hm w, Poller.handled_onward hw⟩
  free hc hpolls := (run.promised.length_eq hc hpolls).symm
  serves hc env i start ends hr hlen hmono hh := hr.serves run.promised hc hlen hmono hh
  shatters hc env i u hr hf htu := hr.shatters run.promised hc hf htu
  rests env i hr hf := hr.rests hf

/-- A member of a pool that shuts down has handled an item, which failed, and two are left. -/
def twoLeft : List (Instant × Action Nat) :=
  [(0, .start), (0, .offer 1 0), (0, .offer 2 0), (0, .offer 3 0), (0, .member 0 (.turn 0)),
    (0, .scaler .turn), (0, .shutdown true), (0, .scaler .quit), (0, .scaler .turn),
    (0, .scaler .leave), (0, .resume 4), (0, .member 0 (.handled .failed)),
    (0, .member 0 (.turn 0))]

/-- It handles both, although the handler of the first panics. -/
theorem contained_of_twoLeft : ∃ h t p k u q,
    (ofSettings hasty).play calm 0 twoLeft = some (h, t, p) ∧ Contained h t p ∧
      p.bench.queue.items = [2, 3] ∧
      p.play calm t (rounds 0 .drain t [(5, .panicked), (9, .handled)]) = some (k, u, q) ∧
      k.ends = [(2, .panicked), (3, .handled)] ∧ q.bench.queue.items = [] := by
  have hplay : ((ofSettings hasty).play calm 0 twoLeft).map (fun w =>
      (w.2.1, w.2.2.bench.queue.items, w.2.2.bench.queue.ready.closed,
        w.2.2.bench.queue.ready.free, w.2.2.bench.drainOnStop,
        w.2.2.crew[0]?.map fun m => m.poller.worker.place)) =
      some (0, [2, 3], false, 2, true, some (.leaving .stopRequested .next)) := by
    rfl
  obtain ⟨h, t, p, hp, he⟩ := play_of_map hplay
  simp only [Prod.mk.injEq] at he
  obtain ⟨rfl, hitems, hclosed, hfree, hdrain, hplace⟩ := he
  obtain ⟨m, hm, hplace⟩ := Option.map_eq_some_iff.mp hplace
  have hrun : Run .any 0 _ h 0 p := Run.play (fun _ _ _ => trivial) hp
  have hcontained := hrun.contained
  obtain ⟨k, u, q, hrounds, hserved⟩ := hcontained.serves hclosed calm 0 .drain
    [(5, .panicked), (9, .handled)] ⟨m, hm, .hook hplace hdrain⟩ (by rw [hfree]; decide)
    (by decide) (by simp)
  refine ⟨h, 0, p, k, u, q, hp, hcontained, hitems, hrounds, ?_, ?_⟩
  · rw [hserved.ends, hitems]
    rfl
  · rw [hserved.items, hitems]
    rfl

/-- The handler of the first item that is left panics when it is called. -/
def outburst : List (Instant × Action Nat) :=
  twoLeft ++ [(0, .member 0 .drain), (0, .member 0 (.handled .burst)), (0, .resume 4)]

/-- The item is counted nowhere, the other one is thrown away, and the shutdown succeeds. -/
theorem thrown_of_outburst : ∃ h t p, make hasty = .ok (ofSettings hasty : Pool Nat) ∧
    (ofSettings hasty).play calm 0 outburst = some (h, t, p) ∧
      ⟨4, .shutdown true, .running⟩ ∈ h.requests ∧ (4, .ended (.ok ())) ∈ h.answers ∧
      h.ends = [(1, .failed), (2, .burst)] ∧
      p.bench.processed = 0 ∧ p.bench.failed = 1 ∧ h.thrown = [3] := by
  have hplay : ((ofSettings hasty).play calm 0 outburst).map
      (fun w => (w.1.requests[4]?, w.1.answers[4]?, w.1.ends, w.2.2.bench.processed,
        w.2.2.bench.failed, w.1.thrown)) =
      some (some ⟨4, .shutdown true, .running⟩, some (4, .ended (.ok ())),
        [(1, .failed), (2, .burst)], 0, 1, [3]) := by
    rfl
  obtain ⟨h, t, p, hp, he⟩ := play_of_map hplay
  simp only [Prod.mk.injEq] at he
  obtain ⟨hasked, hok, hcounts⟩ := he
  exact ⟨h, t, p, rfl, hp, List.mem_of_getElem? hasked, List.mem_of_getElem? hok, hcounts⟩

/-- The handling of the first item that is left outlasts the shutdown. -/
def slowness : List (Instant × Action Nat) :=
  twoLeft ++ [(0, .member 0 .drain), (ofMillis 20, .resume 4),
    (ofMillis 1000, .member 0 (.handled .handled)), (ofMillis 1000, .member 0 .drain)]

/-- The other one is thrown away too, and the shutdown tells of a straggler. -/
theorem thrown_of_slowness : ∃ h t p, (ofSettings hasty).play calm 0 slowness = some (h, t, p) ∧
    (4, .ended (.error (.stragglers 1))) ∈ h.answers ∧
      h.ends = [(1, .failed), (2, .handled)] ∧ h.thrown = [3] := by
  have hplay : ((ofSettings hasty).play calm 0 slowness).map
      (fun w => (w.1.answers[4]?, w.1.ends, w.1.thrown)) =
      some (some (4, .ended (.error (.stragglers 1))), [(1, .failed), (2, .handled)], [3]) := by
    rfl
  obtain ⟨h, t, p, hp, he⟩ := play_of_map hplay
  simp only [Prod.mk.injEq] at he
  exact ⟨h, t, p, hp, List.mem_of_getElem? he.1, he.2⟩

end Backpressure.Pool
