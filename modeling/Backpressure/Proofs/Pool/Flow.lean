import Backpressure.Proofs.Pool.Deeds
import Backpressure.Proofs.Poller.Flow
import Mathlib.Algebra.GroupWithZero.Nat

/-!
# What flows through a pool

An item that a pool has accepted leaves the queue at its front.  It is handed to a
handler or thrown away, and what was handed to a handler is in the hands of a
member until its handling has ended.

`Pool.Flow` says so of a stretch of events with the pool before and after it.
Flows compose, and changes of the staff are flows in which nothing moves.  What is
seen of items is read off the events and compared with the counters.
-/

namespace Backpressure

variable {α : Type}

namespace PoolEvent

/-- The items that are handed to a handler. -/
def handed : PoolEvent α → List α
  | .poller _ e => e.itemBegun
  | _ => []

/-- The items whose handling ends. -/
def ended : PoolEvent α → List α
  | .poller _ e => e.itemEnded
  | _ => []

/-- The items whose handling ends without being counted. -/
def lost : PoolEvent α → List α
  | .poller _ e => e.itemLost
  | _ => []

/-- The items whose handling ends, with the way in which it does. -/
def ends : PoolEvent α → List (α × HandlerEnd)
  | .poller _ e => e.ends
  | _ => []

theorem map_fst_ends (e : PoolEvent α) : e.ends.map (·.1) = e.ended := by
  cases e with
  | poller i e => exact e.map_fst_ends
  | _ => rfl

theorem lost_of_ends {e : PoolEvent α} (h : e.ends = []) : e.lost = [] := by
  cases e with
  | poller i e => exact Poller.Event.itemLost_of_ends h
  | _ => rfl

/-- The items that are thrown away. -/
def thrown : PoolEvent α → List α
  | .discarded items => items
  | _ => []

/-- The items that leave the queue. -/
def taken (e : PoolEvent α) : List α := e.handed ++ e.thrown

end PoolEvent

namespace Pool

/-- The items that the members have in hand. -/
def inHand (p : Pool α) : List α := p.crew.flatMap fun m => m.poller.held

/-- The items that the members have handled well. -/
def ownProcessed (p : Pool α) : Nat := (p.crew.map fun m => m.poller.processed).sum

/-- What a pool does to the items that it has accepted. -/
structure Flow (p : Pool α) (es : List (PoolEvent α)) (q : Pool α) : Prop where
  /-- Items leave the queue at its front. -/
  items : p.bench.queue.items = es.flatMap PoolEvent.taken ++ q.bench.queue.items
  /-- What was in hand or was taken is in hand or has ended. -/
  hands : (p.inHand ++ es.flatMap PoolEvent.handed).Perm (q.inHand ++ es.flatMap PoolEvent.ended)
  /-- What has ended is counted or lost. -/
  counts : q.bench.processed + q.bench.failed + (es.flatMap PoolEvent.lost).length =
    p.bench.processed + p.bench.failed + (es.flatMap PoolEvent.ended).length
  /-- The members count what the bench counts as handled well. -/
  own : q.bench.processed + p.ownProcessed = p.bench.processed + q.ownProcessed
  /-- What is thrown away is counted. -/
  thrown : q.discarded = p.discarded + (es.flatMap PoolEvent.thrown).length
  /-- No offer is counted. -/
  offers : q.offered = p.offered ∧ q.rejected = p.rejected

variable {now : Instant} {p q r : Pool α} {o : PoolOutcome α} {c : CallId} {graceful : Bool}
  {afterStart : Option PoolError} {es fs : List (PoolEvent α)}

theorem Flow.refl (p : Pool α) : Flow p [] p := ⟨rfl, .refl _, rfl, rfl, rfl, rfl, rfl⟩

theorem Flow.trans (hf : Flow p es q) (hg : Flow q fs r) : Flow p (es ++ fs) r where
  items := by
    rw [hf.items, hg.items, List.flatMap_append, List.append_assoc]
  hands := by
    rw [List.flatMap_append, List.flatMap_append, ← List.append_assoc]
    refine (hf.hands.append_right _).trans ?_
    rw [List.append_assoc]
    refine (List.perm_append_comm.append_left _).trans ?_
    rw [← List.append_assoc]
    refine (hg.hands.append_right _).trans ?_
    rw [List.append_assoc]
    exact List.perm_append_comm.append_left _
  counts := by
    have hf := hf.counts
    have hg := hg.counts
    simp only [List.flatMap_append, List.length_append]
    omega
  own := by
    have hf := hf.own
    have hg := hg.own
    omega
  thrown := by
    rw [hg.thrown, hf.thrown, List.flatMap_append, List.length_append, Nat.add_assoc]
  offers := ⟨hg.offers.1.trans hf.offers.1, hg.offers.2.trans hf.offers.2⟩

/-- What changes neither items nor counters, and shows nothing of them, is a flow. -/
theorem Flow.aside (hq : q.bench.queue.items = p.bench.queue.items) (hh : q.inHand = p.inHand)
    (hc : q.bench.processed = p.bench.processed ∧ q.bench.failed = p.bench.failed)
    (ho : q.ownProcessed = p.ownProcessed)
    (hcount : q.discarded = p.discarded ∧ q.offered = p.offered ∧ q.rejected = p.rejected)
    (hes : ∀ e ∈ es, e.taken = [] ∧ e.ended = [] ∧ e.lost = []) : Flow p es q := by
  have htaken : es.flatMap PoolEvent.taken = [] := by
    rw [List.flatMap_eq_nil_iff]
    exact fun e he => (hes e he).1
  have hended : es.flatMap PoolEvent.ended = [] := by
    rw [List.flatMap_eq_nil_iff]
    exact fun e he => (hes e he).2.1
  have hlost : es.flatMap PoolEvent.lost = [] := by
    rw [List.flatMap_eq_nil_iff]
    exact fun e he => (hes e he).2.2
  have hhanded : es.flatMap PoolEvent.handed = [] := by
    rw [List.flatMap_eq_nil_iff]
    exact fun e he => (List.append_eq_nil_iff.mp (hes e he).1).1
  have hthrown : es.flatMap PoolEvent.thrown = [] := by
    rw [List.flatMap_eq_nil_iff]
    exact fun e he => (List.append_eq_nil_iff.mp (hes e he).1).2
  refine ⟨by simp [htaken, hq], by simp [hhanded, hended, hh], by simp [hended, hlost, hc],
    by simp [hc, ho], by simp [hthrown, hcount], hcount.2⟩

/-- Giving out a name is a flow. -/
theorem Flow.named (p : Pool α) : Flow p [] p.named :=
  .aside rfl rfl ⟨rfl, rfl⟩ rfl ⟨rfl, rfl, rfl⟩ (List.forall_mem_nil _)

/-- A change of one member is seen at one place of the crew. -/
theorem crew_split {i : MemberId} {m : Member α} (hm : p.crew[i]? = some m)
    (f : Member α → Member α) :
    ∃ front back, p.crew = front ++ m :: back ∧ p.crew.modify i f = front ++ f m :: back := by
  obtain ⟨hi, rfl⟩ := List.getElem?_eq_some_iff.mp hm
  refine ⟨p.crew.take i, p.crew.drop (i + 1), ?_, List.modify_eq_take_cons_drop hi⟩
  rw [← List.drop_eq_getElem_cons hi, List.take_append_drop]

/-- What a change of one member leaves alone in the member, it leaves alone in the crew. -/
theorem map_crew_modify {β : Type} {g : Member α → β} {f : Member α → Member α} (i : MemberId)
    (hf : ∀ m, g (f m) = g m) : (p.crew.modify i f).map g = p.crew.map g := by
  cases hm : p.crew[i]? with
  | none => rw [List.modify_eq_self (List.getElem?_eq_none_iff.mp hm)]
  | some m =>
      obtain ⟨front, back, hcrew, hmod⟩ := crew_split hm f
      rw [hmod, hcrew]
      simp [hf]

/-- The members keep what they have while one of them is told something. -/
theorem Flow.modify {f : Member α → Member α} (i : MemberId)
    (hh : ∀ m, (f m).poller.held = m.poller.held)
    (ho : ∀ m, (f m).poller.processed = m.poller.processed)
    (hes : ∀ e ∈ es, e.taken = [] ∧ e.ended = [] ∧ e.lost = []) : Flow p es (p.modifyMember i f) := by
  refine .aside rfl ?_ ⟨rfl, rfl⟩ ?_ ⟨rfl, rfl, rfl⟩ hes
  · simp only [inHand, modifyMember, List.flatMap_def]
    rw [map_crew_modify (g := fun m => m.poller.held) i hh]
  · simp only [ownProcessed, modifyMember]
    rw [map_crew_modify (g := fun m => m.poller.processed) i ho]

/-- Letting go of a member moves no item. -/
theorem Parting.flow (hp : Parting p es q) : Flow p es q := by
  cases hp with
  | tell i => exact .modify i (fun m => rfl) (fun m => rfl) (List.forall_mem_nil _)
  | dismiss i t name =>
      exact .modify i (fun m => rfl) (fun m => rfl) (List.forall_mem_singleton.mpr ⟨rfl, rfl, rfl⟩)

/-- Making a member, or moving the scaler, moves no item. -/
theorem Staffing.flow (hp : Staffing p es q) : Flow p es q := by
  cases hp with
  | part hp => exact hp.flow
  | hire name t =>
      refine .aside rfl ?_ ⟨rfl, rfl⟩ ?_ ⟨rfl, rfl, rfl⟩ (List.forall_mem_singleton.mpr ⟨rfl, rfl, rfl⟩)
      · simp [inHand, hired, Poller.fresh, Poller.held, Place.held]
      · simp [ownProcessed, hired, Poller.fresh]
  | refuse name =>
      exact .aside rfl rfl ⟨rfl, rfl⟩ rfl ⟨rfl, rfl, rfl⟩
        (List.forall_mem_singleton.mpr ⟨rfl, rfl, rfl⟩)
  | observe o =>
      exact .aside rfl rfl ⟨rfl, rfl⟩ rfl ⟨rfl, rfl, rfl⟩
        (List.forall_mem_singleton.mpr ⟨rfl, rfl, rfl⟩)
  | regroup active scaler =>
      exact .aside rfl rfl ⟨rfl, rfl⟩ rfl ⟨rfl, rfl, rfl⟩ (List.forall_mem_nil _)

theorem Chain.flow (hc : Chain Staffing p es q) : Flow p es q := by
  induction hc with
  | refl => exact .refl p
  | tail _ hs ih => exact ih.trans hs.flow

/-- The end of a call that is no offer is a flow. -/
theorem Flow.answer {x : PoolAnswer} (hf : Flow p o.events o.pool) :
    Flow p (answer o c x).events (answer o c x).pool := by
  refine hf.trans (.aside rfl rfl ⟨rfl, rfl⟩ rfl ⟨rfl, rfl, rfl⟩ ?_)
  exact List.forall_mem_singleton.mpr ⟨rfl, rfl, rfl⟩

theorem Flow.await {e : PoolErrand α} (hf : Flow p o.events o.pool) :
    Flow p (await o c e).events (await o c e).pool :=
  ⟨hf.items, hf.hands, hf.counts, hf.own, hf.thrown, hf.offers⟩

theorem Flow.after {o' : PoolOutcome α} (hf : Flow p o.events o.pool)
    (hg : Flow o.pool o'.events o'.pool) :
    Flow p (o'.after o.events).events (o'.after o.events).pool := hf.trans hg

/-- What is thrown away is counted as discarded. -/
theorem discardAll_flow : Flow p p.discardAll.events p.discardAll.pool := by
  refine ⟨?_, ?_, rfl, rfl, ?_, rfl, rfl⟩
  · simp [discardAll, Queue.closeAndClear, PoolEvent.taken, PoolEvent.handed, PoolEvent.thrown]
  · simp [discardAll, PoolEvent.handed, PoolEvent.ended, inHand]
  · simp [discardAll, PoolEvent.thrown, Queue.closeAndClear, Queue.length, Queue.close, Queue.sealUp]

theorem sealed_flow : Flow p (p.sealed graceful).events (p.sealed graceful).pool := by
  have hseal : Flow p [] { p with bench :=
      { p.bench with queue := p.bench.queue.sealUp, drainOnStop := graceful } } :=
    .aside rfl rfl ⟨rfl, rfl⟩ rfl ⟨rfl, rfl, rfl⟩ (List.forall_mem_nil _)
  cases graceful with
  | true => exact hseal
  | false => exact hseal.trans discardAll_flow

theorem closed_flow : Flow p p.closed.events p.closed.pool := by
  have hf := discardAll_flow (p := p)
  exact ⟨hf.items, hf.hands, hf.counts, hf.own, hf.thrown, hf.offers⟩

theorem retireAll_flow (pending : List (MemberId × Instant)) (n : Nat) :
    Flow p (p.retireAll now c graceful afterStart pending n).events
      (p.retireAll now c graceful afterStart pending n).pool := by
  have hswept := (sweep_chain now pending n p).staffing.flow
  by_cases hl : pending.filter (p.waitsFor now) = []
  · rw [retireAll_of_nil hl]
    exact (hswept.after closed_flow).answer
  · rw [retireAll_of_ne_nil hl]
    exact hswept.await

/-- Taking out the crew throws away what an abrupt shutdown finds, and moves no other item. -/
theorem retireCrew_flow :
    Flow p (p.retireCrew now c graceful afterStart).events
      (p.retireCrew now c graceful afterStart).pool := by
  rw [retireCrew_eq]
  have hdisbanded : Flow (p.sealed graceful).pool [] (p.sealed graceful).pool.disbanded :=
    ((Chain.single (.regroup [] _)).trans disbanded_chain.staffing).flow
  exact sealed_flow.trans (hdisbanded.trans (retireAll_flow _ _))

theorem perm_append_right_last (front held back last : List α) :
    (front ++ (held ++ back) ++ last).Perm (front ++ ((held ++ last) ++ back)) := by
  simp only [List.append_assoc]
  exact (List.perm_append_comm.append_left held).append_left front

/-- What a member does is a flow. -/
theorem member_flow {i : MemberId} {m : Member α} {es : List (Poller.Event α)} {w : Poller α}
    {b : Bench α} (hm : p.crew[i]? = some m) (hf : Poller.Flow m.poller p.bench es w b) :
    Flow p (es.map (.poller i))
      { p.modifyMember i fun m => { m with poller := w } with bench := b } := by
  obtain ⟨front, back, hcrew, hmod⟩ := crew_split hm fun m => { m with poller := w }
  have hhanded : (es.map (PoolEvent.poller i)).flatMap PoolEvent.handed =
      es.flatMap Poller.Event.itemBegun := by
    rw [List.flatMap_map]
    rfl
  have hended : (es.map (PoolEvent.poller i)).flatMap PoolEvent.ended =
      es.flatMap Poller.Event.itemEnded := by
    rw [List.flatMap_map]
    rfl
  have hlost : (es.map (PoolEvent.poller i)).flatMap PoolEvent.lost =
      es.flatMap Poller.Event.itemLost := by
    rw [List.flatMap_map]
    rfl
  have hthrown : (es.map (PoolEvent.poller i)).flatMap PoolEvent.thrown = [] := by
    simp [List.flatMap_map, PoolEvent.thrown]
  have htaken : (es.map (PoolEvent.poller i)).flatMap PoolEvent.taken =
      es.flatMap Poller.Event.itemBegun := by
    simp [List.flatMap_map, PoolEvent.taken, PoolEvent.thrown, PoolEvent.handed]
  refine ⟨?_, ?_, ?_, ?_, ?_, rfl, rfl⟩
  · rw [htaken]
    exact hf.items
  · simp only [inHand, modifyMember, hmod, hhanded, hended]
    rw [hcrew]
    simp only [List.flatMap_append, List.flatMap_cons]
    exact ((perm_append_right_last _ _ _ _).trans ((hf.hands.append_right _).append_left _)).trans
      (perm_append_right_last _ _ _ _).symm
  · rw [hlost, hended]
    exact hf.counts
  · have hown := hf.own
    simp only [ownProcessed, modifyMember, hmod]
    rw [hcrew]
    simp only [List.map_append, List.map_cons, List.sum_append, List.sum_cons]
    omega
  · simp [hthrown, modifyMember]

theorem flush_flow :
    Flow p [] { p with crew := p.crew.map fun m => { m with poller := m.poller.nudge } } := by
  refine .aside rfl ?_ ⟨rfl, rfl⟩ ?_ ⟨rfl, rfl, rfl⟩ (List.forall_mem_nil _)
  · simp [inHand, List.flatMap_map]
  · simp [ownProcessed, Function.comp_def]

end Pool

end Backpressure
