import Backpressure.Proofs.Pool.Docket
import Backpressure.Proofs.Pool.Ends
import Mathlib.Data.List.Perm.Basic

/-!
# No item is lost

An item that is accepted is queued, then in the hands of a member or thrown away,
and at last handled.  The ledger of a run compares what was seen of the items with
the counters of the pool.

*Offers.*  The end of an offer puts its item at the end of the queue and counts
it, or counts it as refused.  The items are read off what the callers asked, and
every other deed is a flow.

*Losses.*  An item is lost to the counters when its handler panics before there is
anything to wait for.  A tame run has no such panic, so its books balance.
-/

namespace Backpressure.Pool

variable {α : Type}

/-- The item that a request offers, with the name of the call. -/
def Request.offer? (r : Request α) : Option (CallId × α) :=
  match r.asked with
  | .offer item _ => some (r.call, item)
  | _ => none

/-- The offer that an answer settles in one way, among the offers that were made. -/
def settledOffer? (offers : List (CallId × α)) (ok : Bool) : CallId × PoolAnswer → Option (CallId × α)
  | (c, .offered b) => if b = ok then (offers.lookup c).map fun item => (c, item) else none
  | (_, .ended _) => none

namespace History

variable (h : History α)

/-- The items that were offered, with the names of the calls. -/
def offers : List (CallId × α) := h.requests.filterMap Request.offer?

/-- The offers that were settled in one way, in the order of their answers. -/
def settled (ok : Bool) : List (CallId × α) := h.answers.filterMap (settledOffer? h.offers ok)

/-- The offers that were accepted. -/
def accepted : List (CallId × α) := h.settled true

/-- The offers that were refused. -/
def refused : List (CallId × α) := h.settled false

/-- The items that left the queue, in order. -/
def taken : List α := h.events.flatMap PoolEvent.taken

/-- The items that were handed to a handler. -/
def handed : List α := h.events.flatMap PoolEvent.handed

/-- The items that were thrown away. -/
def thrown : List α := h.events.flatMap PoolEvent.thrown

/-- The items whose handling has ended. -/
def ended : List α := h.events.flatMap PoolEvent.ended

/-- The items whose handling has ended without being counted. -/
def lost : List α := h.events.flatMap PoolEvent.lost

end History

variable {env : Surroundings α} {now : Instant} {p q : Pool α} {a : Action α} {o : PoolOutcome α}
  {c : CallId} {graceful : Bool} {afterStart : Option PoolError} {h : History α} {item : α}

/-! ## Offers -/

theorem mem_offers :
    (c, item) ∈ h.offers ↔ ∃ r ∈ h.requests, r.call = c ∧ ∃ wait, r.asked = .offer item wait := by
  simp only [History.offers, List.mem_filterMap, Request.offer?]
  constructor
  · rintro ⟨r, hr, ho⟩
    split at ho
    · next item' wait ha =>
        cases ho
        exact ⟨r, hr, rfl, wait, ha⟩
    · cases ho
  · rintro ⟨r, hr, rfl, wait, ha⟩
    exact ⟨r, hr, by rw [ha]⟩

/-- The item of a call is the one that was asked for. -/
theorem Docket.lookup_offers (hd : Docket h p) (ho : (c, item) ∈ h.offers) :
    h.offers.lookup c = some item := by
  cases hl : h.offers.lookup c with
  | none =>
      rw [List.lookup_eq_none_iff] at hl
      simpa using hl _ ho
  | some item' =>
      obtain ⟨r, hr, hc, wait, ha⟩ := mem_offers.mp ho
      obtain ⟨r', hr', hc', wait', ha'⟩ := mem_offers.mp (mem_of_lookup hl)
      rw [hd.request_unique hr hr' (hc.trans hc'.symm), ha'] at ha
      cases ha
      rfl

theorem mem_settled {ok : Bool} : (c, item) ∈ h.settled ok ↔
    (c, .offered ok) ∈ h.answers ∧ h.offers.lookup c = some item := by
  simp only [History.settled, List.mem_filterMap, settledOffer?]
  constructor
  · rintro ⟨⟨c', x⟩, hx, hs⟩
    split at hs
    · next c'' b he =>
        cases he
        split at hs
        · next hb =>
            obtain ⟨item', hl, he⟩ := Option.map_eq_some_iff.mp hs
            cases he
            exact ⟨hb ▸ hx, hl⟩
        · cases hs
    · cases hs
  · rintro ⟨hx, hl⟩
    exact ⟨_, hx, by simp [hl]⟩

/-- An offer that is settled was made. -/
theorem mem_offers_of_settled {ok : Bool} {w : CallId × α} (hw : w ∈ h.settled ok) : w ∈ h.offers :=
  mem_of_lookup (mem_settled.mp hw).2

/-- The offer of a step is that of a new call. -/
theorem fst_of_mem_offers_ofStep {w : CallId × α} (hw : w ∈ (History.ofStep p a o).offers) :
    w.1 = p.nextCall := by
  obtain ⟨r, hr, hc, -⟩ := mem_offers.mp (show (w.1, w.2) ∈ _ from hw)
  rw [History.requests_ofStep, Option.mem_toList] at hr
  rw [← hc]
  cases a <;> cases hr <;> rfl

/-- A step makes no offer in the name of an earlier call. -/
theorem lookup_offers_append (hc : c < p.nextCall) :
    (h ++ .ofStep p a o).offers.lookup c = h.offers.lookup c := by
  have hnew : (History.ofStep p a o).offers.lookup c = none := by
    rw [List.lookup_eq_none_iff]
    intro w hw
    rw [fst_of_mem_offers_ofStep hw]
    exact bne_iff_ne.mpr (Nat.ne_of_lt hc)
  rw [History.offers, History.requests_append, List.filterMap_append, List.lookup_append]
  rw [History.offers] at hnew
  rw [hnew, Option.or_none]
  rfl

/-- What was settled stays settled. -/
theorem Docket.settled_append (hd : Docket h p) (ok : Bool) :
    (h ++ .ofStep p a o).settled ok = h.settled ok ++
      (answersIn o.events).filterMap (settledOffer? (h ++ .ofStep p a o).offers ok) := by
  rw [History.settled, History.answers_append, History.answers_ofStep, List.filterMap_append]
  congr 1
  refine List.filterMap_congr fun w hw => ?_
  have hlt := hd.lt_nextCall (List.mem_append_left _ (List.mem_map_of_mem (f := (·.1)) hw))
  obtain ⟨c, x⟩ := w
  cases x with
  | offered b => rw [settledOffer?, settledOffer?, lookup_offers_append hlt]
  | ended result => rfl

/-! ## The ledger -/

/-- The events and the counters agree. -/
structure Ledger (h : History α) (p : Pool α) : Prop where
  /-- What was accepted has left the queue or is in it, in this order. -/
  order : h.accepted.map (·.2) = h.taken ++ p.bench.queue.items
  /-- What was handed to a handler is in hand or has ended. -/
  hands : h.handed.Perm (p.inHand ++ h.ended)
  /-- What has ended is counted or lost. -/
  counts : p.bench.processed + p.bench.failed + h.lost.length = h.ended.length
  /-- The members count what the bench counts as handled well. -/
  own : p.bench.processed = p.ownProcessed
  /-- What was thrown away is counted. -/
  thrown : p.discarded = h.thrown.length
  /-- What was accepted is counted. -/
  accepted : p.offered = h.accepted.length
  /-- What was refused is counted. -/
  refused : p.rejected = h.refused.length

theorem Ledger.first (s : PoolSettings) : Ledger {} (ofSettings s : Pool α) :=
  ⟨rfl, .refl _, rfl, rfl, rfl, rfl, rfl⟩

/-- How the end of an offer changes the pool. -/
structure Settles (p : Pool α) (c : CallId) (item : α) (ok : Bool) (o : PoolOutcome α) : Prop where
  /-- All that can be seen is the answer, perhaps after a refusal. -/
  events : o.events = [.answered c (.offered ok)] ∨
    o.events = [.turnedAway, .answered c (.offered ok)]
  /-- An item that is accepted enters the queue at its end. -/
  items : o.pool.bench.queue.items = p.bench.queue.items ++ if ok then [item] else []
  /-- The members go on as they were. -/
  crew : o.pool.crew = p.crew
  /-- Nothing else is counted. -/
  counts : o.pool.bench.processed = p.bench.processed ∧ o.pool.bench.failed = p.bench.failed ∧
    o.pool.discarded = p.discarded
  /-- What is accepted is counted. -/
  offered : o.pool.offered = p.offered + if ok then 1 else 0
  /-- What is refused is counted. -/
  rejected : o.pool.rejected = p.rejected + if ok then 0 else 1

/-- A flow that settles no offer keeps the ledger. -/
theorem Ledger.flow (hl : Ledger h p) (hd : Docket h p) (hf : Flow p o.events o.pool)
    (hx : ∀ w ∈ answersIn o.events, ∃ result, w.2 = .ended result) :
    Ledger (h ++ .ofStep p a o) o.pool := by
  have hsettled : ∀ ok, (h ++ .ofStep p a o).settled ok = h.settled ok := by
    intro ok
    rw [hd.settled_append ok, List.filterMap_eq_nil_iff.mpr, List.append_nil]
    rintro ⟨c, x⟩ hw
    obtain ⟨result, rfl⟩ := hx _ hw
    rfl
  have haccepted : (h ++ .ofStep p a o).accepted = h.accepted := hsettled true
  have hrefused : (h ++ .ofStep p a o).refused = h.refused := hsettled false
  refine ⟨?_, ?_, ?_, ?_, ?_, ?_, ?_⟩
  · rw [haccepted, hl.order, hf.items]
    simp [History.taken]
  · have hhands : (h ++ .ofStep p a o).handed.Perm
        (p.inHand ++ h.ended ++ o.events.flatMap PoolEvent.handed) := by
      simpa [History.handed] using hl.hands.append_right (o.events.flatMap PoolEvent.handed)
    have hended : (h ++ .ofStep p a o).ended = h.ended ++ o.events.flatMap PoolEvent.ended := by
      simp [History.ended]
    rw [hended]
    refine hhands.trans ?_
    rw [List.append_assoc]
    refine (List.perm_append_comm.append_left _).trans ?_
    rw [← List.append_assoc]
    refine (hf.hands.append_right _).trans ?_
    rw [List.append_assoc]
    exact List.perm_append_comm.append_left _
  · have hcounts := hf.counts
    have hold := hl.counts
    simp only [History.lost, History.ended, History.events_append, History.events_ofStep,
      List.flatMap_append, List.length_append] at hold ⊢
    omega
  · have hown := hf.own
    have hold := hl.own
    omega
  · rw [hf.thrown, hl.thrown]
    simp [History.thrown]
  · rw [hf.offers.1, hl.accepted, haccepted]
  · rw [hf.offers.2, hl.refused, hrefused]

/-- The end of an offer keeps the ledger. -/
theorem Ledger.settle {ok : Bool} (hl : Ledger h p) (hd : Docket h p)
    (hd' : Docket (h ++ .ofStep p a o) o.pool) (ho : (c, item) ∈ (h ++ .ofStep p a o).offers)
    (hs : Settles p c item ok o) : Ledger (h ++ .ofStep p a o) o.pool := by
  have hanswers : answersIn o.events = [(c, .offered ok)] := by
    rcases hs.events with he | he <;> rw [he] <;> rfl
  have hsettled : ∀ b, (h ++ .ofStep p a o).settled b =
      h.settled b ++ if ok = b then [(c, item)] else [] := by
    intro b
    rw [hd.settled_append b, hanswers]
    split
    · next hb => simp [settledOffer?, hb, hd'.lookup_offers ho]
    · next hb => simp [settledOffer?, hb]
  have hquiet : o.events.flatMap PoolEvent.taken = [] ∧ o.events.flatMap PoolEvent.handed = [] ∧
      o.events.flatMap PoolEvent.thrown = [] ∧ o.events.flatMap PoolEvent.ended = [] ∧
      o.events.flatMap PoolEvent.lost = [] := by
    rcases hs.events with he | he <;> rw [he] <;> exact ⟨rfl, rfl, rfl, rfl, rfl⟩
  obtain ⟨htaken, hhanded, hthrown, hended, hlost⟩ := hquiet
  have hinHand : o.pool.inHand = p.inHand := by rw [inHand, hs.crew, inHand]
  have haccepted : (h ++ .ofStep p a o).accepted =
      h.accepted ++ if ok = true then [(c, item)] else [] := hsettled true
  have hrefused : (h ++ .ofStep p a o).refused =
      h.refused ++ if ok = false then [(c, item)] else [] := hsettled false
  refine ⟨?_, ?_, ?_, ?_, ?_, ?_, ?_⟩
  · rw [haccepted, hs.items, ← List.append_assoc, History.taken]
    simp only [History.events_append, History.events_ofStep, List.flatMap_append, htaken]
    rw [List.append_nil, ← History.taken, ← hl.order]
    cases ok <;> simp
  · simpa [History.handed, History.ended, hhanded, hended, hinHand] using hl.hands
  · simpa [History.lost, History.ended, hlost, hended, hs.counts] using hl.counts
  · rw [hs.counts.1, hl.own, ownProcessed, ownProcessed, hs.crew]
  · rw [hs.counts.2.2, hl.thrown]
    simp [History.thrown, hthrown]
  · rw [hs.offered, hl.accepted, haccepted]
    cases ok <;> simp
  · rw [hs.rejected, hl.refused, hrefused]
    cases ok <;> simp

/-! ## The ledger is kept -/

theorem asked_of_offer {t : Ticket} {deadline : Instant} {b : Action α}
    (hb : (PoolErrand.offer item t deadline).Concerns b) : ∃ wait, b = .offer item wait := by
  cases b with
  | offer item' wait =>
      obtain ⟨_, _, he⟩ := hb
      cases he
      exact ⟨wait, rfl⟩
  | start =>
      obtain ⟨_, _, he⟩ := hb
      cases he
  | shutdown g =>
      obtain ⟨_, he⟩ := hb
      cases he
  | resume _ | flush | member _ _ | scaler _ => exact hb.elim

theorem mem_offers_new (item : α) (wait : Duration) :
    (p.nextCall, item) ∈ (h ++ .ofStep p (.offer item wait) o).offers :=
  mem_offers.mpr ⟨⟨p.nextCall, .offer item wait, p.phase⟩,
    List.mem_append_right _ (List.mem_singleton_self _), rfl, wait, rfl⟩

theorem Offering.mem_offers {p' : Pool α} (ho : Offering p a c item p') (hd : Docket h p) :
    (c, item) ∈ (h ++ .ofStep p a o).offers := by
  cases ho with
  | new hp => exact mem_offers_new item _
  | waited hc =>
      obtain ⟨r, hr, hcall, hcon⟩ := hd.concerns _ (mem_of_lookup hc)
      exact Pool.mem_offers.mpr ⟨r, List.mem_append_left _ hr, hcall, asked_of_offer hcon⟩

theorem Offering.settles_accepted {p' : Pool α} {slots : Permits} (ho : Offering p a c item p') :
    Settles p c item true
      ({ p' with bench.queue := { p.bench.queue with slots }.push item }.endOffer c true) := by
  cases ho <;> exact ⟨.inl rfl, rfl, rfl, ⟨rfl, rfl, rfl⟩, rfl, rfl⟩

theorem Offering.settles_returned {p' : Pool α} {slots : Permits} (ho : Offering p a c item p') :
    Settles p c item false
      ({ p' with bench.queue := { p.bench.queue with slots } }.endOffer c false) := by
  cases ho <;> exact ⟨.inr rfl, (List.append_nil _).symm, rfl, ⟨rfl, rfl, rfl⟩, rfl, rfl⟩

theorem started_flow {n : Nat} {error : Option PoolError}
    (hs : spawnMany env now n { p.named with phase := .running } = (error, o)) :
    Flow p o.events o.pool := by
  have hrunning : Flow p [] { p.named with phase := .running } :=
    .aside rfl rfl ⟨rfl, rfl⟩ rfl ⟨rfl, rfl, rfl⟩ (List.forall_mem_nil _)
  exact hrunning.trans (spawnMany_chain hs).flow

theorem Opening.flow {p' : Pool α} {es : List (PoolEvent α)}
    (ho : Opening env now p a c graceful afterStart es p') : Flow p es p'.draining := by
  cases ho with
  | asked hp => exact .aside rfl rfl ⟨rfl, rfl⟩ rfl ⟨rfl, rfl, rfl⟩ (List.forall_mem_nil _)
  | failed hp hs =>
      have hf := started_flow hs
      exact ⟨hf.items, hf.hands, hf.counts, hf.own, hf.thrown, hf.offers⟩

/-- A flow with the end of a call that is no offer keeps the ledger. -/
theorem Ledger.answer {result : Except PoolError Unit} (hl : Ledger h p) (hd : Docket h p)
    (hf : Flow p o.events o.pool) (hx : answersIn o.events = []) :
    Ledger (h ++ .ofStep p a (Pool.answer o c (.ended result)))
      (Pool.answer o c (.ended result)).pool := by
  refine hl.flow hd hf.answer ?_
  intro w hw
  simp only [Pool.answer, answersIn_append, hx, List.nil_append, answersIn_answered,
    List.mem_singleton] at hw
  exact ⟨result, by rw [hw]⟩

/-- Every step keeps the ledger. -/
theorem Ledger.keep (hl : Ledger h p) (hd : Docket h p) (he : Ends p)
    (hs : p.step env now a = some o) : Ledger (h ++ .ofStep p a o) o.pool := by
  have hd' := hd.keep hs
  cases step_deed hs with
  | spurned hp =>
      refine hl.settle hd hd' (mem_offers_new _ _) (?_ : Settles p _ _ false _)
      exact ⟨.inl rfl, (List.append_nil _).symm, rfl, ⟨rfl, rfl, rfl⟩, rfl, rfl⟩
  | accepted ho hq hs => exact hl.settle hd hd' (ho.mem_offers hd) ho.settles_accepted
  | returned ho hs => exact hl.settle hd hd' (ho.mem_offers hd) ho.settles_returned
  | queued hp hs =>
      refine hl.flow hd (.aside rfl rfl ⟨rfl, rfl⟩ rfl ⟨rfl, rfl, rfl⟩ ?_) (List.forall_mem_nil _)
      exact List.forall_mem_nil _
  | followed hf hr =>
      cases hf with
      | new hp => exact hl.answer hd (.named p) rfl
      | waited hc => exact hl.answer hd (.refl p) rfl
  | follows hp => exact hl.flow hd (Flow.await (.named p)) (List.forall_mem_nil _)
  | abandoned hp =>
      refine hl.answer hd (.aside ?_ rfl ⟨rfl, rfl⟩ rfl ⟨rfl, rfl, rfl⟩ ?_) rfl
      · exact (he.created hp).items_eq.symm
      · exact List.forall_mem_nil _
  | opens ho hw =>
      refine hl.flow hd (ho.flow.trans (Flow.await (.refl _))) ?_
      simp [PoolOutcome.after, Pool.await, ho.answersIn_eq]
  | rushes ho hw =>
      refine hl.flow hd (ho.flow.trans retireCrew_flow) ?_
      simpa [PoolOutcome.after, ho.answersIn_eq] using retireCrew_reply.ended
  | gathers hc hw => exact hl.flow hd retireCrew_flow retireCrew_reply.ended
  | sweeps hc => exact hl.flow hd (retireAll_flow _ _) (retireAll_reply _ _).ended
  | restarted hp => exact hl.answer hd (.named p) rfl
  | @started o' scaler hp hs' hw =>
      have hf := started_flow hs'
      refine hl.answer (o := { o' with pool.scaler := scaler }) hd ?_ (spawnMany_chain hs').answersIn_eq
      exact ⟨hf.items, hf.hands, hf.counts, hf.own, hf.thrown, hf.offers⟩
  | stuck hp hs' hw => exact hl.answer hd (started_flow hs') (spawnMany_chain hs').answersIn_eq
  | flushed => exact hl.flow hd flush_flow (List.forall_mem_nil _)
  | member hm hs' =>
      refine hl.flow hd (member_flow hm (Poller.step_deed hs').flow) ?_
      rw [answersIn_poller]
      exact List.forall_mem_nil _
  | scaler hs' =>
      have hchain := scalerStep_chain hs'
      refine hl.flow hd hchain.flow ?_
      rw [hchain.answersIn_eq]
      exact List.forall_mem_nil _

/-- The ledger is kept along every run of a new pool. -/
theorem Run.ledger {R : Regime α} {t₀ t : Instant} {s : PoolSettings}
    (run : Run R t₀ (ofSettings s) h t p) : Ledger h p := by
  induction run with
  | here => exact .first s
  | act run ha hs ih => exact ih.keep run.docket run.ends hs
  | pass _ _ ih => exact ih

/-! ## Losses -/

theorem Chain.ends_eq {es : List (PoolEvent α)} (hc : Chain Staffing p es q) :
    es.flatMap PoolEvent.ends = [] := by
  induction hc with
  | refl => rfl
  | tail _ hc ih =>
      rw [List.flatMap_append, ih]
      cases hc with
      | part hc => cases hc <;> rfl
      | hire name t => rfl
      | refuse name => rfl
      | observe o => rfl
      | regroup active scaler => rfl

theorem retireAll_ends_eq (pending : List (MemberId × Instant)) (n : Nat) :
    (p.retireAll now c graceful afterStart pending n).events.flatMap PoolEvent.ends = [] := by
  have hswept := (sweep_chain now pending n p).staffing.ends_eq
  by_cases hl : pending.filter (p.waitsFor now) = []
  · rw [retireAll_of_nil hl]
    simp [endShutdown, Pool.answer, PoolOutcome.after, closed, discardAll, hswept, PoolEvent.ends]
  · rw [retireAll_of_ne_nil hl]
    exact hswept

theorem retireCrew_ends_eq :
    (p.retireCrew now c graceful afterStart).events.flatMap PoolEvent.ends = [] := by
  rw [retireCrew_eq, PoolOutcome.after, List.flatMap_append, retireAll_ends_eq, List.append_nil]
  cases graceful <;> rfl

theorem Opening.ends_eq {p' : Pool α} {es : List (PoolEvent α)}
    (ho : Opening env now p a c graceful afterStart es p') : es.flatMap PoolEvent.ends = [] := by
  cases ho with
  | asked hp => rfl
  | failed hp hs => exact (spawnMany_chain hs).ends_eq

/-- Only members handle items. -/
theorem Deed.ends_eq (hs : Deed env now p a o) (ha : ∀ i b, a ≠ .member i b) :
    o.events.flatMap PoolEvent.ends = [] := by
  cases hs with
  | spurned | accepted | returned | queued | followed | follows | abandoned | restarted
  | flushed => rfl
  | opens ho hw => simp [PoolOutcome.after, Pool.await, ho.ends_eq]
  | rushes ho hw => simp [PoolOutcome.after, ho.ends_eq, retireCrew_ends_eq]
  | gathers => exact retireCrew_ends_eq
  | sweeps => exact retireAll_ends_eq _ _
  | started hp hs' hw | stuck hp hs' hw =>
      simp [Pool.answer, (spawnMany_chain hs').ends_eq, PoolEvent.ends]
  | member => exact absurd rfl (ha _ _)
  | scaler hs' => exact (scalerStep_chain hs').ends_eq

/-- A tame step loses nothing. -/
theorem lost_eq_nil (ha : a.IsTame) (hs : p.step env now a = some o) :
    o.events.flatMap PoolEvent.lost = [] := by
  by_cases hmember : ∃ i b, a = .member i b
  · obtain ⟨i, b, rfl⟩ := hmember
    obtain ⟨m, o', -, hs', rfl⟩ := memberStep_eq_some.mp hs
    have hb : b ≠ .handled .burst := by
      rintro rfl
      exact ha
    rw [acted, List.flatMap_map]
    exact Poller.itemLost_of_ne_burst hb hs'
  · have hends := (step_deed hs).ends_eq fun i b he => hmember ⟨i, b, he⟩
    rw [List.flatMap_eq_nil_iff] at hends ⊢
    exact fun e he => PoolEvent.lost_of_ends (hends e he)

/-- A tame run loses nothing. -/
theorem Run.lost_eq {t₀ t : Instant} {p₀ : Pool α} (run : Run .tame t₀ p₀ h t p) : h.lost = [] := by
  induction run with
  | here => rfl
  | act _ ha hs ih =>
      rw [History.lost, History.events_append, List.flatMap_append, ← History.lost, ih]
      exact lost_eq_nil ha hs
  | pass _ _ ih => exact ih

/-! ## The balance -/

/-- What callers are told, what is seen of items and what the pool counts agree. -/
structure Balanced (h : History α) (p : Pool α) : Prop where
  /-- No call is answered twice. -/
  once : (h.answers.map (·.1)).Nodup
  /-- An offer that is answered is either accepted or refused, with the item that was offered. -/
  settles : ∀ r ∈ h.requests, ∀ item wait, r.asked = .offer item wait →
    ∀ x, (r.call, x) ∈ h.answers →
      x = .offered true ∧ (r.call, item) ∈ h.accepted ∨
        x = .offered false ∧ (r.call, item) ∈ h.refused
  /-- The accepted offers are counted. -/
  offered : p.offered = h.accepted.length
  /-- The refused offers are counted. -/
  rejected : p.rejected = h.refused.length
  /-- Each accepted item is queued, in hand, counted as handled, or thrown away. -/
  conserved : p.offered = p.bench.queue.length + p.inHand.length + p.bench.processed +
    p.bench.failed + p.discarded
  /-- The items leave the queue in the order in which they were accepted. -/
  fifo : h.accepted.map (·.2) = h.taken ++ p.bench.queue.items
  /-- An item that leaves the queue is handed to a handler or thrown away, and not both. -/
  split : h.taken.Perm (h.handed ++ h.thrown)
  /-- An item that is handed to a handler is in hand or has been handled. -/
  hands : h.handed.Perm (p.inHand ++ h.ended)
  /-- Items that can be told apart are handed to a handler or thrown away at most once,
  and never handed to a handler once they were refused. -/
  distinct : (h.offers.map (·.2)).Nodup →
    (h.handed ++ h.thrown).Nodup ∧ ∀ w ∈ h.refused, w.2 ∉ h.handed
  /-- The pool counts as handled well what its members do, those included that have left. -/
  own : p.bench.processed = (p.crew.map fun m => m.poller.processed).sum
  /-- Nothing is left once the pool is stopped, and nothing gets in. -/
  stopped : p.phase = .stopped → p.Shut

theorem taken_perm : h.taken.Perm (h.handed ++ h.thrown) :=
  (List.flatMap_append_perm h.events PoolEvent.handed PoolEvent.thrown).symm

theorem fst_of_settledOffer? {offers : List (CallId × α)} {ok : Bool} {w : CallId × PoolAnswer}
    {v : CallId × α} (h : settledOffer? offers ok w = some v) : v.1 = w.1 := by
  simp only [settledOffer?] at h
  split at h
  · split at h
    · obtain ⟨item, -, rfl⟩ := Option.map_eq_some_iff.mp h
      rfl
    · cases h
  · cases h

/-- No offer is settled twice. -/
theorem Docket.nodup_settled (hd : Docket h p) (ok : Bool) : ((h.settled ok).map (·.1)).Nodup := by
  have hanswers := List.pairwise_map.mp (List.nodup_append.mp hd.nodup).1
  refine List.pairwise_map.mpr (hanswers.filterMap _ ?_)
  intro w w' hne v hv v' hv'
  rw [fst_of_settledOffer? hv, fst_of_settledOffer? hv']
  exact hne

/-- An offer that is answered is accepted or refused. -/
theorem Docket.settles (hd : Docket h p) {r : Request α} {wait : Duration} {x : PoolAnswer}
    (hr : r ∈ h.requests) (ha : r.asked = .offer item wait) (hx : (r.call, x) ∈ h.answers) :
    x = .offered true ∧ (r.call, item) ∈ h.accepted ∨
      x = .offered false ∧ (r.call, item) ∈ h.refused := by
  have hlookup := hd.lookup_offers (mem_offers.mpr ⟨r, hr, rfl, wait, ha⟩)
  obtain ⟨r', hr', hcall, hgets⟩ := hd.gets _ hx
  rw [hd.request_unique hr' hr hcall, ha] at hgets
  cases x with
  | offered ok =>
      cases ok with
      | true => exact .inl ⟨rfl, mem_settled.mpr ⟨hx, hlookup⟩⟩
      | false => exact .inr ⟨rfl, mem_settled.mpr ⟨hx, hlookup⟩⟩
  | ended result => exact hgets.elim

/-- Items that can be told apart leave the queue once. -/
theorem Ledger.nodup_taken (hl : Ledger h p) (hd : Docket h p) (hn : (h.offers.map (·.2)).Nodup) :
    h.taken.Nodup := by
  have haccepted : (h.accepted.map (·.2)).Nodup := by
    refine (List.Nodup.of_map _ (hd.nodup_settled true)).map_on ?_
    intro v hv w hw he
    exact List.inj_on_of_nodup_map hn (mem_offers_of_settled hv) (mem_offers_of_settled hw) he
  rw [hl.order] at haccepted
  exact (List.nodup_append.mp haccepted).1

/-- Items that can be told apart are never handed to a handler once they were refused. -/
theorem Ledger.not_handed_of_refused (hl : Ledger h p) (hd : Docket h p)
    (hn : (h.offers.map (·.2)).Nodup) {w : CallId × α} (hw : w ∈ h.refused) : w.2 ∉ h.handed := by
  intro hmem
  have htaken : w.2 ∈ h.accepted.map (·.2) := by
    rw [hl.order]
    exact List.mem_append_left _ (taken_perm.mem_iff.mpr (List.mem_append_left _ hmem))
  obtain ⟨v, hv, he⟩ := List.mem_map.mp htaken
  have hvw := List.inj_on_of_nodup_map hn (mem_offers_of_settled hv) (mem_offers_of_settled hw) he
  subst hvw
  have hunique := hd.answer_unique (mem_settled.mp hv).1 (mem_settled.mp hw).1
  cases hunique

/-- Each accepted item is queued, in hand, counted, lost, or thrown away. -/
theorem Ledger.offered_eq (hl : Ledger h p) :
    p.offered = p.bench.queue.length + p.inHand.length + p.bench.processed + p.bench.failed +
      h.lost.length + p.discarded := by
  have horder := congrArg List.length hl.order
  have htaken := (taken_perm (h := h)).length_eq
  have hhands := hl.hands.length_eq
  have hcounts := hl.counts
  have hthrown := hl.thrown
  have haccepted := hl.accepted
  rw [List.length_map, List.length_append] at horder
  rw [List.length_append] at htaken hhands
  rw [Queue.length]
  omega

/-- The books of a tame run balance, at every moment and in every order of steps. -/
theorem Run.balanced {t₀ t : Instant} {s : PoolSettings}
    (run : Run .tame t₀ (ofSettings s) h t p) : Balanced h p where
  once := (List.nodup_append.mp run.docket.nodup).1
  settles _ hr _ _ ha _ hx := run.docket.settles hr ha hx
  offered := run.ledger.accepted
  rejected := run.ledger.refused
  conserved := by
    have hoffered := run.ledger.offered_eq
    rw [run.lost_eq] at hoffered
    exact hoffered
  fifo := run.ledger.order
  split := taken_perm
  hands := run.ledger.hands
  distinct hn :=
    ⟨taken_perm.nodup_iff.mp (run.ledger.nodup_taken run.docket hn),
      fun _ hw => run.ledger.not_handed_of_refused run.docket hn hw⟩
  own := run.ledger.own
  stopped hp := run.ends.stopped hp

/-- Two items are offered; one is handled, and the other is thrown away. -/
def twoItems : List (Instant × Action Nat) :=
  [(0, .start), (0, .offer 7 0), (0, .offer 8 0), (0, .member 0 (.turn 0)),
    (5, .member 0 (.handled .handled)), (5, .shutdown false), (5, .scaler .turn),
    (5, .scaler .leave), (5, .resume 3)]

theorem balanced_of_twoItems : ∃ h t p,
    (ofSettings (.named "pool")).play calm 0 twoItems = some (h, t, p) ∧ Balanced h p ∧
      p.offered = 2 ∧ p.bench.processed = 1 ∧ p.discarded = 1 := by
  have hplay : ((ofSettings (.named "pool")).play calm 0 twoItems).map
      (fun w => (w.2.2.offered, w.2.2.bench.processed, w.2.2.discarded)) = some (2, 1, 1) := by
    rfl
  obtain ⟨h, t, p, hp, hcounts⟩ := play_of_map hplay
  have htame : ∀ w ∈ twoItems, ∀ p, Regime.tame.allows p calm w.2 := by
    simp [twoItems, Regime.tame, Action.IsTame]
  have hrun : Run .tame 0 _ h t p := Run.play htame hp
  exact ⟨h, t, p, hp, hrun.balanced, by simpa using hcounts⟩

end Backpressure.Pool
