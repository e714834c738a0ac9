import Backpressure.Proofs.Pool.Deeds
import Backpressure.Proofs.Pool.Run
import Backpressure.Proofs.Registry
import Mathlib.Data.List.Nodup

/-!
# Every call is answered once

Calls have names, given out in order.  A call either waits or was answered, and it
was answered once: the names of the answers and the names of those that wait are,
together, the names given out.

*Filings* tell what a step does to the calls: nothing, or one call is answered, or
one call waits.  All deeds are filings, so the books are kept by five cases only.
-/

namespace Backpressure

variable {α : Type}

/-- The answer in an event. -/
def PoolEvent.answer? : PoolEvent α → Option (CallId × PoolAnswer)
  | .answered c x => some (c, x)
  | _ => none

/-- Whether an errand is about what was asked. -/
def PoolErrand.Concerns (e : PoolErrand α) : Pool.Action α → Prop
  | .start => ∃ point error, e = .shutdown false point (some error)
  | .offer item _ => ∃ t deadline, e = .offer item t deadline
  | .shutdown graceful => ∃ point, e = .shutdown graceful point none
  | .resume _ | .flush | .member _ _ | .scaler _ => False

/-- Whether an answer is one to what was asked. -/
def Pool.Action.Gets : Pool.Action α → PoolAnswer → Prop
  | .offer _ _, .offered _ | .start, .ended _ | .shutdown _, .ended _ => True
  | _, _ => False

namespace Pool

/-- The answers among some events. -/
def answersIn (es : List (PoolEvent α)) : List (CallId × PoolAnswer) :=
  es.filterMap PoolEvent.answer?

/-- The answers that were given. -/
def History.answers (h : History α) : List (CallId × PoolAnswer) := answersIn h.events

variable {env : Surroundings α} {now : Instant} {p q : Pool α} {a : Action α} {o : PoolOutcome α}
  {c : CallId} {graceful : Bool} {afterStart : Option PoolError} {h : History α}
  {es fs : List (PoolEvent α)}

@[simp] theorem answersIn_append : answersIn (es ++ fs) = answersIn es ++ answersIn fs :=
  List.filterMap_append

@[simp] theorem answersIn_answered (x : PoolAnswer) :
    answersIn ([.answered c x] : List (PoolEvent α)) = [(c, x)] := rfl

@[simp] theorem answersIn_discarded (items : List α) : answersIn [.discarded items] = [] := rfl

@[simp] theorem answersIn_poller (i : MemberId) (es : List (Poller.Event α)) :
    answersIn (es.map (.poller i)) = [] := by
  rw [answersIn, List.filterMap_map, List.filterMap_eq_nil_iff]
  intro e he
  rfl

@[simp] theorem History.answers_append (k : History α) :
    (h ++ k).answers = h.answers ++ k.answers := answersIn_append

@[simp] theorem History.answers_ofStep : (History.ofStep p a o).answers = answersIn o.events := rfl

/-- Making and letting go of members answers nobody. -/
theorem Chain.answersIn_eq (h : Chain Staffing p es q) : answersIn es = [] := by
  induction h with
  | refl => rfl
  | tail _ hc ih =>
      rw [answersIn_append, ih]
      cases hc with
      | part hc => cases hc <;> rfl
      | hire name t => rfl
      | refuse name => rfl
      | observe o => rfl
      | regroup active scaler => rfl

/-- Making and letting go of members leaves the calls alone. -/
theorem Chain.calls_eq (h : Chain Staffing p es q) :
    q.calls = p.calls ∧ q.nextCall = p.nextCall := by
  rw [h.eq_staff]
  exact ⟨rfl, rfl⟩

/-! ## Filings -/

/-- What an action does to the calls. -/
inductive Filing (p : Pool α) : Action α → PoolOutcome α → Prop where
  /-- Nothing. -/
  | quiet {a : Action α} {o : PoolOutcome α} (hr : p.request? a = none)
      (hn : o.pool.nextCall = p.nextCall) (hc : o.pool.calls = p.calls)
      (he : answersIn o.events = []) : Filing p a o
  /-- A new call is answered. -/
  | answered {a : Action α} {o : PoolOutcome α} (x : PoolAnswer)
      (hr : p.request? a = some ⟨p.nextCall, a, p.phase⟩) (hn : o.pool.nextCall = p.nextCall + 1)
      (hc : o.pool.calls = p.calls.filter (·.1 != p.nextCall))
      (he : answersIn o.events = [(p.nextCall, x)]) (hx : a.Gets x) : Filing p a o
  /-- A new call waits. -/
  | kept {a : Action α} {o : PoolOutcome α} (e : PoolErrand α)
      (hr : p.request? a = some ⟨p.nextCall, a, p.phase⟩) (hn : o.pool.nextCall = p.nextCall + 1)
      (hc : o.pool.calls = p.calls.filter (·.1 != p.nextCall) ++ [(p.nextCall, e)])
      (he : answersIn o.events = []) (hk : e.Concerns a) : Filing p a o
  /-- A call that waited is answered. -/
  | settled {c : CallId} {e : PoolErrand α} {o : PoolOutcome α} (x : PoolAnswer)
      (hl : p.calls.lookup c = some e) (hn : o.pool.nextCall = p.nextCall)
      (hc : o.pool.calls = p.calls.filter (·.1 != c))
      (he : answersIn o.events = [(c, x)]) (hx : ∀ b, e.Concerns b → b.Gets x) :
      Filing p (.resume c) o
  /-- A call that waited waits for something else. -/
  | carried {c : CallId} {e e' : PoolErrand α} {o : PoolOutcome α}
      (hl : p.calls.lookup c = some e) (hn : o.pool.nextCall = p.nextCall)
      (hc : o.pool.calls = p.calls.filter (·.1 != c) ++ [(c, e')])
      (he : answersIn o.events = []) (hk : ∀ b, e.Concerns b → e'.Concerns b) :
      Filing p (.resume c) o

/-- Something that leaves the calls alone. -/
structure Aside (q : Pool α) (o : PoolOutcome α) : Prop where
  /-- No name is given out. -/
  nextCall : o.pool.nextCall = q.nextCall
  /-- The calls that wait still wait. -/
  calls : o.pool.calls = q.calls
  /-- Nobody is answered. -/
  answers : answersIn o.events = []

/-- How a call that is no offer comes out of a pool: it is answered, or it waits with an
errand of a kind. -/
inductive Reply (q : Pool α) (c : CallId) (kind : PoolErrand α → Prop) (o : PoolOutcome α) : Prop where
  | answered (result : Except PoolError Unit) (hn : o.pool.nextCall = q.nextCall)
      (hc : o.pool.calls = q.calls.filter (·.1 != c))
      (he : answersIn o.events = [(c, .ended result)])
  /-- It waits. -/
  | kept (e : PoolErrand α) (hn : o.pool.nextCall = q.nextCall)
      (hc : o.pool.calls = q.calls.filter (·.1 != c) ++ [(c, e)]) (he : answersIn o.events = [])
      (hk : kind e)

theorem Chain.aside (h : Chain Staffing p o.events o.pool) : Aside p o :=
  ⟨h.calls_eq.2, h.calls_eq.1, h.answersIn_eq⟩

section Reply

variable {kind : PoolErrand α → Prop}

theorem Aside.answering {result : Except PoolError Unit} (hq : Aside q o) :
    Reply q c kind (answer o c (.ended result)) := by
  refine .answered result hq.nextCall ?_ ?_
  · simp only [answer, hq.calls]
  · simp [answer, hq.answers]

theorem Aside.awaiting {e : PoolErrand α} (hq : Aside q o) (hk : kind e) :
    Reply q c kind (await o c e) :=
  .kept e hq.nextCall (by simp only [await, hq.calls]) hq.answers hk

/-- A reply from one pool is one from any pool with the same calls. -/
theorem Reply.of_aside {o' : PoolOutcome α} (hr : Reply o.pool c kind o') (hq : Aside q o) :
    Reply q c kind (o'.after o.events) := by
  have he : answersIn (o.events ++ o'.events) = answersIn o'.events := by simp [hq.answers]
  cases hr with
  | answered x hn hc hx =>
      rw [hq.calls] at hc
      exact .answered x (hn.trans hq.nextCall) hc (he.trans hx)
  | kept e hn hc hx hk =>
      rw [hq.calls] at hc
      exact .kept e (hn.trans hq.nextCall) hc (he.trans hx) hk

/-- A reply to a start or a shutdown tells no other kind of answer. -/
theorem Reply.ended (hr : Reply q c kind o) :
    ∀ w ∈ answersIn o.events, ∃ result, w.2 = .ended result := by
  intro w hw
  cases hr with
  | answered result hn hc he =>
      rw [he, List.mem_singleton] at hw
      exact ⟨result, by rw [hw]⟩
  | kept e hn hc he hk =>
      rw [he] at hw
      cases hw

/-- A call that is new is filed when it is answered or begins to wait. -/
theorem Reply.asked (hr : Reply p.named p.nextCall kind o)
    (ha : p.request? a = some ⟨p.nextCall, a, p.phase⟩) (hk : ∀ e, kind e → e.Concerns a)
    (hx : ∀ result, a.Gets (.ended result)) : Filing p a o := by
  cases hr with
  | answered result hn hc he => exact .answered _ ha hn hc he (hx result)
  | kept e hn hc he hkind => exact .kept e ha hn hc he (hk e hkind)

/-- A call that goes on is filed when it is answered or waits for something else. -/
theorem Reply.resumed {e : PoolErrand α} (hr : Reply p c kind o) (hl : p.calls.lookup c = some e)
    (hk : ∀ e', kind e' → ∀ b, e.Concerns b → e'.Concerns b)
    (hx : ∀ b, e.Concerns b → ∀ result, b.Gets (.ended result)) : Filing p (.resume c) o := by
  cases hr with
  | answered result hn hc he => exact .settled _ hl hn hc he fun b hb => hx b hb result
  | kept e' hn hc he hkind => exact .carried hl hn hc he (hk e' hkind)

end Reply

/-- A call that is new may be answered at once. -/
theorem Aside.asked {x : PoolAnswer} (hq : Aside p.named o)
    (ha : p.request? a = some ⟨p.nextCall, a, p.phase⟩) (hx : a.Gets x) :
    Filing p a (answer o p.nextCall x) := by
  refine .answered x ha hq.nextCall ?_ ?_ hx
  · simp only [answer, hq.calls]
    rfl
  · simp [answer, hq.answers]

theorem Aside.resumed {x : PoolAnswer} {e : PoolErrand α} (hq : Aside p o)
    (hl : p.calls.lookup c = some e) (hx : ∀ b, e.Concerns b → b.Gets x) :
    Filing p (.resume c) (answer o c x) := by
  refine .settled x hl hq.nextCall ?_ ?_ hx
  · simp only [answer, hq.calls]
  · simp [answer, hq.answers]

/-! ## Shutdowns -/

/-- An errand of a shutdown. -/
def IsShutdown (graceful : Bool) (afterStart : Option PoolError) (e : PoolErrand α) : Prop :=
  ∃ point, e = .shutdown graceful point afterStart

theorem IsShutdown.concerns {point : ShutdownPoint} {e : PoolErrand α}
    (h : IsShutdown graceful afterStart e) (b : Action α)
    (hb : (PoolErrand.shutdown graceful point afterStart).Concerns b) : e.Concerns b := by
  obtain ⟨point', rfl⟩ := h
  cases b with
  | start =>
      obtain ⟨_, error, he⟩ := hb
      cases he
      exact ⟨point', error, rfl⟩
  | shutdown g =>
      obtain ⟨_, he⟩ := hb
      cases he
      exact ⟨point', rfl⟩
  | offer item wait =>
      obtain ⟨_, _, he⟩ := hb
      cases he
  | resume _ | flush | member _ _ | scaler _ => exact hb

theorem gets_of_shutdown {point : ShutdownPoint} (b : Action α)
    (hb : (PoolErrand.shutdown graceful point afterStart).Concerns b)
    (result : Except PoolError Unit) : b.Gets (.ended result) := by
  cases b with
  | start | shutdown g => trivial
  | offer item wait =>
      obtain ⟨_, _, he⟩ := hb
      cases he
  | resume _ | flush | member _ _ | scaler _ => exact hb

/-- Whoever waits for members is answered once there are none left to wait for. -/
theorem retireAll_reply (pending : List (MemberId × Instant)) (n : Nat) :
    Reply p c (IsShutdown graceful afterStart)
      (p.retireAll now c graceful afterStart pending n) := by
  have hswept := (sweep_chain now pending n p).staffing.aside
  by_cases hl : pending.filter (p.waitsFor now) = []
  · rw [retireAll_of_nil hl]
    refine Aside.answering ?_
    refine ⟨hswept.nextCall, hswept.calls, ?_⟩
    simp [PoolOutcome.after, closed, discardAll, hswept.answers]
  · rw [retireAll_of_ne_nil hl]
    exact hswept.awaiting ⟨_, rfl⟩

theorem sealed_aside : Aside p (p.sealed graceful) := by
  cases graceful <;> exact ⟨rfl, rfl, rfl⟩

/-- Whoever takes the crew out is answered or waits for it. -/
theorem retireCrew_reply :
    Reply p c (IsShutdown graceful afterStart) (p.retireCrew now c graceful afterStart) := by
  have hdisbanded : Aside (p.sealed graceful).pool
      { pool := (p.sealed graceful).pool.disbanded } := ⟨by simp, by simp, rfl⟩
  rw [retireCrew_eq]
  exact ((retireAll_reply _ _).of_aside hdisbanded).of_aside sealed_aside

theorem Opening.answersIn_eq {p' : Pool α}
    (ho : Opening env now p a c graceful afterStart es p') : answersIn es = [] := by
  cases ho with
  | asked hp => rfl
  | failed hp hs => exact (spawnMany_chain hs).answersIn_eq

theorem Opening.filing {p' : Pool α} (ho : Opening env now p a c graceful afterStart es p')
    (hr : Reply p' c (IsShutdown graceful afterStart) o) : Filing p a (o.after es) := by
  cases ho with
  | asked hp =>
      refine (hr.of_aside (o := { pool := p.named }) ⟨rfl, rfl, rfl⟩).asked rfl ?_ fun _ => trivial
      rintro e ⟨point, rfl⟩
      exact ⟨point, rfl⟩
  | failed hp hs =>
      have haside := (spawnMany_chain hs).aside
      refine (hr.of_aside (q := p.named)
        ⟨haside.nextCall, haside.calls, haside.answers⟩).asked rfl ?_ fun _ => trivial
      rintro e ⟨point, rfl⟩
      exact ⟨point, _, rfl⟩

/-! ## Offers -/

theorem endOffer_eq (ok : Bool) : ∃ o, q.endOffer c ok = answer o c (.offered ok) ∧ Aside q o := by
  cases ok
  · exact ⟨_, rfl, rfl, rfl, rfl⟩
  · exact ⟨_, rfl, rfl, rfl, rfl⟩

/-- An offer is answered by what became of it. -/
theorem Offering.filing {item : α} {p' : Pool α} {b : Bench α} (ho : Offering p a c item p')
    (ok : Bool) : Filing p a ({ p' with bench := b }.endOffer c ok) := by
  obtain ⟨o, he, haside⟩ := endOffer_eq (q := { p' with bench := b }) (c := c) ok
  rw [he]
  cases ho with
  | new hp => exact Aside.asked ⟨haside.nextCall, haside.calls, haside.answers⟩ rfl trivial
  | waited hc =>
      refine Aside.resumed (p := p) ⟨haside.nextCall, haside.calls, haside.answers⟩ hc ?_
      intro b hb
      cases b with
      | offer item wait => trivial
      | start =>
          obtain ⟨_, _, he⟩ := hb
          cases he
      | shutdown g =>
          obtain ⟨_, he⟩ := hb
          cases he
      | resume _ | flush | member _ _ | scaler _ => exact hb

/-! ## All deeds -/

/-- What all deeds do to the calls. -/
theorem Deed.filing (hd : Deed env now p a o) : Filing p a o := by
  cases hd with
  | spurned hp =>
      refine Aside.asked ?_ rfl trivial
      exact ⟨rfl, rfl, rfl⟩
  | accepted ho hq hs => exact ho.filing true
  | returned ho hs => exact ho.filing false
  | queued hp hs => exact .kept _ rfl rfl rfl rfl ⟨_, _, rfl⟩
  | followed hf hr =>
      cases hf with
      | new hp =>
          refine Aside.asked ?_ rfl trivial
          exact ⟨rfl, rfl, rfl⟩
      | waited hc =>
          refine Aside.resumed ?_ hc fun b hb => gets_of_shutdown b hb _
          exact ⟨rfl, rfl, rfl⟩
  | follows hp => exact .kept _ rfl rfl rfl rfl ⟨_, rfl⟩
  | abandoned hp =>
      refine Aside.asked ?_ rfl trivial
      exact ⟨rfl, rfl, rfl⟩
  | opens ho hw => exact ho.filing (Aside.awaiting ⟨rfl, rfl, rfl⟩ ⟨_, rfl⟩)
  | rushes ho hw =>
      exact ho.filing (retireCrew_reply.of_aside (o := { pool := _ }) ⟨rfl, rfl, rfl⟩)
  | gathers hc hw => exact retireCrew_reply.resumed hc (fun _ hk => hk.concerns) gets_of_shutdown
  | sweeps hc => exact (retireAll_reply _ _).resumed hc (fun _ hk => hk.concerns) gets_of_shutdown
  | restarted hp =>
      refine Aside.asked ?_ rfl trivial
      exact ⟨rfl, rfl, rfl⟩
  | started hp hs hw | stuck hp hs hw =>
      have haside := (spawnMany_chain hs).aside
      refine Aside.asked ?_ rfl trivial
      exact ⟨haside.nextCall, haside.calls, haside.answers⟩
  | flushed => exact .quiet rfl rfl rfl rfl
  | member hm hs => exact .quiet rfl rfl rfl (answersIn_poller _ _)
  | scaler hs =>
      have haside := (scalerStep_chain hs).aside
      exact .quiet rfl haside.nextCall haside.calls haside.answers

/-! ## The docket -/

/-- The books of the calls are in order. -/
structure Docket (h : History α) (p : Pool α) : Prop where
  /-- Names are given out in order. -/
  names : h.requests.map (·.call) = List.range p.nextCall
  /-- Each call was answered once or waits. -/
  once : (h.answers.map (·.1) ++ p.calls.map (·.1)).Perm (List.range p.nextCall)
  /-- Each call that waits is about what was asked. -/
  concerns : ∀ w ∈ p.calls, ∃ r ∈ h.requests, r.call = w.1 ∧ w.2.Concerns r.asked
  /-- Each answer is one to what was asked. -/
  gets : ∀ w ∈ h.answers, ∃ r ∈ h.requests, r.call = w.1 ∧ r.asked.Gets w.2

theorem nodup_of_perm_range {l : List Nat} {n : Nat} (h : l.Perm (List.range n)) : l.Nodup :=
  h.nodup_iff.mpr List.nodup_range

namespace Docket

/-- No call is answered twice, or answered and still under way. -/
theorem nodup (hd : Docket h p) : (h.answers.map (·.1) ++ p.calls.map (·.1)).Nodup :=
  nodup_of_perm_range hd.once

theorem nodup_calls (hd : Docket h p) : (p.calls.map (·.1)).Nodup :=
  (List.nodup_append.mp hd.nodup).2.1

/-- Only names that were given out are answered or under way. -/
theorem lt_nextCall (hd : Docket h p) {c : CallId} (hc : c ∈ h.answers.map (·.1) ++ p.calls.map (·.1)) :
    c < p.nextCall :=
  List.mem_range.mp (hd.once.mem_iff.mp hc)

/-- A call has one request. -/
theorem request_unique (hd : Docket h p) {r r' : Request α} (hr : r ∈ h.requests)
    (hr' : r' ∈ h.requests) (he : r.call = r'.call) : r = r' := by
  have hnodup : (h.requests.map (·.call)).Nodup := by
    rw [hd.names]
    exact List.nodup_range
  exact List.inj_on_of_nodup_map hnodup hr hr' he

/-- A call has one answer. -/
theorem answer_unique (hd : Docket h p) {x y : PoolAnswer} (hx : (c, x) ∈ h.answers)
    (hy : (c, y) ∈ h.answers) : x = y := by
  have hnodup := (List.nodup_append.mp hd.nodup).1
  exact congrArg Prod.snd (List.inj_on_of_nodup_map hnodup hx hy rfl)

/-- A call has one errand. -/
theorem errand_unique (hd : Docket h p) {e f : PoolErrand α} (he : (c, e) ∈ p.calls)
    (hf : (c, f) ∈ p.calls) : e = f :=
  congrArg Prod.snd (List.inj_on_of_nodup_map hd.nodup_calls he hf rfl)

end Docket

theorem docket_first (s : PoolSettings) : Docket {} (ofSettings s : Pool α) where
  names := rfl
  once := .refl _
  concerns := by
    intro w hw
    cases hw
  gets := by
    intro w hw
    cases hw


/-- The name of the next call is not under way yet. -/
theorem filter_fresh (hd : Docket h p) : p.calls.filter (·.1 != p.nextCall) = p.calls := by
  rw [List.filter_eq_self]
  intro w hw
  have hlt := hd.lt_nextCall (List.mem_append_right _ (List.mem_map_of_mem (f := (·.1)) hw))
  exact bne_iff_ne.mpr (Nat.ne_of_lt hlt)

section Keep

variable (hd : Docket h p)

include hd

/-- Calls are named in the order in which they come. -/
theorem Filing.names (hf : Filing p a o) :
    (h ++ .ofStep p a o).requests.map (·.call) = List.range o.pool.nextCall := by
  cases hf with
  | quiet hr hn hc he => simpa [hr, hn] using hd.names
  | answered x hr hn hc he hx => simp [hr, hn, hd.names, List.range_succ]
  | kept e hr hn hc he hk => simp [hr, hn, hd.names, List.range_succ]
  | settled x hl hn hc he hx => simpa [request?, hn] using hd.names
  | carried hl hn hc he hk => simpa [request?, hn] using hd.names

/-- Each name that was given out is answered or under way, and only once. -/
theorem Filing.once (hf : Filing p a o) :
    ((h ++ .ofStep p a o).answers.map (·.1) ++ o.pool.calls.map (·.1)).Perm
      (List.range o.pool.nextCall) := by
  rw [History.answers_append, History.answers_ofStep]
  cases hf with
  | quiet hr hn hc he => simpa [hc, hn, he] using hd.once
  | answered x hr hn hc he hx =>
      rw [filter_fresh hd] at hc
      rw [he, hc, hn, List.range_succ]
      have hperm := (List.perm_middle.trans (hd.once.cons p.nextCall)).trans
        (List.perm_append_singleton _ _).symm
      simpa using hperm
  | kept e hr hn hc he hk =>
      rw [filter_fresh hd] at hc
      rw [he, hc, hn, List.range_succ]
      simpa using hd.once.append_right [p.nextCall]
  | @settled c e _ x hl hn hc he hx =>
      have hmem : c ∈ p.calls.map (·.1) := List.mem_map_of_mem (f := (·.1)) (mem_of_lookup hl)
      have hperm := (List.perm_cons_erase hmem).append_left (h.answers.map (·.1))
      rw [he, hc, hn, map_fst_filter_ne, ← hd.nodup_calls.erase_eq_filter]
      simpa using hperm.symm.trans hd.once
  | @carried c e e' _ hl hn hc he hk =>
      have hmem : c ∈ p.calls.map (·.1) := List.mem_map_of_mem (f := (·.1)) (mem_of_lookup hl)
      have hperm := ((List.perm_append_singleton c _).trans
        (List.perm_cons_erase hmem).symm).append_left (h.answers.map (·.1))
      rw [he, hc, hn, List.append_nil, List.map_append, map_fst_filter_ne,
        ← hd.nodup_calls.erase_eq_filter]
      simpa using hperm.trans hd.once

theorem Filing.concerns (hf : Filing p a o) : ∀ w ∈ o.pool.calls,
    ∃ r ∈ (h ++ .ofStep p a o).requests, r.call = w.1 ∧ w.2.Concerns r.asked := by
  have hold : ∀ w ∈ p.calls,
      ∃ r ∈ (h ++ .ofStep p a o).requests, r.call = w.1 ∧ w.2.Concerns r.asked := by
    intro w hw
    obtain ⟨r, hr, hcall⟩ := hd.concerns w hw
    exact ⟨r, List.mem_append_left _ hr, hcall⟩
  intro w hw
  cases hf with
  | quiet hr hn hc he => exact hold w (hc ▸ hw)
  | answered x hr hn hc he hx => exact hold w (List.mem_of_mem_filter (hc ▸ hw))
  | kept e hr hn hc he hk =>
      cases List.mem_append.mp (hc ▸ hw) with
      | inl hw => exact hold w (List.mem_of_mem_filter hw)
      | inr hw =>
          rw [List.mem_singleton] at hw
          subst hw
          exact ⟨⟨p.nextCall, a, p.phase⟩, List.mem_append_right _ (by simp [hr]), rfl, hk⟩
  | settled x hl hn hc he hx => exact hold w (List.mem_of_mem_filter (hc ▸ hw))
  | carried hl hn hc he hk =>
      cases List.mem_append.mp (hc ▸ hw) with
      | inl hw => exact hold w (List.mem_of_mem_filter hw)
      | inr hw =>
          rw [List.mem_singleton] at hw
          subst hw
          obtain ⟨r, hr, hcall, hcon⟩ := hold _ (mem_of_lookup hl)
          exact ⟨r, hr, hcall, hk _ hcon⟩

/-- Each answer is one of those that its request can get. -/
theorem Filing.gets (hf : Filing p a o) : ∀ w ∈ (h ++ .ofStep p a o).answers,
    ∃ r ∈ (h ++ .ofStep p a o).requests, r.call = w.1 ∧ r.asked.Gets w.2 := by
  intro w hw
  rw [History.answers_append, History.answers_ofStep] at hw
  cases List.mem_append.mp hw with
  | inl hw =>
      obtain ⟨r, hr, hcall⟩ := hd.gets w hw
      exact ⟨r, List.mem_append_left _ hr, hcall⟩
  | inr hw =>
      cases hf with
      | quiet hr hn hc he | kept e hr hn hc he hk | carried hl hn hc he hk =>
          rw [he] at hw
          cases hw
      | answered x hr hn hc he hx =>
          rw [he, List.mem_singleton] at hw
          subst hw
          exact ⟨⟨p.nextCall, a, p.phase⟩, List.mem_append_right _ (by simp [hr]), rfl, hx⟩
      | settled x hl hn hc he hx =>
          rw [he, List.mem_singleton] at hw
          subst hw
          obtain ⟨r, hr, hcall, hcon⟩ := hd.concerns _ (mem_of_lookup hl)
          exact ⟨r, List.mem_append_left _ hr, hcall, hx _ hcon⟩

/-- Every step keeps the books in order. -/
theorem Docket.keep (hs : p.step env now a = some o) : Docket (h ++ .ofStep p a o) o.pool :=
  have hf := (step_deed hs).filing
  ⟨hf.names hd, hf.once hd, hf.concerns hd, hf.gets hd⟩

end Keep

/-- The books are in order along every run of a new pool. -/
theorem Run.docket {R : Regime α} {t₀ t : Instant} {s : PoolSettings}
    (run : Run R t₀ (ofSettings s) h t p) : Docket h p :=
  run.invariant (docket_first s) fun hd _ hs => hd.keep hs

end Pool

end Backpressure
