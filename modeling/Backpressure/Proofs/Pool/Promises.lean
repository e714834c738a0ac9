import Backpressure.Proofs.Poller.Promises
import Backpressure.Proofs.Pool.Flow
import Backpressure.Proofs.Pool.Run

/-!
# Who an item is promised to

The members of a pool and its queue keep the same books of promises: each item has a
permit unless the queue is closed, and each ticket that asks for a permit is the ticket
of a member that polls.

Changes of the staff leave all polls as they are, so only the members' own deeds and
the ends of offers matter.
-/

namespace Backpressure.Pool

variable {α : Type}

/-- The tickets of the members that poll. -/
def polls (p : Pool α) : List Ticket := p.crew.flatMap fun m => m.poller.polls

/-- The queue and the members agree on what is promised. -/
structure Promised (p : Pool α) : Prop where
  /-- There is a permit for each item. -/
  backed : p.bench.queue.Backed
  /-- Who asks for a permit polls. -/
  asks : ∀ u, p.bench.queue.ready.asks u ≤ p.polls.count u

variable {env : Surroundings α} {now : Instant} {p q : Pool α} {a : Action α} {o : PoolOutcome α}
  {c : CallId} {graceful : Bool} {afterStart : Option PoolError} {es : List (PoolEvent α)}

/-- When nobody polls, no permit is promised to anybody. -/
theorem Promised.length_eq (hp : Promised p) (hc : p.bench.queue.ready.closed = false)
    (hn : p.polls = []) : p.bench.queue.items.length = p.bench.queue.ready.free := by
  have hgranted : p.bench.queue.ready.granted = [] := by
    refine List.eq_nil_iff_forall_not_mem.mpr fun u hu => ?_
    have hasks := hp.asks u
    rw [hn, List.count_nil, Permits.asks, List.count_append] at hasks
    have hpos := List.count_pos_iff.mpr hu
    omega
  rw [hp.backed hc, Permits.stock, hgranted]
  rfl

/-! ## Polls of the crew -/

/-- A member has one ticket if it polls, and none otherwise. -/
theorem length_polls_eq (m : Member α) : m.poller.polls.length = if m.isPolling then 1 else 0 := by
  cases hp : m.poller.worker.place with
  | inside point => cases point <;> simp [Poller.polls, Member.isPolling, hp]
  | unstarted | between | leaving | finished => simp [Poller.polls, Member.isPolling, hp]

theorem isPolling_iff {m : Member α} : m.isPolling = true ↔ m.poller.polls ≠ [] := by
  rw [← List.length_pos_iff, length_polls_eq]
  cases m.isPolling <;> simp

theorem mem_bystanders {i : MemberId} :
    i ∈ p.bystanders ↔ i ∉ p.active ∧ ∃ m, p.crew[i]? = some m ∧ m.poller.polls ≠ [] := by
  simp only [bystanders, List.mem_filter, List.mem_range, Bool.and_eq_true, Bool.not_eq_true',
    List.contains_eq_mem, decide_eq_false_iff_not, Option.any_eq_true, isPolling_iff]
  refine ⟨And.right, fun ⟨ha, m, hm, hp⟩ => ?_⟩
  exact ⟨(List.getElem?_eq_some_iff.mp hm).1, ha, m, hm, hp⟩

theorem polls_modify {f : Member α → Member α} (i : MemberId)
    (hf : ∀ m, (f m).poller.polls = m.poller.polls) : (p.modifyMember i f).polls = p.polls := by
  simp only [polls, modifyMember, List.flatMap_def]
  rw [map_crew_modify (g := fun m => m.poller.polls) i hf]

theorem Staffing.polls_eq (h : Staffing p es q) : q.polls = p.polls := by
  cases h with
  | part h =>
      cases h with
      | tell i => exact polls_modify i fun m => rfl
      | dismiss i t name => exact polls_modify i fun m => rfl
  | hire name t => simp [polls, hired, Poller.fresh, Poller.polls]
  | refuse name | observe o | regroup active scaler => rfl

/-- Nobody begins or ends a poll because the scaler makes or lets go of members. -/
theorem Chain.polls_eq (h : Chain Staffing p es q) : q.polls = p.polls := by
  induction h with
  | refl => rfl
  | tail _ hs ih => exact hs.polls_eq.trans ih

/-! ## Promises are kept -/

theorem Promised.of_eq (hp : Promised p) (hr : q.bench.queue.ready = p.bench.queue.ready)
    (hi : q.bench.queue.items = p.bench.queue.items) (hq : q.polls = p.polls) : Promised q where
  backed := by
    rw [Queue.Backed, hr, hi]
    exact hp.backed
  asks := by
    rw [hr, hq]
    exact hp.asks

/-- A queue that is closed owes nobody an item. -/
theorem Promised.close (hp : Promised p) (hr : q.bench.queue.ready = p.bench.queue.ready.close)
    (hq : q.polls = p.polls) : Promised q where
  backed := by
    intro hc
    rw [hr] at hc
    cases hc
  asks u := by
    rw [hr, hq]
    exact Nat.le_trans Permits.asks_close_le (hp.asks u)

theorem Promised.chain (hp : Promised p) (h : Chain Staffing p es q) : Promised q := by
  have hbench := congrArg Pool.bench h.eq_staff
  exact hp.of_eq (by rw [hbench]) (by rw [hbench]) h.polls_eq

/-- An item that is put into the queue brings a permit. -/
theorem Promised.push {slots : Permits} {item : α} (hp : Promised p)
    (hb : q.bench.queue = { p.bench.queue with slots }.push item) (hq : q.polls = p.polls) :
    Promised q where
  backed := by
    rw [hb]
    intro hc
    have hlength := hp.backed hc
    simp only [Queue.push, List.length_append, List.length_singleton, Permits.stock_release]
    exact congrArg Nat.succ hlength
  asks u := by
    rw [hb, hq, Queue.push, Permits.asks_release]
    exact hp.asks u

/-- A member takes from the queue what it was promised, or asks for it. -/
theorem Promised.member {i : MemberId} {m : Member α} {es : List (Poller.Event α)} {w : Poller α}
    {b : Bench α} (hp : Promised p) (hm : p.crew[i]? = some m)
    (hd : Poller.Deed m.poller p.bench es w b) :
    Promised { p.modifyMember i fun m => { m with poller := w } with bench := b } where
  backed := hd.backed hp.backed
  asks u := by
    obtain ⟨front, back, hcrew, hmod⟩ := crew_split hm fun m => { m with poller := w }
    have hasks := hp.asks u
    have hstep := hd.draws.asks_le u
    simp only [polls, modifyMember, hmod]
    simp only [polls, hcrew] at hasks
    simp only [List.flatMap_append, List.flatMap_cons, List.count_append] at hasks ⊢
    omega

theorem Promised.retireAll (hp : Promised p) (pending : List (MemberId × Instant)) (n : Nat) :
    Promised (p.retireAll now c graceful afterStart pending n).pool := by
  have hswept := hp.chain (sweep_chain now pending n p).staffing
  by_cases hl : pending.filter (p.waitsFor now) = []
  · rw [retireAll_of_nil hl]
    exact hswept.close rfl rfl
  · rw [retireAll_of_ne_nil hl]
    exact hswept.of_eq rfl rfl rfl

theorem Promised.disbanded (hp : Promised p) : Promised p.disbanded := by
  have hidle : Promised { p with active := [] } := hp.of_eq rfl rfl rfl
  exact hidle.chain disbanded_chain.staffing

theorem Promised.sealed (hp : Promised p) : Promised (p.sealed graceful).pool := by
  cases graceful with
  | true => exact hp.of_eq rfl rfl rfl
  | false => exact hp.close rfl rfl

theorem Promised.retireCrew (hp : Promised p) :
    Promised (p.retireCrew now c graceful afterStart).pool := by
  rw [retireCrew_eq]
  exact hp.sealed.disbanded.retireAll _ _

theorem Promised.opening {p' : Pool α} (hp : Promised p)
    (ho : Opening env now p a c graceful afterStart es p') : Promised p'.draining := by
  cases ho with
  | asked hp' => exact hp.of_eq rfl rfl rfl
  | failed hp' hs =>
      have hrunning : Promised { p.named with phase := .running } := hp.of_eq rfl rfl rfl
      exact (hrunning.chain (spawnMany_chain hs)).of_eq rfl rfl rfl

/-- Every step keeps the promises. -/
theorem Promised.keep (hp : Promised p) (hs : Deed env now p a o) : Promised o.pool := by
  cases hs with
  | spurned | queued | follows | restarted => exact hp.of_eq rfl rfl rfl
  | accepted ho => cases ho <;> exact hp.push rfl rfl
  | returned ho => cases ho <;> exact hp.of_eq rfl rfl rfl
  | followed hf => cases hf <;> exact hp.of_eq rfl rfl rfl
  | abandoned => exact hp.close rfl rfl
  | opens ho hw => exact (hp.opening ho).of_eq rfl rfl rfl
  | rushes ho hw => exact (hp.opening ho).retireCrew
  | gathers => exact hp.retireCrew
  | sweeps => exact hp.retireAll _ _
  | started hp' hs' hw | stuck hp' hs' hw =>
      have hrunning : Promised { p.named with phase := .running } := hp.of_eq rfl rfl rfl
      exact (hrunning.chain (spawnMany_chain hs')).of_eq rfl rfl rfl
  | flushed => exact hp.of_eq rfl rfl (by simp [polls, List.flatMap_map])
  | member hm hs' => exact hp.member hm (Poller.step_deed hs')
  | scaler hs' => exact hp.chain (scalerStep_chain hs')

/-- The promises are kept along every run of a new pool. -/
theorem Run.promised {R : Regime α} {t₀ t : Instant} {s : PoolSettings} {h : History α}
    (run : Run R t₀ (ofSettings s) h t p) : Promised p :=
  run.invariant (I := fun _ p => Promised p) ⟨fun _ => rfl, fun _ => Nat.le_refl _⟩
    fun hp _ hs => hp.keep (step_deed hs)

end Backpressure.Pool
