import Backpressure.Proofs.Poller.Unrest
import Backpressure.Proofs.Pool.Bounds
import Backpressure.Proofs.Pool.Finality
import Mathlib.Algebra.Order.BigOperators.Group.List
import Mathlib.Algebra.Order.Ring.Nat

/-!
# How much a pool can still do at a moment

`Pool.unrest` is the sum of what the members, the scaler and the calls that wait can still do by
themselves as long as no time passes.  Each step lowers its own part, and what it adds to another
part is paid for in advance.

*The scaler* tells members to stop, which only calms them, and makes new ones.  An evaluation makes
no more than the pool may have, so a sleep of the scaler that is over counts for all of them.

*A shutdown* tells members to stop, and may close the queue.  The unrest of a member is prepared
for that.  The members that it then waits for are no more than the pool may have.
-/

namespace Backpressure

variable {α : Type}

/-- A bound for the steps that the scaler can take by itself at a moment, with those of the members
that it makes meanwhile; `most` is how many members the pool may have. -/
def Worker.scalerUnrest (now : Instant) (most : Nat) (w : Worker ScalerPoint Unit) : Nat :=
  match w.place with
  | .between _ => if w.stop = true then 2 else 4
  | .inside (.sleeping ends) => if ends ≤ now then 10 * most + 6 else 3
  | .inside (.replacing r) => 9 * most + 6 + r.rest.length
  | .inside (.shrinking r) => 5 + r.rest.length
  | .leaving _ _ => 1
  | .unstarted | .finished _ => 0

/-- A bound for the times that a call can go on by itself at a moment. -/
def PoolErrand.unrest (most : Nat) : PoolErrand α → Nat
  | .offer _ _ _ | .shutdown _ (.awaitingOther _) _ => 1
  | .shutdown _ (.awaitingScaler _) _ => most + 2
  | .shutdown _ (.retiring pending _) _ => pending.length + 1

namespace Pool

def crewUnrest (now : Instant) (p : Pool α) : Nat :=
  (p.crew.map fun m => m.poller.unrest now p.bench.queue.isClosed).sum

def staffUnrest (now : Instant) (p : Pool α) : Nat :=
  p.crewUnrest now + p.scaler.scalerUnrest now p.settings.maxWorkers

def callsUnrest (most : Nat) (calls : List (CallId × PoolErrand α)) : Nat :=
  (calls.map fun w => w.2.unrest most).sum

/-- A bound for the steps that a pool can take by itself at a moment. -/
def unrest (now : Instant) (p : Pool α) : Nat :=
  p.staffUnrest now + callsUnrest p.settings.maxWorkers p.calls

variable {env : Surroundings α} {now : Instant} {p q : Pool α} {a : Action α} {o o' : PoolOutcome α}
  {c : CallId} {graceful : Bool} {afterStart : Option PoolError} {es : List (PoolEvent α)}
  {most n k : Nat}

/-! ## The members -/

/-- A change of one member that calms it calms the crew. -/
theorem crewUnrest_modify_le {f : Member α → Member α} (i : MemberId)
    (hf : ∀ m closed, (f m).poller.unrest now closed ≤ m.poller.unrest now closed) :
    (p.modifyMember i f).crewUnrest now ≤ p.crewUnrest now := by
  cases hm : p.crew[i]? with
  | none =>
      rw [modifyMember, List.modify_eq_self (List.getElem?_eq_none_iff.mp hm)]
  | some m =>
      obtain ⟨front, back, hcrew, hmod⟩ := crew_split hm f
      have hle := hf m p.bench.queue.isClosed
      simp only [crewUnrest, modifyMember, hmod]
      simp only [hcrew, List.map_append, List.map_cons, List.sum_append, List.sum_cons]
      omega

theorem Parting.crewUnrest_le (now : Instant) (h : Parting p es q) : q.crewUnrest now ≤ p.crewUnrest now := by
  cases h with
  | tell i => exact crewUnrest_modify_le i fun m closed => Poller.unrest_told_le
  | dismiss i t name => exact crewUnrest_modify_le i fun m closed => Nat.le_refl _

theorem Chain.crewUnrest_le (now : Instant) (h : Chain Parting p es q) : q.crewUnrest now ≤ p.crewUnrest now := by
  induction h with
  | refl => exact Nat.le_refl _
  | tail _ hc ih => exact Nat.le_trans (hc.crewUnrest_le now) ih

/-- A new member has at most eight things to do before it waits. -/
theorem Adds.crewUnrest_le (now : Instant) (ha : Adds k p es q) (hb : q.bench = p.bench) :
    q.crewUnrest now ≤ p.crewUnrest now + 8 * k := by
  obtain ⟨new, hlength, hfresh, hcrew⟩ := ha.crew
  have hnew : (new.map fun m => m.poller.unrest now p.bench.queue.isClosed).sum ≤ k * 8 := by
    have hmap : (new.map fun m => m.poller.unrest now p.bench.queue.isClosed).length = k :=
      (List.length_map _).trans hlength
    rw [← hmap]
    refine List.sum_le_card_nsmul _ 8 fun x hx => ?_
    obtain ⟨m, hm, rfl⟩ := List.mem_map.mp hx
    rw [hfresh m hm]
    exact Poller.unrest_fresh_le
  simp only [crewUnrest, hcrew, hb, List.map_append, List.sum_append]
  omega

/-- The end of polls only calms the crew. -/
theorem crewUnrest_closed_le (hc : q.crew = p.crew)
    (hq : q.bench.queue.isClosed = p.bench.queue.isClosed ∨ q.bench.queue.isClosed = true) :
    q.crewUnrest now ≤ p.crewUnrest now := by
  rcases hq with hq | hq
  · simp only [crewUnrest, hc, hq, Nat.le_refl]
  · simp only [crewUnrest, hc, hq]
    exact List.sum_le_sum fun m _ => Poller.unrest_closed_le

/-! ## The scaler -/

/-- After an iteration the scaler has its turn, and leaves for the hook or goes to sleep. -/
theorem endScaling_unrest (now : Instant) {how : IterationEnd} (h : endScaling o how = some o') :
    o'.pool.staffUnrest now ≤
      o.pool.crewUnrest now + if o.pool.scaler.stop = true then 2 else 4 := by
  obtain ⟨q, hq, rfl⟩ := Option.map_eq_some_iff.mp h
  obtain ⟨w, hw, rfl⟩ := Option.map_eq_some_iff.mp hq
  refine Nat.add_le_add_left ?_ _
  simp only [Worker.finish] at hw
  split at hw
  · cases hw
    cases how with
    | done | panicked => exact Nat.le_refl _
    | failed fault =>
        cases fault with
        | recoverable reason => exact Nat.le_refl _
        | fatal reason =>
            show 1 ≤ _
            split <;> omega
  · cases hw

theorem moveScaling_unrest (now : Instant) {point : ScalerPoint} (h : moveScaling o point = some o') :
    ∃ w : Worker ScalerPoint Unit, w.place = .inside point ∧
      o'.pool.staffUnrest now =
        o.pool.crewUnrest now + w.scalerUnrest now o.pool.settings.maxWorkers := by
  obtain ⟨w, rfl, hw⟩ := moveScaling_eq_some h
  exact ⟨w, hw, rfl⟩

theorem endScaling_unrest_le (now : Instant) {how : IterationEnd} (h : endScaling o how = some o') :
    o'.pool.staffUnrest now ≤ o.pool.crewUnrest now + 4 := by
  refine Nat.le_trans (endScaling_unrest now h) (Nat.add_le_add_left ?_ _)
  split <;> omega

theorem bench_spawnMany {error : Option PoolError} (h : p.spawnMany env now n = (error, o)) :
    o.pool.bench = p.bench := by
  rw [(spawnMany_chain h).eq_staff]

/-- Following the policy costs the unrest of those who are made, and of those who are let go of. -/
theorem followPolicy_unrest (hl : p.active.length ≤ p.settings.maxWorkers)
    (h : p.followPolicy env now = some o) :
    o.pool.staffUnrest now ≤ p.crewUnrest now +
      8 * (p.settings.maxWorkers - p.active.length) + p.settings.maxWorkers + 4 := by
  simp only [followPolicy] at h
  split at h
  · have hend := endScaling_unrest_le now h
    dsimp only at hend
    omega
  · next n hd =>
      split at h
      · next grown hg =>
          have hend := endScaling_unrest_le now h
          have hcrew := (spawnMany_adds hg).crewUnrest_le now (bench_spawnMany hg)
          dsimp only [PoolOutcome.after] at hend
          omega
      · next error grown hg =>
          have hend := endScaling_unrest_le now h
          obtain ⟨k, made, name, hk, ha, -⟩ := spawnMany_short hg
          have hcrew := ha.crewUnrest_le now (bench_spawnMany hg)
          dsimp only [PoolOutcome.after] at hend
          omega
  · next n hd =>
      -- those who are too many are told to stop, which only calms them
      have hshrink : ∀ {next : Option Retirement} {shrunk : PoolOutcome α},
          p.shrink now n = (next, shrunk) → shrunk.pool.crewUnrest now ≤ p.crewUnrest now := by
        intro next shrunk hs
        have htold := foldl_requestStop_chain
          (p := { p with
            active := p.active.take (max (p.active.length - n) p.settings.minWorkers) })
          (p.active.drop (max (p.active.length - n) p.settings.minWorkers))
        exact Nat.le_trans ((retireInTurn_chain hs).crewUnrest_le now) (htold.crewUnrest_le now)
      split at h
      · next shrunk hs =>
          have hend := endScaling_unrest_le now h
          have hcrew := hshrink hs
          dsimp only [PoolOutcome.after] at hend
          omega
      · next r shrunk hs =>
          obtain ⟨w, hw, hmoved⟩ := moveScaling_unrest now h
          have hcrew := hshrink hs
          have hrest := retireInTurn_rest hs
          rw [List.length_drop] at hrest
          rw [hmoved]
          simp only [Worker.scalerUnrest, hw, PoolOutcome.after]
          omega

theorem fillUp_unrest (hm : p.settings.minWorkers ≤ p.settings.maxWorkers)
    (hl : p.active.length ≤ p.settings.maxWorkers) (h : p.fillUp env now = some o) :
    o.pool.staffUnrest now ≤ p.crewUnrest now +
      8 * (p.settings.maxWorkers - p.active.length) + p.settings.maxWorkers + 4 := by
  simp only [fillUp] at h
  split at h
  · next error o₁ hs =>
      have hend := endScaling_unrest_le now h
      obtain ⟨k, made, name, hk, ha, -⟩ := spawnMany_short hs
      have hcrew := ha.crewUnrest_le now (bench_spawnMany hs)
      omega
  · next o₁ hs =>
      obtain ⟨o₂, hf, rfl⟩ := Option.map_eq_some_iff.mp h
      have ha := spawnMany_adds hs
      have hsettings : o₁.pool.settings = p.settings := by rw [(spawnMany_chain hs).eq_staff]
      have hcrew := ha.crewUnrest_le now (bench_spawnMany hs)
      have hlength := ha.length_active
      have hfollow := followPolicy_unrest (by rw [hsettings, hlength]; omega) hf
      rw [hsettings, hlength] at hfollow
      simp only [PoolOutcome.after]
      omega

/-- What is left of an evaluation once the unfit are told to stop. -/
theorem afterRemoval_unrest {next : Option Retirement}
    (hm : o.pool.settings.minWorkers ≤ o.pool.settings.maxWorkers)
    (hl : o.pool.active.length ≤ o.pool.settings.maxWorkers)
    (h : afterRemoval env now (next, o) = some o') :
    o'.pool.staffUnrest now < o.pool.crewUnrest now + (9 * o.pool.settings.maxWorkers + 6) +
      next.elim 0 fun r => r.rest.length + 1 := by
  cases next with
  | some r =>
      obtain ⟨w, hw, hmoved⟩ := moveScaling_unrest now h
      rw [hmoved]
      simp only [Worker.scalerUnrest, hw, Option.elim_some]
      omega
  | none =>
      obtain ⟨o₁, hf, rfl⟩ := Option.map_eq_some_iff.mp h
      have hfill := fillUp_unrest hm hl hf
      simp only [PoolOutcome.after, Option.elim_none]
      omega

/-- Telling the unfit to stop calms the members, and leaves no more of them to wait for than there
were. -/
theorem removeUnfit_unrest {next : Option Retirement} (now : Instant)
    (h : p.removeUnfit env now = (next, o)) :
    o.pool.crewUnrest now ≤ p.crewUnrest now ∧ o.pool.settings = p.settings ∧
      o.pool.active.length ≤ p.active.length ∧
      (next.elim 0 fun r => r.rest.length + 1) ≤ p.active.length := by
  simp only [removeUnfit, List.partition_eq_filter_filter] at h
  have hchain := retireInTurn_chain h
  refine ⟨hchain.crewUnrest_le now, hchain.settings_eq, ?_, ?_⟩
  · rw [hchain.active_eq]
    exact List.length_filter_le _ _
  · cases next with
    | none => exact Nat.zero_le _
    | some r => exact Nat.le_trans (retireInTurn_rest h) (List.length_filter_le _ _)

/-- Who is let go of is no longer to be retired. -/
theorem retireNext_rest {r : Retirement} {next : Option Retirement}
    (h : p.retireNext now r = some (next, o)) :
    (next.elim 0 fun r => r.rest.length + 1) ≤ r.rest.length := by
  cases next with
  | none => exact Nat.zero_le _
  | some r' =>
      obtain ⟨-, -, he⟩ := Option.map_eq_some_iff.mp h
      exact retireInTurn_rest (Prod.ext (Prod.mk.inj he).1 rfl)

/-- Every step of the scaler lowers the bound, if there is time between two evaluations. -/
theorem scalerStep_unrest {b : ScalerAction} (hm : p.settings.minWorkers ≤ p.settings.maxWorkers)
    (hl : p.active.length ≤ p.settings.maxWorkers)
    (hpaced : p.settings.scaling.evaluateInterval ≠ 0) (h : p.scalerStep env now b = some o) :
    o.pool.staffUnrest now < p.staffUnrest now := by
  cases b with
  | turn =>
      simp only [scalerStep, putScaler, Worker.turn, Option.map_map, Option.map_eq_some_iff] at h
      obtain ⟨w, hw, rfl⟩ := h
      split at hw
      · next hplace =>
          cases hw
          have hlater := Nat.not_le.mpr (Poller.lt_afterWait now hpaced)
          refine Nat.add_lt_add_left ?_ _
          cases hs : p.scaler.stop <;> simp [Worker.scalerUnrest, hplace, hs, hlater]
      · cases hw
  | leave =>
      simp only [scalerStep, putScaler, Worker.finishHook, Option.map_map,
        Option.map_eq_some_iff] at h
      obtain ⟨w, hw, rfl⟩ := h
      split at hw
      · next hplace =>
          cases hw
          refine Nat.add_lt_add_left ?_ _
          simp [Worker.scalerUnrest, hplace]
      · cases hw
  | quit =>
      simp only [scalerStep] at h
      split at h
      · next ends hplace =>
          split at h
          · next hs =>
              have hend := endScaling_unrest now h
              rw [if_pos hs] at hend
              refine Nat.lt_of_le_of_lt hend (Nat.add_lt_add_left ?_ _)
              simp only [Worker.scalerUnrest, hplace]
              split <;> omega
          · cases h
      · cases h
  | evaluate =>
      simp only [scalerStep] at h
      split at h
      · next ends hplace =>
          split at h
          · cases h
          · next hle =>
              -- a sleep that is over has counted for every member that may be made
              have hfound : p.staffUnrest now =
                  p.crewUnrest now + (10 * p.settings.maxWorkers + 6) := by
                simp only [staffUnrest, Worker.scalerUnrest, hplace, if_pos (Nat.le_of_not_lt hle)]
              rw [hfound]
              split at h
              · have hend := endScaling_unrest_le now h
                dsimp only at hend
                omega
              · cases hr : p.removeUnfit env now with
                | mk next o₁ =>
                    rw [hr] at h
                    obtain ⟨hcrew, hsettings, hactive, hnext⟩ := removeUnfit_unrest now hr
                    have hafter := afterRemoval_unrest (by rw [hsettings]; exact hm)
                      (by rw [hsettings]; exact Nat.le_trans hactive hl) h
                    rw [hsettings] at hafter
                    omega
      · cases h
  | retired =>
      simp only [scalerStep] at h
      split at h
      · next r hplace =>
          obtain ⟨⟨next, o₁⟩, hn, ha⟩ := Option.bind_eq_some_iff.mp h
          have hchain := retireNext_chain hn
          have hcrew := hchain.crewUnrest_le now
          have hsettings := hchain.settings_eq
          have hrest := retireNext_rest hn
          have hafter := afterRemoval_unrest (by rw [hsettings]; exact hm)
            (by rw [hsettings, hchain.active_eq]; exact hl) ha
          rw [hsettings] at hafter
          simp only [staffUnrest, Worker.scalerUnrest, hplace] at hafter ⊢
          omega
      · next r hplace =>
          obtain ⟨⟨next, o₁⟩, hn, ha⟩ := Option.bind_eq_some_iff.mp h
          have hcrew := (retireNext_chain hn).crewUnrest_le now
          have hrest := retireNext_rest hn
          have hfound : p.staffUnrest now = p.crewUnrest now + (5 + r.rest.length) := by
            simp only [staffUnrest, Worker.scalerUnrest, hplace]
          rw [hfound]
          cases next with
          | some r' =>
              obtain ⟨w, hw, hmoved⟩ := moveScaling_unrest now ha
              rw [Option.elim_some] at hrest
              rw [hmoved]
              simp only [Worker.scalerUnrest, hw]
              omega
          | none =>
              have hend := endScaling_unrest_le now ha
              omega
      · cases h

/-! ## The calls -/

/-- A call that is answered takes its unrest with it. -/
theorem callsUnrest_filter_le (most : Nat) {calls : List (CallId × PoolErrand α)} {e : PoolErrand α}
    (hc : calls.lookup c = some e) :
    callsUnrest most (calls.filter (·.1 != c)) + e.unrest most ≤ callsUnrest most calls := by
  -- for the calls behind the one that is found: some may have the same name
  have hfilter : ∀ l : List (CallId × PoolErrand α),
      callsUnrest most (l.filter (·.1 != c)) ≤ callsUnrest most l := fun l =>
    (List.filter_sublist.map _).sum_le_sum fun _ _ => Nat.zero_le _
  induction calls with
  | nil => cases hc
  | cons w calls ih =>
      obtain ⟨c', e'⟩ := w
      by_cases hcc : c = c'
      · subst hcc
        simp only [List.lookup_cons, beq_self_eq_true, Option.some.injEq] at hc
        subst hc
        have hrest := hfilter calls
        simp only [callsUnrest, bne_self_eq_false, Bool.false_eq_true, not_false_eq_true,
          List.filter_cons_of_neg, List.map_cons, List.sum_cons] at hrest ⊢
        omega
      · have hne : (c == c') = false := by simp [hcc]
        have hkeep : (c' != c) = true := by simp [Ne.symm hcc]
        simp only [List.lookup_cons, hne] at hc
        have hrest := ih hc
        rw [List.filter_cons_of_pos (by exact hkeep)]
        simp only [callsUnrest, List.map_cons, List.sum_cons] at hrest ⊢
        omega

/-- A call that ends, with the queue as it was or closed. -/
theorem unrest_of_answered (now : Instant) {e : PoolErrand α} (hc : p.calls.lookup c = some e)
    (hs : q.settings = p.settings) (hcrew : q.crewUnrest now ≤ p.crewUnrest now)
    (hscaler : q.scaler = p.scaler) (hcalls : q.calls = p.calls.filter (·.1 != c)) :
    q.unrest now + e.unrest p.settings.maxWorkers ≤ p.unrest now := by
  have hle := callsUnrest_filter_le p.settings.maxWorkers hc
  simp only [unrest, staffUnrest, hs, hscaler, hcalls]
  omega

/-- A shutdown that goes on retiring waits for those that are still waited for. -/
theorem retireAll_unrest (now : Instant) (c : CallId) (graceful : Bool)
    (afterStart : Option PoolError) (pending : List (MemberId × Instant)) (n : Nat) (p : Pool α) :
    (p.retireAll now c graceful afterStart pending n).pool.unrest now ≤
      p.staffUnrest now + callsUnrest p.settings.maxWorkers (p.calls.filter (·.1 != c)) +
        ((pending.filter (p.waitsFor now)).length + 1) := by
  have hswept := (sweep_chain now pending n p).crewUnrest_le now
  have hscaler : (p.sweep now pending n).2.pool.scaler = p.scaler := scaler_sweep pending n
  have hsettings : (p.sweep now pending n).2.pool.settings = p.settings := settings_sweep pending n
  have hcalls : (p.sweep now pending n).2.pool.calls = p.calls := calls_sweep pending n
  by_cases hl : pending.filter (p.waitsFor now) = []
  · rw [retireAll_of_nil hl]
    have hclosed : (p.sweep now pending n).2.pool.closed.pool.crewUnrest now ≤
        (p.sweep now pending n).2.pool.crewUnrest now := crewUnrest_closed_le rfl (.inr rfl)
    have hunrest : (endShutdown ((p.sweep now pending n).2.pool.closed.after
        (p.sweep now pending n).2.events) c afterStart
        (verdict (n + pending.countP (p.isStraggler now)))).pool.unrest now =
        (p.sweep now pending n).2.pool.closed.pool.crewUnrest now +
          (p.sweep now pending n).2.pool.scaler.scalerUnrest now
            (p.sweep now pending n).2.pool.settings.maxWorkers +
          callsUnrest (p.sweep now pending n).2.pool.settings.maxWorkers
            ((p.sweep now pending n).2.pool.calls.filter (·.1 != c)) := rfl
    rw [hunrest, hscaler, hsettings, hcalls, staffUnrest]
    omega
  · rw [retireAll_of_ne_nil hl]
    simp only [unrest, staffUnrest, await, crewUnrest] at hswept ⊢
    rw [hscaler, hsettings, hcalls]
    simp only [callsUnrest, List.map_append, List.map_cons, List.map_nil, List.sum_append,
      List.sum_cons, List.sum_nil, PoolErrand.unrest]
    omega

theorem disbanded_unrest_le (now : Instant) (p : Pool α) :
    p.disbanded.crewUnrest now ≤ p.crewUnrest now :=
  disbanded_chain.crewUnrest_le now

theorem sealed_unrest_le (now : Instant) (graceful : Bool) (p : Pool α) :
    (p.sealed graceful).pool.crewUnrest now ≤ p.crewUnrest now := by
  cases graceful with
  | true => exact crewUnrest_closed_le rfl (.inl rfl)
  | false => exact crewUnrest_closed_le rfl (.inr rfl)

/-- Taking out the crew leaves a wait for each of its members, and the end of the shutdown. -/
theorem retireCrew_unrest (now : Instant) (c : CallId) (graceful : Bool)
    (afterStart : Option PoolError) (hl : p.active.length ≤ p.settings.maxWorkers) :
    (p.retireCrew now c graceful afterStart).pool.unrest now ≤
      p.staffUnrest now + callsUnrest p.settings.maxWorkers (p.calls.filter (·.1 != c)) +
        (p.settings.maxWorkers + 1) := by
  rw [retireCrew_eq, PoolOutcome.after]
  have hretire := retireAll_unrest now c graceful afterStart (p.leavers now) 0
    (p.sealed graceful).pool.disbanded
  have hdisbanded := disbanded_unrest_le now (p.sealed graceful).pool
  have hsealed := sealed_unrest_le now graceful p
  have hleavers := List.length_filter_le
    ((p.sealed graceful).pool.disbanded.waitsFor now) (p.leavers now)
  have hlength : (p.leavers now).length = p.active.length := List.length_map _
  simp only [staffUnrest, settings_disbanded, settings_sealed, scaler_disbanded, scaler_sealed,
    calls_disbanded, calls_sealed] at hretire ⊢
  omega

/-- A call that goes on has less to do than before. -/
theorem resume_unrest (hl : p.active.length ≤ p.settings.maxWorkers)
    (h : p.step env now (.resume c) = some o) : o.pool.unrest now < p.unrest now := by
  simp only [step] at h
  split at h
  · cases h
  · next item ticket deadline hc =>
      have hends : ∀ {q : Pool α} {accepted : Bool}, q = { p with bench := q.bench } →
          q.bench.queue.isClosed = p.bench.queue.isClosed →
          (q.endOffer c accepted).pool.unrest now < p.unrest now := by
        intro q accepted hq hclosed
        have hle := unrest_of_answered now (q := (q.endOffer c accepted).pool) hc
          (by rw [hq]; cases accepted <;> rfl)
          (crewUnrest_closed_le (by rw [hq]; cases accepted <;> rfl)
            (.inl (by cases accepted <;> exact hclosed)))
          (by rw [hq]; cases accepted <;> rfl) (by rw [hq]; cases accepted <;> rfl)
        exact hle
      simp only [resumeOffer] at h
      split at h
      · next queue hq =>
          cases h
          obtain ⟨-, -, rfl⟩ := Queue.resumeOffer_eq_accepted hq
          exact hends rfl rfl
      · next queue hq =>
          cases h
          obtain ⟨-, rfl⟩ := Queue.resumeOffer_eq_returned hq
          exact hends rfl rfl
      · next queue hq =>
          split at h
          · cases h
            rw [Queue.resumeOffer_eq_waiting hq]
            exact hends rfl rfl
          · cases h
  · next graceful point afterStart hc =>
      have hfilter := callsUnrest_filter_le p.settings.maxWorkers hc
      cases point with
      | awaitingScaler deadline =>
          obtain ⟨-, -, rfl⟩ := Option.map_eq_some_iff.mp h
          have hle := retireCrew_unrest now c graceful afterStart hl
          simp only [PoolErrand.unrest] at hfilter
          simp only [unrest] at hle ⊢
          omega
      | retiring pending stragglers =>
          simp only [resumeShutdown] at h
          split at h
          · next hany =>
              cases h
              -- whoever is no longer waited for pays for this step
              obtain ⟨w, hw, hover⟩ := List.any_eq_true.mp hany
              have hfewer : (pending.filter (p.waitsFor now)).length < pending.length :=
                List.length_filter_lt_length_iff_exists.mpr
                  ⟨w, hw, by simp only [waitsFor]; cases hwait : p.stopWait w.1 w.2 now <;> simp_all⟩
              have hle := retireAll_unrest now c graceful afterStart pending stragglers p
              simp only [PoolErrand.unrest] at hfilter
              simp only [unrest] at hle ⊢
              omega
          · cases h
      | awaitingOther deadline =>
          have hends : ∀ result, (endShutdown { pool := p } c afterStart result).pool.unrest now <
              p.unrest now := fun result =>
            unrest_of_answered now (q := (endShutdown { pool := p } c afterStart result).pool) hc rfl
              (Nat.le_refl _) rfl rfl
          simp only [resumeShutdown] at h
          split at h
          · cases h
            exact hends _
          · split at h <;> cases h
            exact hends _

/-! ## One step -/

/-- A sleepless turn of a member. -/
inductive Sleepless (now : Instant) (p : Pool α) : Action α → Prop where
  /-- The member finds nothing at once, and its sleep is over at once. -/
  | turn {i : MemberId} {m : Member α} {draw : Float} (hm : p.crew[i]? = some m)
      (hl : m.poller.Sleepless p.settings.poller now draw p.bench) :
      Sleepless now p (.member i (.turn draw))

theorem Sleepless.isOwn (h : p.Sleepless now a) : a.IsOwn := by
  cases h
  trivial

/-- The unrest of a pool changes with that of the member that acts. -/
theorem acted_unrest {i : MemberId} {m : Member α} {w : Poller.Outcome α} {k l : Nat}
    (hm : p.crew[i]? = some m) (hclosed : w.bench.queue.isClosed = p.bench.queue.isClosed)
    (hle : w.poller.unrest now w.bench.queue.isClosed + k ≤
      m.poller.unrest now p.bench.queue.isClosed + l) :
    (p.acted i w).pool.unrest now + k ≤ p.unrest now + l := by
  obtain ⟨front, back, hcrew, hmod⟩ := crew_split hm fun m => { m with poller := w.poller }
  rw [hclosed] at hle
  simp only [unrest, staffUnrest, crewUnrest, acted, modifyMember, hmod, hclosed]
  simp only [hcrew, List.map_append, List.map_cons, List.sum_append, List.sum_cons]
  omega

/-- Every step that a pool takes by itself lowers the bound, but for a sleepless turn of a member. -/
theorem step_unrest (hm : p.settings.minWorkers ≤ p.settings.maxWorkers)
    (hl : p.active.length ≤ p.settings.maxWorkers)
    (hpaced : p.settings.scaling.evaluateInterval ≠ 0) (hb : p.bench.queue.Backed) (ha : a.IsOwn)
    (h : p.step env now a = some o) :
    o.pool.unrest now < p.unrest now ∨
      p.Sleepless now a ∧ o.pool.unrest now ≤ p.unrest now + 1 := by
  cases a with
  | start | offer item wait | shutdown graceful | flush => cases ha
  | resume c => exact .inl (resume_unrest hl h)
  | scaler b =>
      have hstaff := (scalerStep_chain h).eq_staff
      have hlower := scalerStep_unrest hm hl hpaced h
      have hcalls : o.pool.calls = p.calls := by rw [hstaff]
      have hsettings : o.pool.settings = p.settings := by rw [hstaff]
      refine .inl ?_
      rw [unrest, unrest, hcalls, hsettings]
      exact Nat.add_lt_add_right hlower _
  | member i b =>
      obtain ⟨m, w, hm, hstep, rfl⟩ := memberStep_eq_some.mp h
      have hclosed : w.bench.queue.isClosed = p.bench.queue.isClosed :=
        (Poller.step_deed hstep).draws.closed_eq
      rcases Poller.step_unrest ha hb hstep with hlt | ⟨⟨draw, rfl, hl⟩, hle⟩
      · exact .inl (acted_unrest (k := 1) (l := 0) hm hclosed hlt)
      · exact .inr ⟨.turn hm hl, acted_unrest (k := 0) hm hclosed hle⟩

end Pool

end Backpressure
