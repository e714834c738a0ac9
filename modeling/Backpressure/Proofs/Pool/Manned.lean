import Backpressure.Proofs.Pool.Course
import Backpressure.Proofs.Pool.Order

/-!
# A pool that is manned

A pool with one handler for all members never finds anybody unfit, since whoever is
active runs.  So until a shutdown gathers its crew, its members only leave because there
are too many, its scaler never replaces anybody, and somebody is active from the start
on.

`Manned` keeps this together with the order in the crew.
-/

namespace Backpressure.Pool

variable {α : Type}

/-- A pool with one handler for all members.  The factory refuses nobody and finds fit who
runs, and the handler panics only while it runs. -/
def Regime.handler : Regime α where
  allows _ env a :=
    env.refusal = (fun _ => none) ∧ (∀ m, env.isFit m = (m.phase == .running)) ∧ a.IsTame

/-- The crew has not been gathered. -/
structure Manned (p : Pool α) : Prop where
  /-- The crew is in order. -/
  order : Orderly p p.shrinks
  /-- Somebody is active from the start on. -/
  crewed : p.phase ≠ .created → p.active ≠ []
  /-- The scaler is not about to replace anybody. -/
  steady : ∀ r, p.scaler.place ≠ .inside (.replacing r)
  /-- Polls go on. -/
  opened : p.bench.queue.ready.closed = false
  /-- So do offers. -/
  unsealed : p.bench.queue.slots.closed = false
  /-- Nothing was thrown away. -/
  kept : p.discarded = 0

/-- What an iteration of the scaler comes to. -/
structure Manages (p : Pool α) : Prop where
  /-- The crew is in order. -/
  order : Orderly p p.shrinks
  /-- Somebody is active. -/
  crewed : p.active ≠ []
  /-- Nobody is about to be replaced. -/
  steady : ∀ r, p.scaler.place ≠ .inside (.replacing r)

variable {env : Surroundings α} {now : Instant} {p q : Pool α} {a : Action α} {o o' : PoolOutcome α}
  {h : History α} {m : Member α}

theorem shrinks_eq_none (h : ∀ r, p.scaler.place ≠ .inside (.shrinking r)) : p.shrinks = none := by
  unfold shrinks
  split
  · next r hp => exact absurd hp (h r)
  · rfl

/-! ## The scaler -/

theorem Orderly.endScaling {how : IterationEnd} (ho : Orderly o.pool none)
    (hc : o.pool.active ≠ []) (h : endScaling o how = some o') : Manages o'.pool := by
  obtain ⟨w, rfl, hw⟩ := endScaling_eq_some h
  refine ⟨?_, hc, fun r => hw _⟩
  rw [shrinks_eq_none fun r => hw _]
  exact ho.of_crew_eq rfl rfl

theorem Orderly.moveScaling {r : Retirement} (ho : Orderly o.pool (some r))
    (hc : o.pool.active ≠ []) (h : moveScaling o (.shrinking r) = some o') :
    Manages o'.pool := by
  obtain ⟨w, rfl, hw⟩ := moveScaling_eq_some h
  refine ⟨?_, hc, by simp [hw]⟩
  have hshrinks : shrinks { o.pool with scaler := w } = some r := by simp [shrinks, hw]
  rw [hshrinks]
  exact ho.of_crew_eq rfl rfl

theorem active_spawnMany {n : Nat} (hc : p.active ≠ [] ∨ 0 < n)
    (h : p.spawnMany env now n = (none, o)) : o.pool.active ≠ [] := by
  obtain ⟨new, -, -, hq⟩ := spawnMany_eq_none h
  rw [hq]
  simp only [ne_eq, List.append_eq_nil_iff, List.range'_eq_nil_iff, not_and]
  intro hnil
  exact Nat.pos_iff_ne_zero.mp (hc.resolve_left fun h => h hnil)

theorem active_shrink {n : Nat} {r : Option Retirement} (hc : p.active ≠ [])
    (hmin : 0 < p.settings.minWorkers) (h : p.shrink now n = (r, o)) : o.pool.active ≠ [] := by
  simp only [shrink] at h
  rw [(retireInTurn_chain h).active_eq, (foldl_requestStop_chain _).active_eq]
  simp only [ne_eq, List.take_eq_nil_iff, not_or]
  exact ⟨by omega, hc⟩

theorem spawnMany_ne_some {n : Nat} {error : PoolError} (he : env.refusal = fun _ => none) :
    p.spawnMany env now n ≠ (some error, o) := by
  intro h
  have hnone := spawnMany_ne_error now n p he
  rw [h] at hnone
  cases hnone

/-- Following the policy leaves the crew in order. -/
theorem Orderly.followPolicy (ho : Orderly p none) (hc : p.active ≠ [])
    (hmin : 0 < p.settings.minWorkers) (he : env.refusal = fun _ => none)
    (h : p.followPolicy env now = some o) : Manages o.pool := by
  simp only [Pool.followPolicy] at h
  split at h
  · exact Orderly.endScaling (o := { events := [.observed (p.observe now)], pool := p }) ho hc h
  · split at h
    · next hg =>
        have horder := ho.spawnMany hg
        have hcrewed := active_spawnMany (.inl hc) hg
        refine Orderly.endScaling ?_ ?_ h
        · exact horder
        · exact hcrewed
    · next hg => exact absurd hg (spawnMany_ne_some he)
  · split at h
    · next hg =>
        have horder := ho.shrink hg
        have hcrewed := active_shrink hc hmin hg
        refine Orderly.endScaling ?_ ?_ h
        · exact horder
        · exact hcrewed
    · next hg =>
        have horder := ho.shrink hg
        have hcrewed := active_shrink hc hmin hg
        refine Orderly.moveScaling ?_ ?_ h
        · exact horder
        · exact hcrewed

/-- Filling up leaves the crew in order. -/
theorem Orderly.fillUp (ho : Orderly p none) (hc : p.active ≠ [])
    (hmin : 0 < p.settings.minWorkers) (he : env.refusal = fun _ => none)
    (h : p.fillUp env now = some o) : Manages o.pool := by
  simp only [Pool.fillUp] at h
  split at h
  · next hs => exact absurd hs (spawnMany_ne_some he)
  · next o₁ hs =>
      obtain ⟨o₂, hf, rfl⟩ := Option.map_eq_some_iff.mp h
      have hsettings := congrArg Pool.settings (spawnMany_chain hs).eq_staff
      have hmanages := (ho.spawnMany hs).followPolicy (active_spawnMany (.inl hc) hs)
        (by rw [hsettings]; exact hmin) he hf
      exact hmanages

/-- Nobody who is active is unfit. -/
theorem Orderly.removeUnfit {r : Option Retirement} (ho : Orderly p r)
    (hsound : ∀ m ∈ p.crew, m.poller.worker.Sound)
    (he : ∀ m, env.isFit m = (m.phase == .running)) :
    p.removeUnfit env now = (none, { pool := p }) := by
  have hfit : ∀ i ∈ p.active, (p.crew[i]?).any env.isFit = true := by
    intro i hi
    obtain ⟨m, hm, hs⟩ := (ho.active i).mp hi
    cases hsound m (List.mem_of_getElem? hm) with
    | running hp => simp [hm, he, Member.phase, hp]
    | told _ hs' | stopped _ hs' => simp [hs] at hs'
  have hall := List.filter_eq_self.mpr hfit
  have hnone : p.active.filter (not ∘ fun i => (p.crew[i]?).any env.isFit) = [] := by
    rw [List.filter_eq_nil_iff]
    intro i hi
    simp [hfit i hi]
  simp only [Pool.removeUnfit, List.partition_eq_filter_filter, hall, hnone]
  rfl

/-- Whatever the scaler does leaves the crew in order. -/
theorem Manned.manages (hm : Manned p) (hc : p.active ≠ [])
    (hsound : ∀ m ∈ p.crew, m.poller.worker.Sound) (hmin : 0 < p.settings.minWorkers)
    (ha : Regime.handler.allows p env a) (hs : ScalerDeed env now p o) : Manages o.pool := by
  obtain ⟨he, hfit, -⟩ := ha
  have hidle : (∀ r, p.scaler.place ≠ .inside (.shrinking r)) → Orderly p none := by
    intro hnone
    rw [← shrinks_eq_none hnone]
    exact hm.order
  have hretired : ∀ {r next o}, p.scaler.place = .inside (.shrinking r) →
      p.retireNext now r = some (next, o) → Orderly o.pool next ∧ o.pool.active ≠ [] := by
    intro r next o hp hn
    have hshrinks : p.shrinks = some r := by simp [shrinks, hp]
    refine ⟨(hshrinks ▸ hm.order).retireNext hn, ?_⟩
    rw [(retireNext_chain hn).active_eq]
    exact hc
  cases hs with
  | @turns w hp hw =>
      have hsleeps : ∀ r, w.place ≠ .inside (.shrinking r) ∧ w.place ≠ .inside (.replacing r) := by
        intro r
        constructor <;> intro hplace <;> obtain ⟨ends, he⟩ := hw _ hplace <;> cases he
      refine ⟨?_, hc, fun r => (hsleeps r).2⟩
      rw [shrinks_eq_none fun r => (hsleeps r).1]
      exact (hidle fun r => hp _).of_crew_eq rfl rfl
  | rises hp hend =>
      exact Orderly.endScaling (o := { pool := p }) (hidle (by simp [hp])) hc hend
  | evaluates hp hr hfill =>
      have horder := hidle (by simp [hp])
      rw [horder.removeUnfit hsound hfit] at hfill
      obtain ⟨o₁, hfilled, rfl⟩ := Option.map_eq_some_iff.mp hfill
      have hmanages := horder.fillUp hc hmin he hfilled
      exact hmanages
  | replaces hp hn hfill => exact absurd hp (hm.steady _)
  | shrinks hp hn hmove =>
      obtain ⟨horder, hcrewed⟩ := hretired hp hn
      exact horder.moveScaling hcrewed hmove
  | shrunk hp hn hend =>
      obtain ⟨horder, hcrewed⟩ := hretired hp hn
      exact horder.endScaling hcrewed hend

/-- A scaler that moves leaves the pool manned. -/
theorem Manned.scaler (hm : Manned p) (hc : p.active ≠ [])
    (hsound : ∀ m ∈ p.crew, m.poller.worker.Sound) (hmin : 0 < p.settings.minWorkers)
    (ha : Regime.handler.allows p env a) (hs : ScalerDeed env now p o) : Manned o.pool := by
  have hmanages := hm.manages hc hsound hmin ha hs
  have hstaff := hs.chain.eq_staff
  have hbench : o.pool.bench = p.bench := by rw [hstaff]
  refine ⟨hmanages.order, fun _ => hmanages.crewed, hmanages.steady, ?_, ?_, ?_⟩
  · rw [hbench]
    exact hm.opened
  · rw [hbench]
    exact hm.unsealed
  · rw [hstaff]
    exact hm.kept

/-! ## Everybody else -/

theorem Orderly.of_tells {r : Option Retirement} (ho : Orderly p r) (h : Tells [] p q)
    (ha : q.active = p.active) : Orderly q r where
  nodup := ha ▸ ho.nodup
  active i := h.active (by intro i h; cases h) ha (ho.active i)
  leaving := by
    rw [ha]
    exact ho.leaving

/-- What changes nothing but the calls, the items and the offers leaves the pool manned. -/
theorem Manned.of_tells (hm : Manned p) (h : Tells [] p q) (ha : q.active = p.active)
    (hp : q.phase = p.phase) (hscaler : q.scaler = p.scaler)
    (hc : q.bench.queue.ready.closed = p.bench.queue.ready.closed)
    (hslots : q.bench.queue.slots.closed = p.bench.queue.slots.closed)
    (hd : q.discarded = p.discarded) : Manned q where
  order := by
    rw [shrinks, hscaler]
    exact hm.order.of_tells h ha
  crewed := by
    rw [hp, ha]
    exact hm.crewed
  steady := by
    rw [hscaler]
    exact hm.steady
  opened := hc.trans hm.opened
  unsealed := hslots.trans hm.unsealed
  kept := hd.trans hm.kept

/-- A member that acts leaves the pool manned. -/
theorem Manned.member {i : MemberId} {es : List (Poller.Event α)} {w : Poller α} {b : Bench α}
    (hm : Manned p) (hi : p.crew[i]? = some m) (hd : Poller.Deed m.poller p.bench es w b) :
    Manned { p.modifyMember i fun m => { m with poller := w } with bench := b } where
  order := hm.order.member hi hd
  crewed := hm.crewed
  steady := hm.steady
  opened := hd.draws.closed_eq.trans hm.opened
  unsealed := hd.isSealed_eq.trans hm.unsealed
  kept := hm.kept

/-- The members that are made at the start leave the scaler as it was made. -/
theorem IsNew.scaler_eq {error : Option PoolError} (hn : p.IsNew)
    (hs : spawnMany env now p.settings.minWorkers { p.named with phase := .running } = (error, o)) :
    o.pool.scaler = {} := by
  have hkept := scaler_spawnMany env now p.settings.minWorkers
    { p.named with phase := .running }
  rw [hs] at hkept
  obtain ⟨s, n, rejected, rfl⟩ := hn
  exact hkept

/-- A pool that has just been started is manned. -/
theorem Manned.started {scaler : Worker ScalerPoint Unit} (hm : Manned p) (hn : p.IsNew)
    (hmin : 0 < p.settings.minWorkers)
    (hs : spawnMany env now p.settings.minWorkers { p.named with phase := .running } = (none, o))
    (hw : o.pool.scaler.start = some scaler) :
    Manned (answer { o with pool.scaler := scaler } p.nextCall (.ended (.ok ()))).pool := by
  have hstaff := (spawnMany_chain hs).eq_staff
  have hshrinks : p.shrinks = none := by
    obtain ⟨s, n, rejected, rfl⟩ := hn
    rfl
  rw [hn.scaler_eq hs] at hw
  cases hw
  have hnew : Orderly { p.named with phase := .running } none :=
    (hshrinks ▸ hm.order).of_crew_eq rfl rfl
  have hactive := active_spawnMany (.inr hmin) hs
  have hbench : o.pool.bench = p.bench := by rw [hstaff]; rfl
  refine ⟨(hnew.spawnMany hs).of_crew_eq rfl rfl, fun _ => hactive, nofun, ?_, ?_, ?_⟩
  · simp only [answer, hbench]
    exact hm.opened
  · simp only [answer, hbench]
    exact hm.unsealed
  · have hdiscarded : o.pool.discarded = p.discarded := by rw [hstaff]; rfl
    exact hdiscarded.trans hm.kept

/-! ## Up to a shutdown -/

theorem Manned.first (s : PoolSettings) : Manned (ofSettings s : Pool α) where
  order := ⟨.nil, fun _ => ⟨nofun, nofun⟩, (by intro i h; cases h)⟩
  crewed h := absurd rfl h
  steady := (by intro i h; cases h)
  opened := rfl
  unsealed := rfl
  kept := rfl

/-- A pool whose shutdown begins is manned. -/
theorem Manned.opening {c : CallId} {graceful : Bool} {afterStart : Option PoolError}
    {es : List (PoolEvent α)} {p' : Pool α} (hm : Manned p)
    (ha : Regime.handler.allows p env a) (ho : Opening env now p a c graceful afterStart es p') :
    Manned p'.draining := by
  cases ho with
  | asked hp =>
      exact ⟨hm.order.of_crew_eq rfl rfl, fun _ => hm.crewed (by simp [hp]), hm.steady,
        hm.opened, hm.unsealed, hm.kept⟩
  | failed hp hs => exact absurd hs (spawnMany_ne_some ha.1)

/-- A pool whose shutdown begins to wait for the scaler is manned. -/
theorem Manned.await {c : CallId} {e : PoolErrand α} (hm : Manned p) :
    Manned (Pool.await { pool := p } c e).pool :=
  hm.of_tells (.of_crew_eq rfl) rfl rfl rfl rfl rfl rfl

/-- Whatever does not steer leaves a pool manned that does not stop. -/
theorem Manned.aloof (hm : Manned p) (he : Ends p) (hsound : ∀ m ∈ p.crew, m.poller.worker.Sound)
    (hmin : 0 < p.settings.minWorkers) (ha : Regime.handler.allows p env a)
    (hs : Deed env now p a o) (hst : ¬Steers env now p a) (hp : o.pool.phase ≠ .stopped) :
    Manned o.pool := by
  cases hs with
  | spurned | follows | restarted => exact hm.of_tells (.of_crew_eq rfl) rfl rfl rfl rfl rfl rfl
  | accepted ho hq hslots =>
      cases ho <;> exact hm.of_tells (.of_crew_eq rfl) rfl rfl rfl rfl (hslots.trans hq.symm) rfl
  | returned ho hslots => cases ho <;> exact hm.of_tells (.of_crew_eq rfl) rfl rfl rfl rfl hslots rfl
  | queued _ hslots => exact hm.of_tells (.of_crew_eq rfl) rfl rfl rfl rfl hslots rfl
  | followed hf => cases hf <;> exact hm.of_tells (.of_crew_eq rfl) rfl rfl rfl rfl rfl rfl
  | abandoned => exact absurd rfl hp
  | opens ho | rushes ho => exact absurd ho.steers hst
  | gathers hc | sweeps hc => exact absurd ⟨_, mem_of_lookup hc, rfl⟩ hst
  | started hp' hs' hw => exact hm.started (he.created hp') hmin hs' hw
  | stuck hp' hs' hw =>
      rw [(he.created hp').scaler_eq hs'] at hw
      cases hw
  | flushed => exact hm.of_tells .flush rfl rfl rfl rfl rfl rfl
  | member hi hs' => exact hm.member hi (Poller.step_deed hs')
  | scaler hs' =>
      refine hm.scaler (hm.crewed fun hcreated => ?_) hsound hmin ha (scalerStep_deed hs')
      obtain ⟨s, n, rejected, rfl⟩ := he.created hcreated
      rw [scalerStep_of_unstarted rfl] at hs'
      cases hs'

end Backpressure.Pool
