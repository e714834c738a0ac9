import Backpressure.Proofs.Pool.Ends
import Backpressure.Proofs.Pool.Scaling

/-!
# The number of active members

Whatever the factory and the policy say, there are never more active members than the pool
may have.  They stand in the order in which they joined, so that those who leave from the end
are the youngest (`Sized`).

The start makes the fewest members, a shutdown lets all of them go, and in between only the
scaler changes their number, in the ways that `Scales` lists.
-/

namespace Backpressure.Pool

open Duration (ofMillis)

variable {α : Type} {env : Surroundings α} {now : Instant} {p q : Pool α} {a : Action α}
  {o : PoolOutcome α} {c : CallId} {graceful : Bool} {afterStart : Option PoolError}
  {es : List (PoolEvent α)} {h : History α} {most k : Nat}

/-- The active members are in the order in which they joined, and not too many. -/
structure Sized (most : Nat) (p : Pool α) : Prop where
  sorted : p.active.Pairwise (· < ·)
  known : ∀ i ∈ p.active, i < p.crew.length
  length_le : p.active.length ≤ most

namespace Sized

theorem of_nil (ha : q.active = []) : Sized most q where
  sorted := ha ▸ List.Pairwise.nil
  known i hi := by
    rw [ha] at hi
    cases hi
  length_le := by
    rw [ha]
    exact Nat.zero_le most

/-- A pool that only loses active members keeps to its size. -/
theorem narrow (hs : Sized most p) (ha : q.active.Sublist p.active)
    (hc : q.crew.length = p.crew.length) : Sized most q where
  sorted := hs.sorted.sublist ha
  known i hi := hc ▸ hs.known i (ha.subset hi)
  length_le := Nat.le_trans ha.length_le hs.length_le

theorem of_eq (hs : Sized most p) (ha : q.active = p.active)
    (hc : q.crew.length = p.crew.length) : Sized most q :=
  hs.narrow (ha ▸ List.Sublist.refl _) hc

/-- New members are within the size as long as there is room for them. -/
theorem adds (hs : Sized most p) (ha : Adds k p es q) (hle : p.active.length + k ≤ most) :
    Sized most q where
  sorted := ha.sorted hs.sorted hs.known
  known i hi := by
    rw [ha.active] at hi
    rw [ha.length_crew]
    rcases List.mem_append.mp hi with hi | hi
    · exact Nat.lt_add_right k (hs.known i hi)
    · exact (List.mem_range'_1.mp hi).2
  length_le := by
    rw [ha.length_active]
    exact hle

end Sized

/-! ## The scaler -/

/-- The policy is followed only up to the most members. -/
theorem Follows.sized (hs : Sized p.settings.maxWorkers p) (hf : Follows env now p es q) :
    Sized p.settings.maxWorkers q := by
  have hle := hs.length_le
  cases hf with
  | held hd ha hc => exact hs.of_eq ha hc
  | grown hd ha => exact hs.adds ha (by omega)
  | stinted hd hk ha => exact hs.adds ha (by omega)
  | shrunk hd hshrunk he =>
      refine hs.narrow ?_ hshrunk.crew
      rw [hshrunk.active]
      exact List.sublist_append_left _ _

/-- Missing members are made up for up to the fewest, and then the policy is followed. -/
theorem Fills.sized (hm : p.settings.minWorkers ≤ p.settings.maxWorkers)
    (hs : Sized p.settings.maxWorkers p) (hf : Fills env now p es q) :
    Sized p.settings.maxWorkers q := by
  have hle := hs.length_le
  cases hf with
  | short hk ha => exact hs.adds ha (by omega)
  | full ha hl hsettings hfollows =>
      have hfilled := hs.adds ha (by omega)
      rw [← hsettings] at hfilled ⊢
      exact hfollows.sized hfilled

theorem Looks.sublist {stay leave : List MemberId} (hl : Looks env p stay leave) :
    stay.Sublist p.active := by
  cases hl with
  | now hp hr => exact List.filter_sublist
  | before hp => exact List.Sublist.refl _

/-- Whatever the scaler does, a pool of no more than the most members stays so. -/
theorem Scales.sized (hm : p.settings.minWorkers ≤ p.settings.maxWorkers)
    (hs : Sized p.settings.maxWorkers p) (h : Scales env now p o) :
    Sized p.settings.maxWorkers o.pool := by
  cases h with
  | rests hp hq ha hc he => exact hs.of_eq ha hc
  | waits hl ha hc hq he hn => exact hs.narrow (ha ▸ hl.sublist) hc
  | goesOn hl ha hc hsettings he hn hf hr =>
      have hleft := hs.narrow (ha ▸ hl.sublist) hc
      rw [← hsettings] at hleft hm ⊢
      exact hf.sized hm hleft

/-! ## The pool -/

theorem active_retireAll (pending : List (MemberId × Instant)) (n : Nat) :
    (p.retireAll now c graceful afterStart pending n).pool.active = p.active := by
  by_cases hl : pending.filter (p.waitsFor now) = []
  · rw [retireAll_of_nil hl]
    exact active_sweep pending n
  · rw [retireAll_of_ne_nil hl]
    exact active_sweep pending n

theorem length_crew_retireAll (pending : List (MemberId × Instant)) (n : Nat) :
    (p.retireAll now c graceful afterStart pending n).pool.crew.length = p.crew.length := by
  have hsweep := (sweep_chain now pending n p).length_crew_eq
  by_cases hl : pending.filter (p.waitsFor now) = []
  · rw [retireAll_of_nil hl]
    exact hsweep
  · rw [retireAll_of_ne_nil hl]
    exact hsweep

/-- A shutdown takes out everybody at once. -/
theorem active_retireCrew : (p.retireCrew now c graceful afterStart).pool.active = [] := by
  rw [retireCrew_eq, PoolOutcome.after, active_retireAll, disbanded_chain.active_eq]

theorem IsNew.active_eq (hp : p.IsNew) : p.active = [] := by
  obtain ⟨s, n, rejected, rfl⟩ := hp
  rfl

/-- The start makes no more than the fewest members. -/
theorem Sized.started {n : Nat} {error : Option PoolError} (hp : p.IsNew)
    (hn : n ≤ p.settings.maxWorkers)
    (hs : spawnMany env now n { p.named with phase := .running } = (error, o)) :
    Sized p.settings.maxWorkers o.pool := by
  have hnone : Sized p.settings.maxWorkers { p.named with phase := .running } :=
    .of_nil hp.active_eq
  have hzero : ({ p.named with phase := .running } : Pool α).active.length = 0 := by
    show p.active.length = 0
    rw [hp.active_eq]
    rfl
  cases error with
  | none => exact hnone.adds (spawnMany_adds hs) (by omega)
  | some error =>
      obtain ⟨k, made, name, hk, ha, -⟩ := spawnMany_short hs
      exact hnone.adds ha (by omega)

theorem Deed.sized (hm : p.settings.minWorkers ≤ p.settings.maxWorkers) (he : Ends p)
    (hs : Sized p.settings.maxWorkers p) (hd : Deed env now p a o) :
    Sized p.settings.maxWorkers o.pool := by
  cases hd with
  | spurned | queued | follows | abandoned | restarted => exact hs.of_eq rfl rfl
  | accepted ho | returned ho => cases ho <;> exact hs.of_eq rfl rfl
  | followed hf => cases hf <;> exact hs.of_eq rfl rfl
  | opens ho hw =>
      cases ho with
      | asked hp => exact hs.of_eq rfl rfl
      | failed hp hspawn => exact (Sized.started (he.created hp) hm hspawn).of_eq rfl rfl
  | rushes | gathers => exact .of_nil active_retireCrew
  | sweeps hc => exact hs.of_eq (active_retireAll _ _) (length_crew_retireAll _ _)
  | started hp hspawn hw | stuck hp hspawn hw =>
      exact (Sized.started (he.created hp) hm hspawn).of_eq rfl rfl
  | flushed => exact hs.of_eq rfl (List.length_map _)
  | member => exact hs.of_eq rfl (List.length_modify _ _ _)
  | scaler hscaler => exact ((scalerStep_deed hscaler).scales hs.sorted hs.known).sized hm hs

/-- Along every run there are never more active members than the settings allow. -/
theorem Run.sized {R : Regime α} {t₀ t : Instant} {s : PoolSettings}
    (hm : s.minWorkers ≤ s.maxWorkers) (run : Run R t₀ (ofSettings s) h t p) :
    Sized s.maxWorkers p := by
  induction run with
  | here => exact .of_nil rfl
  | pass run _ ih => exact ih
  | act run _ hs ih =>
      have hsettings := run.settings_eq
      have hdeed := (step_deed hs).sized (hsettings ▸ hm) run.ends (hsettings ▸ ih)
      rwa [hsettings] at hdeed

theorem min_le_max_of_make {s : PoolSettings} (hs : make s = .ok p) :
    s.minWorkers ≤ s.maxWorkers := by
  simp only [make] at hs
  split at hs
  · next hcheck =>
      refine Nat.le_of_not_lt fun hlt => ?_
      by_cases hzero : s.minWorkers = 0
      · omega
      · simp only [PoolSettings.check, if_neg hzero, if_pos hlt] at hcheck
        cases hcheck
  · cases hs

/-- There are never more active members than the pool may have, and all that the scaler ever
does with them is in the list. -/
theorem Run.scaled {R : Regime α} {t₀ t : Instant} {s : PoolSettings} {p₀ : Pool α}
    (made : make s = .ok p₀) (run : Run R t₀ p₀ h t p) :
    p.settings = s ∧ p.active.length ≤ s.maxWorkers ∧
      ∀ env now b o, p.scalerStep env now b = some o → Scales env now p o := by
  have hm := min_le_max_of_make made
  obtain ⟨rfl, -⟩ := make_eq_ok made
  have hs := run.sized hm
  refine ⟨run.settings_eq, hs.length_le, fun env now b o hstep => ?_⟩
  exact (scalerStep_deed hstep).scales hs.sorted hs.known

/-- A factory that rejects the first worker and refuses the third, and a policy that wants many
workers or none. -/
def fickle : Surroundings Nat where
  refusal name := if name = "worker-2" then some "no" else none
  isFit m := m.name != "worker-0"
  decide o := if o.active < 3 then .grow 7 else .shrink 7

/-- A hasty pool that may have three members. -/
def hastyTrio : PoolSettings := { hasty with maxWorkers := 3 }

/-- The first member is replaced, which takes until its time is up; the pool grows, at the second
try; and it is about to shrink. -/
def moods : List (Instant × Action Nat) :=
  [(0, .start), (0, .scaler .turn), (ofMillis 10, .scaler .evaluate),
    (ofMillis 30, .scaler .retired), (ofMillis 30, .scaler .turn),
    (ofMillis 40, .scaler .evaluate), (ofMillis 40, .scaler .turn)]

theorem scaled_of_moods : ∃ h t p o, make hastyTrio = .ok (ofSettings hastyTrio : Pool Nat) ∧
    (ofSettings hastyTrio).play fickle 0 moods = some (h, t, p) ∧ p.active = [1, 2, 3] ∧
      p.scalerStep fickle (ofMillis 50) .evaluate = some o ∧ o.pool.active = [1] ∧
      Scales fickle (ofMillis 50) p o := by
  have hplay : ((ofSettings hastyTrio).play fickle 0 moods).map
      (fun w => (w.2.2.active, (w.2.2.scalerStep fickle (ofMillis 50) .evaluate).map
        fun o => o.pool.active)) = some ([1, 2, 3], some [1]) := by
    rfl
  obtain ⟨h, t, p, hp, he⟩ := play_of_map hplay
  simp only [Prod.mk.injEq] at he
  obtain ⟨hactive, hnext⟩ := he
  obtain ⟨o, hstep, hleft⟩ := Option.map_eq_some_iff.mp hnext
  have hmade : make hastyTrio = .ok (ofSettings hastyTrio : Pool Nat) := by rfl
  have hrun : Run .any 0 _ h t p := Run.play (fun _ _ _ => trivial) hp
  exact ⟨h, t, p, o, hmade, hp, hactive, hstep, hleft, (hrun.scaled hmade).2.2 _ _ _ _ hstep⟩

end Backpressure.Pool
