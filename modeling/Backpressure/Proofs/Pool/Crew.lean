import Backpressure.Proofs.Poller.Life
import Backpressure.Proofs.Pool.Deeds
import Backpressure.Proofs.Pool.Run

/-!
# The crew only grows

A member keeps its place in the crew for good, whether it is active or not.  With
every step each member evolves, and who joins comes after all others and starts
afresh.  So what holds of a fresh poller and is kept as a poller evolves holds of
every member, and a member that has stopped stays stopped.
-/

namespace Backpressure.Pool

variable {α : Type}

/-- How the crew of a pool goes on. -/
structure Grows (p q : Pool α) : Prop where
  /-- Every member keeps its place and evolves. -/
  kept {i : MemberId} {m : Member α} (hm : p.crew[i]? = some m) :
    ∃ m', q.crew[i]? = some m' ∧ Poller.Evolves m.poller m'.poller
  /-- Who joins starts afresh. -/
  joined {i : MemberId} {m : Member α} (hm : q.crew[i]? = some m) (hi : p.crew.length ≤ i) :
    ∃ s, Poller.Evolves (.fresh s) m.poller

variable {env : Surroundings α} {now : Instant} {p q r : Pool α} {a : Action α} {o : PoolOutcome α}
  {c : CallId} {graceful : Bool} {afterStart : Option PoolError} {es : List (PoolEvent α)}
  {i : MemberId} {m : Member α}

namespace Grows

theorem of_crew_eq (h : q.crew = p.crew) : Grows p q where
  kept hm := ⟨_, h ▸ hm, .refl⟩
  joined hm hi := by
    rw [h, List.getElem?_eq_none hi] at hm
    cases hm

theorem refl (p : Pool α) : Grows p p := of_crew_eq rfl

theorem trans (h : Grows p q) (k : Grows q r) : Grows p r where
  kept hm := by
    obtain ⟨m', hm', he⟩ := h.kept hm
    obtain ⟨m'', hm'', he'⟩ := k.kept hm'
    exact ⟨m'', hm'', he.trans he'⟩
  joined {i m} hm hi := by
    cases hq : q.crew[i]? with
    | none => exact k.joined hm (List.getElem?_eq_none_iff.mp hq)
    | some m' =>
        obtain ⟨m'', hm'', he⟩ := k.kept hq
        obtain ⟨s, hs⟩ := h.joined hq hi
        rw [hm] at hm''
        cases hm''
        exact ⟨s, hs.trans he⟩

/-- One member evolves. -/
theorem modify {f : Member α → Member α} (i : MemberId)
    (hf : ∀ m, p.crew[i]? = some m → Poller.Evolves m.poller (f m).poller) :
    Grows p (p.modifyMember i f) where
  kept {j m} hm := by
    simp only [modifyMember, List.getElem?_modify, hm]
    split
    · next hij =>
        subst hij
        exact ⟨_, rfl, hf m hm⟩
    · exact ⟨_, rfl, .refl⟩
  joined {j m} hm hj := by
    simp only [modifyMember, List.getElem?_modify, List.getElem?_eq_none hj] at hm
    cases hm

/-- What agrees in every member still agrees. -/
theorem sound (h : Grows p q) (hs : ∀ m ∈ p.crew, m.poller.worker.Sound) :
    ∀ m ∈ q.crew, m.poller.worker.Sound := by
  intro m hm
  obtain ⟨i, hi⟩ := List.mem_iff_getElem?.mp hm
  cases hp : p.crew[i]? with
  | none =>
      obtain ⟨s, he⟩ := h.joined hi (List.getElem?_eq_none_iff.mp hp)
      exact he.sound (Poller.sound_fresh s)
  | some m' =>
      obtain ⟨m'', hm'', he⟩ := h.kept hp
      rw [hi] at hm''
      cases hm''
      exact he.sound (hs m' (List.mem_of_getElem? hp))

end Grows

theorem Parting.grows (h : Parting p es q) : Grows p q := by
  cases h with
  | tell i => exact .modify i fun m _ => .told .refl
  | dismiss i t name => exact .modify i fun m _ => .refl

theorem Staffing.grows (h : Staffing p es q) : Grows p q := by
  cases h with
  | part h => exact h.grows
  | hire name t =>
      refine ⟨fun {i m} hm => ⟨m, ?_, .refl⟩, fun {i m} hm hi => ⟨p.settings.poller, ?_⟩⟩
      · exact (List.getElem?_append_left (List.getElem?_eq_some_iff.mp hm).1).trans hm
      · simp only [hired, List.getElem?_append_right hi] at hm
        cases hk : i - p.crew.length with
        | zero =>
            rw [hk] at hm
            cases hm
            exact .refl
        | succ k =>
            rw [hk] at hm
            cases hm
  | refuse name | observe o | regroup active scaler => exact .of_crew_eq rfl

theorem Chain.grows (h : Chain Staffing p es q) : Grows p q := by
  induction h with
  | refl => exact .refl p
  | tail _ hs ih => exact ih.trans hs.grows

theorem retireAll_grows (pending : List (MemberId × Instant)) (n : Nat) :
    Grows p (p.retireAll now c graceful afterStart pending n).pool := by
  have hswept := (sweep_chain now pending n p).staffing.grows
  by_cases hl : pending.filter (p.waitsFor now) = []
  · rw [retireAll_of_nil hl]
    exact hswept.trans (.of_crew_eq rfl)
  · rw [retireAll_of_ne_nil hl]
    exact hswept.trans (.of_crew_eq rfl)

theorem disbanded_grows : Grows p p.disbanded :=
  Grows.trans (q := { p with active := [] }) (.of_crew_eq rfl) disbanded_chain.staffing.grows

theorem retireCrew_grows : Grows p (p.retireCrew now c graceful afterStart).pool := by
  rw [retireCrew_eq]
  have hsealed : Grows p (p.sealed graceful).pool := .of_crew_eq (by simp)
  exact (hsealed.trans disbanded_grows).trans (retireAll_grows _ _)

theorem Opening.grows {p' : Pool α} (ho : Opening env now p a c graceful afterStart es p') :
    Grows p p'.draining := by
  cases ho with
  | asked hp => exact .of_crew_eq rfl
  | failed hp hs =>
      have hrunning : Grows p { p.named with phase := .running } := .of_crew_eq rfl
      exact (hrunning.trans (spawnMany_chain hs).grows).trans (.of_crew_eq rfl)

/-- With every step, every member evolves. -/
theorem Deed.grows (hd : Deed env now p a o) : Grows p o.pool := by
  cases hd with
  | spurned | queued | follows | abandoned | restarted => exact .of_crew_eq rfl
  | accepted ho | returned ho => cases ho <;> exact .of_crew_eq rfl
  | followed hf => cases hf <;> exact .of_crew_eq rfl
  | opens ho hw => exact ho.grows.trans (.of_crew_eq rfl)
  | rushes ho hw => exact ho.grows.trans retireCrew_grows
  | gathers => exact retireCrew_grows
  | sweeps => exact retireAll_grows _ _
  | started hp hs hw | stuck hp hs hw =>
      have hrunning : Grows p { p.named with phase := .running } := .of_crew_eq rfl
      exact (hrunning.trans (spawnMany_chain hs).grows).trans (.of_crew_eq rfl)
  | flushed =>
      refine ⟨fun {i m} hm => ⟨_, by rw [List.getElem?_map, hm]; rfl, .nudged .refl⟩, ?_⟩
      intro i m hm hi
      simp only [List.getElem?_map, List.getElem?_eq_none hi, Option.map_none] at hm
      cases hm
  | @member i b m o hm hs =>
      refine Grows.trans (.modify (f := fun m => { m with poller := o.poller }) i ?_) (.of_crew_eq rfl)
      intro m' hm'
      rw [hm] at hm'
      cases hm'
      exact .acts .refl (Poller.step_deed hs)
  | scaler hs => exact (scalerStep_chain hs).grows

/-! ## Along a run -/

theorem Run.grows {R : Regime α} {t₀ t : Instant} {p₀ : Pool α} {h : History α}
    (run : Run R t₀ p₀ h t p) : Grows p₀ p := by
  induction run with
  | here => exact .refl p₀
  | act _ _ hs ih => exact ih.trans (step_deed hs).grows
  | pass _ _ ih => exact ih

/-- The phase, the stop flag and the place of every member agree. -/
theorem Run.sound {R : Regime α} {t₀ t : Instant} {s : PoolSettings} {h : History α}
    (run : Run R t₀ (ofSettings s) h t p) : ∀ m ∈ p.crew, m.poller.worker.Sound := by
  refine run.grows.sound fun m hm => ?_
  cases hm

/-- A member has stopped. -/
def HasStopped (p : Pool α) (i : MemberId) : Prop :=
  ∃ m, p.crew[i]? = some m ∧ m.poller.worker.Sound ∧ m.phase = .stopped

/-- A member that has stopped stays stopped. -/
theorem HasStopped.grows (hi : p.HasStopped i) (hg : Grows p q) : q.HasStopped i := by
  obtain ⟨m, hm, hs, hp⟩ := hi
  obtain ⟨m', hm', he⟩ := hg.kept hm
  exact ⟨m', hm', he.sound hs, he.stopped hs hp⟩

end Backpressure.Pool
