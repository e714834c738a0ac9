import Backpressure.Proofs.Pool.Crew
import Backpressure.Proofs.Pool.Promises
import Mathlib.Data.List.Nodup

/-!
# Order in the crew

While a pool with one handler for all members runs, the active members are just those
that were not told to stop.  Whoever else is about was taken out because there were too
many, and is retired in turn.

*Telling.*  Telling members to stop and letting go of them changes nothing else about
them.  `Tells` says so of the crew as a whole.
-/

namespace Backpressure

variable {α : Type}

/-- The members of a retirement. -/
def Retirement.members (r : Retirement) : List MemberId := r.member :: r.rest

namespace Pool

/-- A member before and after it was told to stop or not. -/
structure Alike (told : Bool) (m m' : Member α) : Prop where
  /-- It polls as before. -/
  polls : m'.poller.polls = m.poller.polls
  /-- It is as far as before. -/
  finished : m'.poller.worker.place.isFinished = m.poller.worker.place.isFinished
  /-- It was told before or is now. -/
  stop : m'.poller.worker.stop = (m.poller.worker.stop || told)

/-- The crew before and after some members were told to stop. -/
structure Tells (l : List MemberId) (p q : Pool α) : Prop where
  /-- Nobody is left out. -/
  fore {i : MemberId} {m : Member α} (hm : p.crew[i]? = some m) :
    ∃ m', q.crew[i]? = some m' ∧ Alike (decide (i ∈ l)) m m'
  /-- Nobody joins. -/
  back {i : MemberId} {m' : Member α} (hm : q.crew[i]? = some m') :
    ∃ m, p.crew[i]? = some m ∧ Alike (decide (i ∈ l)) m m'

/-- The retirement of those who are too many, if the scaler is at one. -/
def shrinks (p : Pool α) : Option Retirement :=
  match p.scaler.place with
  | .inside (.shrinking r) => some r
  | _ => none

/-- The active members are those that were not told to stop. -/
structure Orderly (p : Pool α) (r : Option Retirement) : Prop where
  /-- Nobody is active twice. -/
  nodup : p.active.Nodup
  /-- Who is active was not told to stop. -/
  active (i : MemberId) : i ∈ p.active ↔ ∃ m, p.crew[i]? = some m ∧ m.poller.worker.stop = false
  /-- Who is retired is not active. -/
  leaving : ∀ r' ∈ r, ∀ i ∈ r'.members, i ∉ p.active

variable {env : Surroundings α} {now : Instant} {p q r : Pool α} {o : PoolOutcome α}
  {l k : List MemberId} {i : MemberId} {m m' : Member α} {es : List (PoolEvent α)}

/-! ## Telling -/

namespace Tells

theorem of_crew_eq (h : q.crew = p.crew) : Tells [] p q where
  fore hm := ⟨_, h ▸ hm, rfl, rfl, by simp⟩
  back hm := ⟨_, h ▸ hm, rfl, rfl, by simp⟩

theorem trans (h : Tells l p q) (h' : Tells k q r) : Tells (l ++ k) p r where
  fore {i m} hm := by
    obtain ⟨m', hm', ha⟩ := h.fore hm
    obtain ⟨m'', hm'', hb⟩ := h'.fore hm'
    refine ⟨m'', hm'', hb.polls.trans ha.polls, hb.finished.trans ha.finished, ?_⟩
    rw [hb.stop, ha.stop]
    simp [Bool.or_assoc]
  back {i m''} hm := by
    obtain ⟨m', hm', hb⟩ := h'.back hm
    obtain ⟨m, hm, ha⟩ := h.back hm'
    refine ⟨m, hm, hb.polls.trans ha.polls, hb.finished.trans ha.finished, ?_⟩
    rw [hb.stop, ha.stop]
    simp [Bool.or_assoc]

/-- One member changes. -/
theorem modify {f : Member α → Member α} (i : MemberId) (hf : ∀ j m, Alike (decide (j ∈ l)) m
    (if i = j then f m else m)) : Tells l p (p.modifyMember i f) where
  fore {j m} hm := by
    refine ⟨if i = j then f m else m, ?_, hf j m⟩
    simp only [modifyMember, List.getElem?_modify, hm]
    split <;> rfl
  back {j m'} hm := by
    simp only [modifyMember, List.getElem?_modify] at hm
    obtain ⟨m, hm', rfl⟩ := Option.map_eq_some_iff.mp hm
    exact ⟨m, hm', hf j m⟩

theorem tell (i : MemberId) : Tells [i] p (p.requestStop i) := by
  refine modify i fun j m => ?_
  split
  · next hij => exact ⟨rfl, rfl, by simp [hij, Worker.requestStop]⟩
  · next hij => exact ⟨rfl, rfl, by simp [Ne.symm hij]⟩

theorem dismiss (i : MemberId) (t : Instant) :
    Tells [] p (p.modifyMember i fun m => { m with dismissed := some t }) := by
  refine modify i fun j m => ?_
  split <;> exact ⟨rfl, rfl, by simp⟩

theorem foldl (l : List MemberId) : Tells l p (l.foldl requestStop p) := by
  induction l generalizing p with
  | nil => exact of_crew_eq rfl
  | cons i l ih => exact (tell i).trans ih

theorem sweep (pending : List (MemberId × Instant)) (n : Nat) :
    Tells [] p (p.sweep now pending n).2.pool := by
  induction pending generalizing p n with
  | nil => exact of_crew_eq rfl
  | cons w pending ih =>
      obtain ⟨i, deadline⟩ := w
      simp only [Pool.sweep]
      split
      · exact ih n
      · exact (dismiss i now).trans (ih _)

theorem flush :
    Tells [] p { p with crew := p.crew.map fun m => { m with poller := m.poller.nudge } } where
  fore hm := ⟨_, by rw [List.getElem?_map, hm]; rfl, by simp, by simp, by simp⟩
  back hm := by
    rw [List.getElem?_map] at hm
    obtain ⟨m, hm', rfl⟩ := Option.map_eq_some_iff.mp hm
    exact ⟨m, hm', by simp, by simp, by simp⟩

/-- Changes of the staff by which nobody joins tell members to stop, or let go of them. -/
theorem of_chain (h : Chain Staffing p es q) (hn : ∀ name, .created name ∉ es) :
    ∃ l, Tells l p q := by
  induction h with
  | refl => exact ⟨[], of_crew_eq rfl⟩
  | tail _ hc ih =>
      obtain ⟨l, hl⟩ := ih fun name he => hn name (List.mem_append_left _ he)
      cases hc with
      | part hc =>
          cases hc with
          | tell i => exact ⟨_, hl.trans (tell i)⟩
          | dismiss i t name => exact ⟨_, hl.trans (dismiss i t)⟩
      | hire name t => exact absurd (List.mem_append_right _ List.mem_cons_self) (hn name)
      | refuse name | observe o | regroup active scaler =>
          exact ⟨_, hl.trans (of_crew_eq rfl)⟩

/-- Telling those who are not active leaves the active ones untold. -/
theorem active (h : Tells l p q) (hl : ∀ i ∈ l, i ∉ p.active) (ha : q.active = p.active)
    (hp : i ∈ p.active ↔ ∃ m, p.crew[i]? = some m ∧ m.poller.worker.stop = false) :
    i ∈ q.active ↔ ∃ m, q.crew[i]? = some m ∧ m.poller.worker.stop = false := by
  rw [ha]
  constructor
  · intro hi
    obtain ⟨m, hm, hs⟩ := hp.mp hi
    obtain ⟨m', hm', halike⟩ := h.fore hm
    refine ⟨m', hm', ?_⟩
    rw [halike.stop, hs, Bool.false_or, decide_eq_false_iff_not]
    exact fun hil => hl i hil hi
  · rintro ⟨m', hm', hs⟩
    obtain ⟨m, hm, halike⟩ := h.back hm'
    rw [halike.stop, Bool.or_eq_false_iff] at hs
    exact hp.mpr ⟨m, hm, hs.1⟩

end Tells

/-! ## Waiting -/

theorem lt_of_stopWait {deadline : Instant} (hw : p.stopWait i deadline now = none) :
    now < deadline := by
  simp only [stopWait] at hw
  split at hw
  · simp only [Worker.stopWait] at hw
    split at hw
    · cases hw
    · split at hw
      · cases hw
      · next hle => exact Nat.lt_of_not_le hle
  · cases hw

/-! ## Order in the crew -/

theorem Orderly.of_crew_eq {r : Option Retirement} (ho : Orderly p r) (hc : q.crew = p.crew)
    (ha : q.active = p.active) : Orderly q r where
  nodup := ha ▸ ho.nodup
  active i := by
    rw [ha, hc]
    exact ho.active i
  leaving := by
    rw [ha]
    exact ho.leaving

/-- Members that are not active are retired in turn. -/
theorem Orderly.retireInTurn {r : Option Retirement} (hn : p.active.Nodup)
    (ha : ∀ i, i ∈ p.active ↔ ∃ m, p.crew[i]? = some m ∧ m.poller.worker.stop = false)
    (hl : ∀ i ∈ l, i ∉ p.active) (h : p.retireInTurn now l = (r, o)) : Orderly o.pool r := by
  induction l generalizing p r o with
  | nil =>
      cases h
      exact ⟨hn, ha, by simp⟩
  | cons i l ih =>
      simp only [Pool.retireInTurn] at h
      have hi : ∀ j ∈ [i], j ∉ p.active := fun j hj =>
        List.mem_singleton.mp hj ▸ hl i List.mem_cons_self
      have htold : ∀ j, j ∈ (p.requestStop i).active ↔
          ∃ m, (p.requestStop i).crew[j]? = some m ∧ m.poller.worker.stop = false :=
        fun j => (Tells.tell i).active hi rfl (ha j)
      split at h
      · cases h
        refine ⟨hn, htold, ?_⟩
        rintro r' ⟨⟩
        exact hl
      · cases h
        have hgone : Tells [] (p.requestStop i) (dismiss now i (p.requestStop i)).pool :=
          .dismiss i now
        have hrest := ih (p := (dismiss now i (p.requestStop i)).pool) hn
          (fun j => hgone.active (List.forall_mem_nil _) rfl (htold j))
          (fun j hj => hl j (List.mem_cons_of_mem _ hj)) rfl
        exact hrest

/-- The scaler takes out those who are too many. -/
theorem Orderly.shrink {n : Nat} {r : Option Retirement} (ho : Orderly p none)
    (h : p.shrink now n = (r, o)) : Orderly o.pool r := by
  simp only [Pool.shrink] at h
  generalize max (p.active.length - n) p.settings.minWorkers = keep at h
  have hchain := foldl_requestStop_chain (p := { p with active := p.active.take keep })
    (p.active.drop keep)
  have hfold : Tells (p.active.drop keep) { p with active := p.active.take keep } _ := .foldl _
  have htold : Tells (p.active.drop keep) p _ := ⟨hfold.fore, hfold.back⟩
  have hactive := hchain.active_eq
  have hdisjoint : ∀ i ∈ p.active.drop keep, i ∉ p.active.take keep := fun i hi hi' =>
    List.disjoint_take_drop ho.nodup (Nat.le_refl keep) hi' hi
  refine retireInTurn ?_ (fun i => ?_) ?_ h
  · rw [hactive]
    exact ho.nodup.sublist (List.take_sublist _ _)
  · rw [hactive]
    constructor
    · intro hi
      obtain ⟨m, hm, hs⟩ := (ho.active i).mp (List.mem_of_mem_take hi)
      obtain ⟨m', hm', ha⟩ := htold.fore hm
      refine ⟨m', hm', ?_⟩
      rw [ha.stop, hs, Bool.false_or, decide_eq_false_iff_not]
      exact fun hi' => hdisjoint i hi' hi
    · rintro ⟨m', hm', hs⟩
      obtain ⟨m, hm, ha⟩ := htold.back hm'
      rw [ha.stop, Bool.or_eq_false_iff, decide_eq_false_iff_not] at hs
      have hi := (ho.active i).mpr ⟨m, hm, hs.1⟩
      rw [← List.take_append_drop keep p.active, List.mem_append] at hi
      exact hi.resolve_right hs.2
  · rw [hactive]
    exact hdisjoint

/-- The scaler goes on with those who are too many. -/
theorem Orderly.retireNext {r : Retirement} {next : Option Retirement}
    (ho : Orderly p (some r)) (h : p.retireNext now r = some (next, o)) : Orderly o.pool next := by
  obtain ⟨b, hw, he⟩ := Option.map_eq_some_iff.mp h
  cases he
  have hgone : Tells [] p (dismiss now r.member p).pool := .dismiss r.member now
  have hrest : (dismiss now r.member p).pool.retireInTurn now r.rest = _ := rfl
  have horder := Orderly.retireInTurn (p := (dismiss now r.member p).pool) ho.nodup
    (fun i => hgone.active (List.forall_mem_nil _) rfl (ho.active i))
    (fun i hi => ho.leaving r rfl i (List.mem_cons_of_mem _ hi)) hrest
  exact horder

/-- Whoever joins is active. -/
theorem Orderly.spawnMany {n : Nat} (ho : Orderly p none)
    (h : p.spawnMany env now n = (none, o)) : Orderly o.pool none := by
  obtain ⟨new, hn, hfresh, hq⟩ := spawnMany_eq_none h
  have hactive : ∀ i ∈ p.active, i < p.crew.length := by
    intro i hi
    obtain ⟨m, hm, -⟩ := (ho.active i).mp hi
    exact (List.getElem?_eq_some_iff.mp hm).1
  have hnew : ∀ {i m}, p.crew.length ≤ i → (p.crew ++ new)[i]? = some m → m ∈ new := by
    intro i m hi hm
    rw [List.getElem?_append_right hi] at hm
    exact List.mem_of_getElem? hm
  rw [hq]
  refine ⟨?_, ?_, by simp⟩
  · refine List.nodup_append.mpr ⟨ho.nodup, List.nodup_range', fun i hi j hj hij => ?_⟩
    subst hij
    exact absurd (hactive i hi) (Nat.not_lt_of_le (List.mem_range'_1.mp hj).1)
  · intro i
    rw [List.mem_append, List.mem_range'_1]
    by_cases hi : i < p.crew.length
    · rw [List.getElem?_append_left hi, ho.active i]
      exact or_iff_left (fun h => absurd hi (Nat.not_lt_of_le h.1))
    · have hle := Nat.le_of_not_lt hi
      constructor
      · rintro (hmem | ⟨-, hlt⟩)
        · exact absurd (hactive i hmem) hi
        · have hlength : i < (p.crew ++ new).length := by
            rw [List.length_append, hn]
            exact hlt
          refine ⟨_, List.getElem?_eq_getElem hlength, ?_⟩
          rw [hfresh _ (hnew hle (List.getElem?_eq_getElem hlength))]
          rfl
      · rintro ⟨m, hm, -⟩
        have hlt := (List.getElem?_eq_some_iff.mp hm).1
        rw [List.length_append, hn] at hlt
        exact .inr ⟨hle, hlt⟩

/-- The members after one of them has acted. -/
theorem getElem?_acted {j : MemberId} {f : Member α → Member α} (hm : p.crew[i]? = some m)
    (hm' : (p.modifyMember i f).crew[j]? = some m') :
    j = i ∧ m' = f m ∨ j ≠ i ∧ p.crew[j]? = some m' := by
  simp only [modifyMember] at hm'
  by_cases hij : i = j
  · subst hij
    rw [List.getElem?_modify_eq, hm] at hm'
    cases hm'
    exact .inl ⟨rfl, rfl⟩
  · rw [List.getElem?_modify_ne _ _ hij] at hm'
    exact .inr ⟨Ne.symm hij, hm'⟩

/-- A member that acts leaves the crew in order. -/
theorem Orderly.member {r : Option Retirement} {es : List (Poller.Event α)} {w : Poller α}
    {b : Bench α} (ho : Orderly p r) (hm : p.crew[i]? = some m)
    (hd : Poller.Deed m.poller p.bench es w b) :
    Orderly { p.modifyMember i fun m => { m with poller := w } with bench := b } r where
  nodup := ho.nodup
  active j := by
    refine (ho.active j).trans ⟨fun ⟨m', hm', hs⟩ => ?_, fun ⟨m', hm', hs⟩ => ?_⟩
    · by_cases hij : i = j
      · subst hij
        rw [hm] at hm'
        cases hm'
        exact ⟨_, by simp only [modifyMember, List.getElem?_modify_eq, hm]; rfl, hd.stop_eq.trans hs⟩
      · exact ⟨m', by simp only [modifyMember, List.getElem?_modify_ne _ _ hij]; exact hm', hs⟩
    · rcases getElem?_acted hm hm' with ⟨rfl, rfl⟩ | ⟨-, hm'⟩
      · exact ⟨m, hm, hd.stop_eq.symm.trans hs⟩
      · exact ⟨m', hm', hs⟩
  leaving := ho.leaving

end Pool

end Backpressure
