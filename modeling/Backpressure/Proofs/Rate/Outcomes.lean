import Backpressure.Proofs.Rate.Cap
import Backpressure.Proofs.Registry

/-!
# What becomes of attempts

Every attempt ends once, or waits.  One that finds the controller off or the cap reached
ends at once; any other makes its call, once, and ends with what the call ends with, or
cancelled.

*Books.*  `made` are the calls that were made and `settled` those whose attempts have
ended, both read off the acts.  What was made is settled or still under way, and each of
them is on the books once (`Ledger`).

*Looking.*  An attempt ends when it looks.  A call that is over by then is passed on, even
past its deadline; with any other the attempt is cancelled, and counted as such.

*Late calls.*  A call is late if it is not over at its deadline.  If no attempt is left
waiting beyond its deadline, being late settles what its attempt ends with (`fate`) and
which of them are counted as cancelled.  A call that is in time may itself end with an
error of that kind; it is passed on like any other, and not counted.
-/

namespace Backpressure.Rate

variable {ρ : Type}

namespace Invocation

/-- Whether the call is not over at its deadline. -/
def isLate (i : Invocation ρ) : Bool := !i.isOver i.deadline

/-- What an attempt ends with that looks at its call at a moment. -/
def outcome (i : Invocation ρ) (now : Instant) : Except CallError ρ :=
  if i.isOver now then i.result else .error (.cancelled i.limit)

end Invocation

namespace Calls

/-! ## Books -/

namespace Act

/-- The name of the attempt that begins in an act. -/
def begun? (m : Act ρ) : Option CallId :=
  match m.action with
  | .attempt _ _ => some m.found.nextAttempt
  | .resume _ | .enable | .disable => none

/-- The call that is made in an act. -/
def made? (m : Act ρ) : Option (Invocation ρ) :=
  match m.action with
  | .attempt limit plan =>
    if m.admits then some (plan.start m.now m.found.nextAttempt limit) else none
  | .resume _ | .enable | .disable => none

/-- The call whose attempt ends in an act. -/
def settled? (m : Act ρ) : Option (Invocation ρ) :=
  match m.action with
  | .resume attempt => m.found.running.find? (·.attempt == attempt)
  | .attempt _ _ | .enable | .disable => none

end Act

/-- The names of the attempts, in order. -/
def begun (h : List (Act ρ)) : List CallId := h.filterMap Act.begun?

/-- The calls that were made, in order. -/
def made (h : List (Act ρ)) : List (Invocation ρ) := h.filterMap Act.made?

/-- The calls whose attempts have ended, in order. -/
def settled (h : List (Act ρ)) : List (Invocation ρ) := h.filterMap Act.settled?

variable {settings : RateSettings} {now t : Instant} {c : Calls ρ} {a : Action ρ}
  {o : CallsOutcome ρ} {h : List (Act ρ)} {attempt : CallId} {i : Invocation ρ}

theorem begun_append_singleton (m : Act ρ) : begun (h ++ [m]) = begun h ++ m.begun?.toList := by
  cases hm : m.begun? <;> simp [begun, hm]

theorem made_append_singleton (m : Act ρ) : made (h ++ [m]) = made h ++ m.made?.toList := by
  cases hm : m.made? <;> simp [made, hm]

theorem settled_append_singleton (m : Act ρ) :
    settled (h ++ [m]) = settled h ++ m.settled?.toList := by
  cases hm : m.settled? <;> simp [settled, hm]

/-- A call has the name of the attempt that made it. -/
theorem Act.begun_of_made {m : Act ρ} (hm : m.made? = some i) : m.begun? = some i.attempt := by
  unfold made? at hm
  split at hm
  · next ha =>
      split at hm
      · cases hm
        simp only [begun?, ha]
        rfl
      · cases hm
  all_goals cases hm

/-- Calls are made for attempts that have begun, in the order of the attempts. -/
theorem made_sublist_begun (h : List (Act ρ)) : ((made h).map (·.attempt)).Sublist (begun h) := by
  induction h with
  | nil => exact List.Sublist.refl _
  | cons m h ih =>
      cases hm : m.made? with
      | none =>
          have hmade : made (m :: h) = made h := List.filterMap_cons_none hm
          cases hb : m.begun? with
          | none => simpa [hmade, begun, hb] using ih
          | some x => simpa [hmade, begun, hb] using ih.cons x
      | some i =>
          have hmade : made (m :: h) = i :: made h := List.filterMap_cons_some hm
          have hbegun : begun (m :: h) = i.attempt :: begun h :=
            List.filterMap_cons_some (Act.begun_of_made hm)
          rw [hmade, hbegun]
          exact ih.cons_cons _

/-- The books of a controller and its calls. -/
structure Ledger (h : List (Act ρ)) (c : Calls ρ) : Prop where
  /-- The names are given out in order. -/
  names : begun h = List.range c.nextAttempt
  /-- A call that was made is settled or under way. -/
  books : (made h).Perm (settled h ++ c.running)
  /-- An attempt has ended or waits for its call. -/
  told : ((answered (seen h)).map (·.1) ++ c.running.map (·.attempt)).Perm
    (List.range c.nextAttempt)

namespace Ledger

theorem nodup_made (hl : Ledger h c) : ((made h).map (·.attempt)).Nodup :=
  (hl.names ▸ List.nodup_range).sublist (made_sublist_begun h)

/-- No attempt is answered twice, or answered while it runs. -/
theorem nodup_told (hl : Ledger h c) :
    ((answered (seen h)).map (·.1) ++ c.running.map (·.attempt)).Nodup :=
  hl.told.nodup_iff.mpr List.nodup_range

theorem nodup_running (hl : Ledger h c) : (c.running.map (·.attempt)).Nodup :=
  (List.nodup_append.mp hl.nodup_told).2.1

theorem lt_nextAttempt (hl : Ledger h c)
    (ha : attempt ∈ (answered (seen h)).map (·.1) ++ c.running.map (·.attempt)) :
    attempt < c.nextAttempt := List.mem_range.mp (hl.told.mem_iff.mp ha)

theorem made_lt (hl : Ledger h c) (hi : i ∈ made h) : i.attempt < c.nextAttempt := by
  have hmem := (made_sublist_begun h).subset (List.mem_map_of_mem (f := (·.attempt)) hi)
  rw [hl.names] at hmem
  exact List.mem_range.mp hmem

/-! ### What an act does to the books -/

variable {m : Act ρ} {c' : Calls ρ} {r : Except CallError ρ}

/-- An attempt that ends where it begins. -/
theorem refuse (hl : Ledger h c) (hb : m.begun? = some c.nextAttempt) (hm : m.made? = none)
    (hs : m.settled? = none) (ha : answered m.outcome.events = [(c.nextAttempt, r)])
    (hrun : c'.running = c.running) (hnext : c'.nextAttempt = c.nextAttempt + 1) :
    Ledger (h ++ [m]) c' where
  names := by
    rw [begun_append_singleton, hb, hl.names, hnext, List.range_succ]
    rfl
  books := by
    rw [made_append_singleton, settled_append_singleton, hm, hs, hrun]
    simpa using hl.books
  told := by
    rw [seen_append_singleton, answered_append, ha, hrun, hnext, List.range_succ, List.map_append,
      List.append_assoc]
    refine (List.Perm.append_left _ List.perm_append_comm).trans ?_
    rw [← List.append_assoc]
    exact hl.told.append_right _

/-- An attempt that makes its call. -/
theorem enter (hl : Ledger h c) (hi : i.attempt = c.nextAttempt)
    (hb : m.begun? = some c.nextAttempt)
    (hm : m.made? = some i) (hs : m.settled? = none) (ha : answered m.outcome.events = [])
    (hrun : c'.running = c.running ++ [i]) (hnext : c'.nextAttempt = c.nextAttempt + 1) :
    Ledger (h ++ [m]) c' where
  names := by
    rw [begun_append_singleton, hb, hl.names, hnext, List.range_succ]
    rfl
  books := by
    rw [made_append_singleton, settled_append_singleton, hm, hs, hrun, ← List.append_assoc]
    simpa using hl.books.append_right [i]
  told := by
    rw [seen_append_singleton, answered_append, ha, List.append_nil, hrun, hnext, List.range_succ,
      List.map_append, ← List.append_assoc, List.map_singleton, hi]
    exact hl.told.append_right _

/-- An attempt that waited and ends. -/
theorem settle (hl : Ledger h c) (hi : i ∈ c.running) (hb : m.begun? = none) (hm : m.made? = none)
    (hs : m.settled? = some i) (ha : answered m.outcome.events = [(i.attempt, r)])
    (hrun : c'.running = c.running.filter (·.attempt != i.attempt))
    (hnext : c'.nextAttempt = c.nextAttempt) : Ledger (h ++ [m]) c' where
  names := by
    rw [begun_append_singleton, hb, hnext]
    simpa using hl.names
  books := by
    have hfront := perm_cons_filter hl.nodup_running hi
    rw [made_append_singleton, settled_append_singleton, hm, hs, hrun, List.append_assoc]
    simpa using hl.books.trans (hfront.append_left _)
  told := by
    have hfront := (perm_cons_filter hl.nodup_running hi).map (·.attempt)
    rw [seen_append_singleton, answered_append, ha, hrun, hnext, List.map_append, List.append_assoc]
    exact (hfront.symm.append_left _).trans hl.told

/-- An act that is about no attempt. -/
theorem quiet (hl : Ledger h c) (hb : m.begun? = none) (hm : m.made? = none)
    (hs : m.settled? = none) (ha : answered m.outcome.events = []) (hrun : c'.running = c.running)
    (hnext : c'.nextAttempt = c.nextAttempt) : Ledger (h ++ [m]) c' where
  names := by
    rw [begun_append_singleton, hb, hnext]
    simpa using hl.names
  books := by
    rw [made_append_singleton, settled_append_singleton, hm, hs, hrun]
    simpa using hl.books
  told := by
    rw [seen_append_singleton, answered_append, ha, hrun, hnext, List.append_nil]
    exact hl.told

theorem name_of_find (hi : c.running.find? (·.attempt == attempt) = some i) :
    i ∈ c.running ∧ i.attempt = attempt :=
  ⟨List.mem_of_find?_eq_some hi, by simpa using List.find?_some hi⟩

theorem deed (hl : Ledger h c) (hd : Deed t c a o) : Ledger (h ++ [⟨t, a, c, o⟩]) o.calls := by
  cases hd with
  | disabled | refused => exact hl.refuse rfl rfl rfl rfl rfl rfl
  | admitted => exact hl.enter rfl rfl rfl rfl rfl rfl rfl
  | ended attempt i hi hover =>
      obtain ⟨hmem, rfl⟩ := name_of_find hi
      exact hl.settle hmem rfl rfl hi rfl rfl rfl
  | cancelled attempt i hi hover hdue =>
      obtain ⟨hmem, rfl⟩ := name_of_find hi
      exact hl.settle hmem rfl rfl hi rfl rfl rfl
  | enable | disable => exact hl.quiet rfl rfl rfl rfl rfl rfl

end Ledger

/-- Along every run each attempt is answered or runs, and once. -/
theorem Run.ledger (run : Run settings h t c) : Ledger h c := by
  induction run with
  | here t => exact ⟨rfl, List.Perm.refl _, List.Perm.refl _⟩
  | act run hs ih => exact ih.deed (step_deed hs)
  | pass run hle ih => exact ih

/-! ## Counters -/

/-- Whether an attempt begins in an act and finds the controller on. -/
def Act.isOpen (m : Act ρ) : Bool := m.begun?.isSome && m.found.controller.switch.enabled

/-- What the counters say about attempts that begin. -/
structure Tally (h : List (Act ρ)) (c : Calls ρ) : Prop where
  admitted : c.controller.stats.admitted = (made h).length
  opened : (h.filter Act.isOpen).length =
    c.controller.stats.admitted + c.controller.stats.rejected
  calls : invoked (seen h) = (made h).map fun i => (i.attempt, i.limit)

theorem Tally.step {m : Act ρ} {c' : Calls ρ} (ht : Tally h c)
    (hadmitted : c'.controller.stats.admitted =
      c.controller.stats.admitted + m.made?.toList.length)
    (hopened : c'.controller.stats.admitted + c'.controller.stats.rejected =
      c.controller.stats.admitted + c.controller.stats.rejected + if m.isOpen then 1 else 0)
    (hcalls : invoked m.outcome.events = m.made?.toList.map fun i => (i.attempt, i.limit)) :
    Tally (h ++ [m]) c' where
  admitted := by
    rw [hadmitted, ht.admitted, made_append_singleton, List.length_append]
  opened := by
    rw [hopened, ← ht.opened, List.filter_append, List.length_append]
    cases hm : m.isOpen <;> simp [hm]
  calls := by
    rw [seen_append_singleton, invoked_append, hcalls, ht.calls, made_append_singleton,
      List.map_append]

theorem Tally.deed (ht : Tally h c) (hd : Deed t c a o) : Tally (h ++ [⟨t, a, c, o⟩]) o.calls := by
  cases hd with
  | disabled limit plan hoff => exact ht.step rfl (by simp [Act.isOpen, hoff]) rfl
  | refused limit plan wait log hon hcap hlog =>
      refine ht.step rfl ?_ rfl
      simp [Act.isOpen, Act.begun?, hon]
      omega
  | admitted limit plan counter hon hroom =>
      refine ht.step rfl ?_ rfl
      simp [Act.isOpen, Act.begun?, hon]
      omega
  | ended | cancelled | enable | disable => exact ht.step rfl rfl rfl

/-- Along every run the counters count the attempts by how they opened. -/
theorem Run.tally (run : Run settings h t c) : Tally h c := by
  induction run with
  | here t => exact ⟨rfl, rfl, rfl⟩
  | act run hs ih => exact ih.deed (step_deed hs)
  | pass run hle ih => exact ih

/-! ## Looking -/

/-- Whether an attempt is cancelled in an act. -/
def Act.isCut (m : Act ρ) : Bool := m.settled?.any fun i => !i.isOver m.now

/-- What attempts end with, and which are counted as cancelled. -/
structure Looks (h : List (Act ρ)) (c : Calls ρ) : Prop where
  /-- The answer to an attempt whose call was made is from the act in which it looks. -/
  ends : ∀ i ∈ made h, ∀ r, (i.attempt, r) ∈ answered (seen h) →
    ∃ m ∈ h, m.settled? = some i ∧ r = i.outcome m.now
  /-- As cancelled are counted those that were cut short. -/
  counted : c.controller.stats.cancelled = h.countP Act.isCut

namespace Looks

variable {m : Act ρ} {c' : Calls ρ}

/-- An act in which no call is made and no attempt ends that made one. -/
theorem pass (hk : Looks h c) (hl : Ledger h c) (hm : m.made? = none) (hs : m.settled? = none)
    (ha : ∀ w ∈ answered m.outcome.events, w.1 = c.nextAttempt)
    (hc : c'.controller.stats.cancelled = c.controller.stats.cancelled) : Looks (h ++ [m]) c' where
  ends i hi r hr := by
    rw [made_append_singleton, hm, Option.toList_none, List.append_nil] at hi
    rw [seen_append_singleton, answered_append] at hr
    rcases List.mem_append.mp hr with hr | hr
    · obtain ⟨n, hn, hend⟩ := hk.ends i hi r hr
      exact ⟨n, List.mem_append_left _ hn, hend⟩
    · exact absurd (hl.made_lt hi) (by simpa using Nat.le_of_eq (ha _ hr).symm)
  counted := by
    rw [hc, hk.counted, List.countP_append, List.countP_singleton, Act.isCut, hs]
    rfl

/-- An attempt that makes its call has no answer yet. -/
theorem enter (hk : Looks h c) (hl : Ledger h c) (hi : i.attempt = c.nextAttempt)
    (hm : m.made? = some i) (hs : m.settled? = none) (ha : answered m.outcome.events = [])
    (hc : c'.controller.stats.cancelled = c.controller.stats.cancelled) : Looks (h ++ [m]) c' where
  ends j hj r hr := by
    rw [seen_append_singleton, answered_append, ha, List.append_nil] at hr
    rw [made_append_singleton, hm] at hj
    rcases List.mem_append.mp hj with hj | hj
    · obtain ⟨n, hn, hend⟩ := hk.ends j hj r hr
      exact ⟨n, List.mem_append_left _ hn, hend⟩
    · have hlt := hl.lt_nextAttempt (List.mem_append_left _ (List.mem_map_of_mem (f := (·.1)) hr))
      rw [List.mem_singleton.mp hj, hi] at hlt
      exact absurd hlt (Nat.lt_irrefl _)
  counted := by
    rw [hc, hk.counted, List.countP_append, List.countP_singleton, Act.isCut, hs]
    rfl

/-- An attempt looks, and ends. -/
theorem settle (hk : Looks h c) (hl : Ledger h c) (hi : i ∈ c.running) (hm : m.made? = none)
    (hs : m.settled? = some i) (ha : answered m.outcome.events = [(i.attempt, i.outcome m.now)])
    (hc : c'.controller.stats.cancelled =
      c.controller.stats.cancelled + if i.isOver m.now then 0 else 1) : Looks (h ++ [m]) c' where
  ends j hj r hr := by
    rw [made_append_singleton, hm, Option.toList_none, List.append_nil] at hj
    rw [seen_append_singleton, answered_append, ha] at hr
    rcases List.mem_append.mp hr with hr | hr
    · obtain ⟨n, hn, hend⟩ := hk.ends j hj r hr
      exact ⟨n, List.mem_append_left _ hn, hend⟩
    · have hpair := List.mem_singleton.mp hr
      simp only [Prod.mk.injEq] at hpair
      have hmade : i ∈ made h := hl.books.symm.subset (List.mem_append_right _ hi)
      have hsame := List.inj_on_of_nodup_map hl.nodup_made hj hmade hpair.1
      rw [hsame]
      exact ⟨m, List.mem_append_right _ List.mem_cons_self, hs, hpair.2⟩
  counted := by
    rw [hc, hk.counted, List.countP_append, List.countP_singleton, Act.isCut, hs]
    cases hover : i.isOver m.now <;> simp [hover]

theorem deed (hk : Looks h c) (hl : Ledger h c) (hd : Deed t c a o) :
    Looks (h ++ [⟨t, a, c, o⟩]) o.calls := by
  cases hd with
  | disabled limit plan | refused limit plan =>
      exact hk.pass hl rfl rfl (fun w hw => by rw [List.mem_singleton.mp hw]) rfl
  | admitted => exact hk.enter hl rfl rfl rfl rfl rfl
  | enable | disable => exact hk.pass hl rfl rfl (fun w hw => absurd hw List.not_mem_nil) rfl
  | ended attempt i hi hover =>
      obtain ⟨hmem, rfl⟩ := Ledger.name_of_find hi
      refine hk.settle hl hmem rfl hi ?_ (by simp [hover, without])
      rw [Invocation.outcome, if_pos hover]
      rfl
  | cancelled attempt i hi hover hdue =>
      obtain ⟨hmem, rfl⟩ := Ledger.name_of_find hi
      refine hk.settle hl hmem rfl hi ?_ (by simp [hover])
      rw [Invocation.outcome, hover]
      rfl

end Looks

/-- Along every run an answer to a call was found when it was looked at. -/
theorem Run.looks (run : Run settings h t c) : Looks h c := by
  induction run with
  | here t => exact ⟨fun i hi => absurd hi List.not_mem_nil, rfl⟩
  | pass run hle ih => exact ih
  | act run hs ih => exact ih.deed run.ledger (step_deed hs)

/-! ## Late calls -/

/-- A call that is over stays so. -/
theorem isOver_mono {t' : Instant} (hover : i.isOver t = true) (hle : t ≤ t') :
    i.isOver t' = true := by
  unfold Invocation.isOver at *
  cases hends : i.ends with
  | none => simp [hends] at hover
  | some e =>
      simp only [hends, Option.any_some, decide_eq_true_eq] at hover ⊢
      exact Nat.le_trans hover hle

/-- An attempt only looks when its call is over or its deadline is there. -/
theorem Deed.due_of_settled {m : Act ρ} (hd : Deed m.now m.found m.action m.outcome)
    (hs : m.settled? = some i) :
    i ∈ m.found.running ∧ (i.isOver m.now = false → i.deadline ≤ m.now) := by
  obtain ⟨now, action, found, outcome⟩ := m
  dsimp only at hd ⊢
  cases hd with
  | disabled | refused | admitted | enable | disable => cases hs
  | ended attempt j hj hover =>
      cases hj.symm.trans hs
      exact ⟨(Ledger.name_of_find hj).1, fun hnot => absurd (hover.symm.trans hnot) nofun⟩
  | cancelled attempt j hj hover hdue =>
      cases hj.symm.trans hs
      exact ⟨(Ledger.name_of_find hj).1, fun _ => hdue⟩

/-- An attempt that looks in time finds its call over just when it is not late. -/
theorem Deed.isOver_eq {m : Act ρ} (hd : Deed m.now m.found m.action m.outcome)
    (hprompt : m.Prompt) (hs : m.settled? = some i) : i.isOver m.now = i.isOver i.deadline := by
  obtain ⟨hmem, hdue⟩ := hd.due_of_settled hs
  have hle := hprompt i hmem
  cases hover : i.isOver m.now with
  | true => exact (isOver_mono hover hle).symm
  | false => rw [← Nat.le_antisymm hle (hdue hover), hover]

/-- If no look comes late, those that are cut off are the calls that are not over at their
deadline. -/
theorem countP_isCut (run : Run settings h t c) (hprompt : ∀ m ∈ h, m.Prompt) :
    h.countP Act.isCut = (settled h).countP (·.isLate) := by
  rw [settled, List.countP_filterMap]
  refine List.countP_congr fun m hm => ?_
  rw [Act.isCut]
  cases hs : m.settled? with
  | none => rfl
  | some i =>
      rw [Option.any_some, (run.deed hm).isOver_eq (hprompt m hm) hs]
      rfl

/-! ## A whole run -/

/-- What an attempt comes to where it begins. -/
inductive Act.Opening (m : Act ρ) (limit : Duration) : Prop where
  /-- It finds the controller off, and leaves it as it is. -/
  | disabled (hoff : m.found.controller.switch.enabled = false)
      (hevents : m.outcome.events = [.answered m.found.nextAttempt (.error .disabled)])
      (hsame : m.outcome.calls.controller = m.found.controller)
  /-- It is refused by the cap, and counted so. -/
  | refused (wait : Int) (hon : m.found.controller.switch.enabled = true)
      (hevents : m.outcome.events = [.answered m.found.nextAttempt
        (.error (.rateExceeded m.found.controller.settings.callsPerSecond wait))])
      (hstats : m.outcome.calls.controller.stats = { m.found.controller.stats with
        rejected := m.found.controller.stats.rejected + 1 })
  /-- It makes its call, and is counted so. -/
  | admitted (hon : m.found.controller.switch.enabled = true)
      (hevents : m.outcome.events = [.invoked m.found.nextAttempt limit])
      (hstats : m.outcome.calls.controller.stats = { m.found.controller.stats with
        admitted := m.found.controller.stats.admitted + 1 })

/-- An attempt opens with a call or with a refusal, and the window tells which. -/
theorem Deed.opening {limit : Duration} {plan : CallPlan ρ}
    (hd : Deed t c (.attempt limit plan) o) :
    (⟨t, .attempt limit plan, c, o⟩ : Act ρ).Opening limit := by
  cases hd with
  | disabled limit plan hoff => exact .disabled hoff rfl rfl
  | refused limit plan wait log hon hcap hlog => exact .refused wait hon rfl rfl
  | admitted limit plan counter hon hroom => exact .admitted hon rfl rfl

/-- Whatever begins no attempt makes no call and admits nothing. -/
theorem Deed.still {m : Act ρ} (hd : Deed m.now m.found m.action m.outcome)
    (hm : m.begun? = none) :
    invoked m.outcome.events = [] ∧
      m.outcome.calls.controller.admissions = m.found.controller.admissions ∧
      m.outcome.calls.controller.counter = m.found.controller.counter := by
  obtain ⟨now, action, found, outcome⟩ := m
  dsimp only at hd ⊢
  cases hd with
  | disabled | refused | admitted => cases hm
  | ended | cancelled | enable | disable => exact ⟨rfl, rfl, rfl⟩

/-- An attempt that waits can end as soon as its call is over or its deadline is there. -/
theorem Ledger.resume_eq (hl : Ledger h c) (hi : i ∈ c.running) (clock : WallClock)
    (now : Instant) :
    (c.step clock now (.resume i.attempt)).map (·.events) =
      if i.isOver now then some [.answered i.attempt i.result]
      else if i.deadline ≤ now then some [.answered i.attempt (.error (.cancelled i.limit))]
      else none := by
  have hfind : c.running.find? (·.attempt == i.attempt) = some i := by
    cases hf : c.running.find? (·.attempt == i.attempt) with
    | none => exact absurd (List.find?_eq_none.mp hf i hi) (by simp)
    | some j =>
        obtain ⟨hj, hname⟩ := name_of_find hf
        rw [List.inj_on_of_nodup_map hl.nodup_running hj hi hname]
  simp only [Calls.step, Calls.resume, hfind]
  cases hover : i.isOver now with
  | true => rfl
  | false =>
      by_cases hdue : i.deadline ≤ now
      · simp [hdue, Nat.not_lt.mpr hdue, Controller.overrun]
      · simp [hdue, Nat.lt_of_not_le hdue]

/-- The late calls whose attempts have ended are those that were settled. -/
theorem Ledger.countP_settled (hl : Ledger h c) :
    (settled h).countP (·.isLate) = ((made h).filter fun i =>
      i.isLate && ((answered (seen h)).map (·.1)).contains i.attempt).length := by
  have hnames := (hl.books.map (·.attempt)).nodup_iff.mp hl.nodup_made
  rw [List.map_append, List.nodup_append] at hnames
  obtain ⟨-, -, hapart⟩ := hnames
  have htold := (List.nodup_append.mp hl.nodup_told).2.2
  -- what was settled was answered, since it does not wait
  have hsettled : ∀ i ∈ settled h, ((answered (seen h)).map (·.1)).contains i.attempt = true := by
    intro i hi
    have hlt := hl.made_lt (hl.books.symm.subset (List.mem_append_left _ hi))
    rcases List.mem_append.mp (hl.told.mem_iff.mpr (List.mem_range.mpr hlt)) with hin | hin
    · exact List.contains_iff_mem.mpr hin
    · exact absurd rfl (hapart _ (List.mem_map_of_mem hi) _ hin)
  have hrunning : ∀ i ∈ c.running, ((answered (seen h)).map (·.1)).contains i.attempt = false := by
    intro i hi
    rw [Bool.eq_false_iff]
    intro hin
    exact htold _ (List.contains_iff_mem.mp hin) _ (List.mem_map_of_mem hi) rfl
  rw [← List.countP_eq_length_filter, hl.books.countP_eq, List.countP_append]
  have hnone : c.running.countP (fun i =>
      i.isLate && ((answered (seen h)).map (·.1)).contains i.attempt) = 0 :=
    List.countP_eq_zero.mpr fun i hi => by
      rw [hrunning i hi, Bool.and_false]
      exact Bool.false_ne_true
  rw [hnone, Nat.add_zero]
  exact List.countP_congr fun i hi => by rw [hsettled i hi, Bool.and_true]

/-- What becomes of attempts and their calls, up to a moment. -/
structure Attended (h : List (Act ρ)) (t : Instant) (c : Calls ρ) : Prop where
  /-- An attempt makes its call only if it finds the controller on and the cap not reached. -/
  openings : ∀ m ∈ h, ∀ limit plan, m.action = .attempt limit plan → m.Opening limit
  /-- What is no attempt makes no call, and leaves the log and the window alone. -/
  others : ∀ m ∈ h, m.begun? = none → invoked m.outcome.events = [] ∧
    m.outcome.calls.controller.admissions = m.found.controller.admissions ∧
    m.outcome.calls.controller.counter = m.found.controller.counter
  /-- Every attempt that is admitted makes its call once. -/
  calls : invoked (seen h) = ((made h).map fun i => (i.attempt, i.limit)) ∧
    ((invoked (seen h)).map (·.1)).Nodup ∧
    c.controller.stats.admitted = (invoked (seen h)).length
  /-- An attempt that finds the controller on is admitted or rejected. -/
  opened : (h.filter Act.isOpen).length =
    c.controller.stats.admitted + c.controller.stats.rejected
  /-- Every attempt ends once, or waits for its call. -/
  once : begun h = List.range c.nextAttempt ∧
    ((answered (seen h)).map (·.1) ++ c.running.map (·.attempt)).Perm (List.range c.nextAttempt)
  /-- An attempt whose call was made ends when it looks: with what the call ends with if that is
  over by then, and otherwise at its deadline or later, cancelled, with the time that it gave to
  the call. -/
  ends : ∀ i ∈ made h, ∀ r, (i.attempt, r) ∈ answered (seen h) → ∃ m ∈ h, m.settled? = some i ∧
    ((i.isOver m.now = true ∧ r = i.result) ∨
      (i.isOver m.now = false ∧ i.deadline ≤ m.now ∧ r = .error (.cancelled i.limit)))
  /-- As cancelled are counted the attempts whose call was not over when they looked. -/
  counted : c.controller.stats.cancelled = h.countP Act.isCut
  /-- If no attempt is left waiting beyond its deadline, one whose call is over at its deadline
  ends with what the call ends with, and any other ends cancelled. -/
  fate : (∀ m ∈ h, m.Prompt) → ∀ i ∈ made h, ∀ r, (i.attempt, r) ∈ answered (seen h) →
    r = if i.isOver i.deadline then i.result else .error (.cancelled i.limit)
  /-- The deadline is when the time of the call is used up, if that is a whole millisecond. -/
  deadlines : ∀ m ∈ h, ∀ i, m.made? = some i → (m.now + i.limit) % Duration.perMilli = 0 →
    i.deadline = m.now + i.limit
  /-- If no attempt is left waiting beyond its deadline, as cancelled are counted those that have
  ended and whose call was not over at its deadline. -/
  cancelled : (∀ m ∈ h, m.Prompt) → c.controller.stats.cancelled = ((made h).filter fun i =>
    !i.isOver i.deadline && ((answered (seen h)).map (·.1)).contains i.attempt).length
  /-- Whatever came of its call, an admission is in the log until it is a second old. -/
  places : ∃ old, admissions h = old ++ c.controller.admissions ∧
    ∀ u ∈ old, u + Controller.window ≤ t
  /-- An attempt that waits can end as soon as its call is over or its deadline is there. -/
  waits : ∀ i ∈ c.running, ∀ clock now,
    (c.step clock now (.resume i.attempt)).map (·.events) =
      if i.isOver now then some [.answered i.attempt i.result]
      else if i.deadline ≤ now then some [.answered i.attempt (.error (.cancelled i.limit))]
      else none

/-- A deadline on a whole millisecond is not put off. -/
theorem afterWait_of_whole {now : Instant} {limit : Duration}
    (hwhole : (now + limit) % Duration.perMilli = 0) : now.afterWait limit = now + limit := by
  rw [Instant.afterWait, ← Nat.div_mul_cancel (Nat.dvd_of_mod_eq_zero hwhole)]
  exact Instant.ceilMilli_of_mul _

/-- Along every run, this is what becomes of attempts and their calls. -/
theorem Run.attended (run : Run settings h t c) : Attended h t c where
  openings m hm limit plan ha := by
    obtain ⟨now, action, found, outcome⟩ := m
    dsimp only at ha
    subst ha
    exact (run.deed hm).opening
  others m hm hb := (run.deed hm).still hb
  calls := by
    have hnodup := run.ledger.nodup_made
    have hcalls := run.tally.calls
    refine ⟨hcalls, ?_, ?_⟩
    · rw [hcalls, List.map_map]
      exact hnodup
    · rw [hcalls, List.length_map, run.tally.admitted]
  opened := run.tally.opened
  once := ⟨run.ledger.names, run.ledger.told⟩
  ends i hi r hr := by
    obtain ⟨m, hm, hs, rfl⟩ := run.looks.ends i hi r hr
    refine ⟨m, hm, hs, ?_⟩
    rw [Invocation.outcome]
    cases hover : i.isOver m.now with
    | true => exact .inl ⟨rfl, rfl⟩
    | false => exact .inr ⟨rfl, ((run.deed hm).due_of_settled hs).2 hover, rfl⟩
  counted := run.looks.counted
  fate hprompt i hi r hr := by
    obtain ⟨m, hm, hs, rfl⟩ := run.looks.ends i hi r hr
    rw [Invocation.outcome, (run.deed hm).isOver_eq (hprompt m hm) hs]
  deadlines m hm i hi hwhole := by
    unfold Act.made? at hi
    split at hi
    · split at hi
      · cases hi
        exact afterWait_of_whole hwhole
      · cases hi
    all_goals cases hi
  cancelled hprompt := by
    rw [run.looks.counted, countP_isCut run hprompt]
    exact run.ledger.countP_settled
  places := run.log.pruned
  waits i hi clock now := run.ledger.resume_eq hi clock now

/-- With a cap of two, three attempts at one moment and one more while the controller is off.
One call is over just at its deadline, the other never ends. -/
def overlapping : List (Instant × Action Unit) :=
  [(0, .attempt 1000000 { lasts := some 1000000, result := .ok () }),
    (0, .attempt 1000000 { lasts := none, result := .ok () }),
    (0, .attempt 1000000 { result := .ok () }), (5, .disable),
    (5, .attempt 1000000 { result := .ok () }), (1000000, .resume 0), (1000000, .resume 1)]

theorem attended_of_overlapping : ∃ h t c,
    enact (note ⟨0⟩) 0 (ofSettings (.ofCalls 2)) overlapping = some (h, t, c) ∧
      (∀ m ∈ h, m.Prompt) ∧ Attended h t c ∧
      c.controller.stats = { admitted := 2, rejected := 1, cancelled := 1 } ∧
      (answered (seen h)).map (fun w => (w.1, w.2.isOk)) =
        [(2, false), (3, false), (0, true), (1, false)] := by
  have hplay : (enact (note ⟨0⟩) 0 (ofSettings (.ofCalls 2)) overlapping).map (fun w =>
      (decide (∀ m ∈ w.1, m.Prompt), w.2.2.controller.stats,
        (answered (seen w.1)).map (fun w => (w.1, w.2.isOk)))) =
      some (true, { admitted := 2, rejected := 1, cancelled := 1 },
        [(2, false), (3, false), (0, true), (1, false)]) := by
    decide +kernel
  obtain ⟨⟨h, t, c⟩, hp, hread⟩ := Option.map_eq_some_iff.mp hplay
  simp only [Prod.mk.injEq, decide_eq_true_eq] at hread
  have run : Run (.ofCalls 2) ([] ++ h) t c := (Run.here 0).enact hp
  exact ⟨h, t, c, hp, hread.1, run.attended, hread.2⟩

/-- A call that is over after its deadline, at which nobody looked: it is passed on. -/
example : (enact (note ⟨0⟩) 0 (ofSettings (.ofCalls 1))
      [(0, .attempt 1000000 { lasts := some 1500000, result := .ok () }), (2000000, .resume 0)]).map
    (fun w => ((answered (seen w.1)).map (fun w => (w.1, w.2.isOk)), w.2.2.controller.stats)) =
    some ([(0, true)], { admitted := 1, rejected := 0, cancelled := 0 }) := by
  decide +kernel

/-- Whether an answer is that the time of a call was used up. -/
def saysCancelled : Except CallError ρ → Bool
  | .error (.cancelled _) => true
  | _ => false

/-- The attempts that made their call and were told that its time was used up. -/
def toldCancelled (h : List (Act ρ)) : List (Invocation ρ) :=
  (made h).filter fun i => (answered (seen h)).any fun w => w.1 == i.attempt && saysCancelled w.2

/-- A call that ends at once, with an error that says it was cancelled. -/
def ownCancellation : List (Instant × Action Unit) :=
  [(0, .attempt 1000000000 { result := .error (.cancelled 1500) }), (0, .resume 0)]

theorem uncounted_of_ownCancellation : ∃ h t c,
    enact (note ⟨0⟩) 0 (ofSettings (.ofCalls 2)) ownCancellation = some (h, t, c) ∧
      Run (.ofCalls 2) h t c ∧ (∀ m ∈ h, m.Prompt) ∧
      (∀ m ∈ h, ∀ i, m.made? = some i → (m.now + i.limit) % Duration.perMilli = 0) ∧
      (toldCancelled h).length = 1 ∧ c.controller.stats.cancelled = 0 := by
  have hplay : (enact (note ⟨0⟩) 0 (ofSettings (.ofCalls 2)) ownCancellation).map
      (fun (w : List (Act Unit) × Instant × Calls Unit) =>
        (decide (∀ m ∈ w.1, m.Prompt),
          decide (∀ m ∈ w.1, ∀ i ∈ m.made?, (m.now + i.limit) % Duration.perMilli = 0),
          (toldCancelled w.1).length, w.2.2.controller.stats.cancelled)) =
      some (true, true, 1, 0) := by
    decide +kernel
  obtain ⟨⟨h, t, c⟩, hp, hread⟩ := Option.map_eq_some_iff.mp hplay
  simp only [Prod.mk.injEq, decide_eq_true_eq] at hread
  have run : Run (.ofCalls 2) ([] ++ h) t c := (Run.here 0).enact hp
  exact ⟨h, t, c, hp, run, hread⟩

end Calls

end Backpressure.Rate
