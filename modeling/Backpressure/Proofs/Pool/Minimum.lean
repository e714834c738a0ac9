import Backpressure.Proofs.Pool.Bounds
import Backpressure.Proofs.Pool.Manned
import Backpressure.Proofs.Pool.Finality

/-!
# When members are missing

A pool that runs is meant to have its fewest members at all times.  There are two ways in
which it has not.

* Those whom the factory rejects leave at once, and nobody takes their place before all of
  them have been waited for.
* The factory lets go of members and then refuses to make one.  The evaluation ends, and the
  pool stays as it is until the factory makes the members that are missing.

`Spell` reads off the events how things stand with the second.  While the scaler replaces
nobody, somebody is missing just when the factory has denied somebody (`Upheld.settled`).
While it does, no more are missing than were rejected (`Upheld.replacing`).
-/

namespace Backpressure

variable {α : Type}

/-- Whether an event tells nothing of the policy, of members let go of, and of refusals. -/
def PoolEvent.Quiet : PoolEvent α → Prop
  | .observed _ | .destroyed _ | .refused _ => False
  | .poller _ _ | .created _ | .turnedAway | .discarded _ | .answered _ _ => True

/-- What happened since the policy was last asked. -/
structure Spell where
  /-- How many members the factory has let go of. -/
  letGo : Nat := 0
  /-- Whether it has refused to make one after that. -/
  denied : Bool := false

namespace Spell

/-- Takes note of one event. -/
def see (s : Spell) : PoolEvent α → Spell
  | .observed _ => {}
  | .destroyed _ => { s with letGo := s.letGo + 1 }
  | .refused _ => { s with denied := decide (0 < s.letGo) }
  | .poller _ _ | .created _ | .turnedAway | .discarded _ | .answered _ _ => s

/-- Takes note of events, one after the other. -/
def after (s : Spell) (es : List (PoolEvent α)) : Spell := es.foldl see s

variable {s : Spell} {es fs : List (PoolEvent α)}

@[simp] theorem after_append : s.after (es ++ fs) = (s.after es).after fs := List.foldl_append

theorem after_quiet (hq : ∀ e ∈ es, e.Quiet) : s.after es = s := by
  induction es with
  | nil => rfl
  | cons e es ih =>
      have hfirst : s.see e = s := by
        have he := hq e List.mem_cons_self
        cases e with
        | observed | destroyed | refused => exact he.elim
        | poller | created | turnedAway | discarded | answered => rfl
      rw [after, List.foldl_cons, hfirst]
      exact ih fun e he => hq e (List.mem_cons_of_mem _ he)

theorem after_destroyed (hd : ∀ e ∈ es, ∃ name, e = .destroyed name) :
    s.after es = { s with letGo := s.letGo + es.length } := by
  induction es generalizing s with
  | nil => rfl
  | cons e es ih =>
      obtain ⟨name, rfl⟩ := hd _ List.mem_cons_self
      have hrest := @ih (s.see (.destroyed name : PoolEvent α)) fun e he =>
        hd e (List.mem_cons_of_mem _ he)
      rw [after, List.foldl_cons]
      refine hrest.trans ?_
      simp only [see, List.length_cons, Spell.mk.injEq, and_true]
      omega

/-- Nobody is denied before somebody was let go of. -/
theorem letGo_pos (hs : s.denied = true → 0 < s.letGo) :
    (s.after es).denied = true → 0 < (s.after es).letGo := by
  induction es generalizing s with
  | nil => exact hs
  | cons e es ih =>
      refine ih ?_
      cases e with
      | observed => exact fun hd => absurd hd Bool.false_ne_true
      | destroyed => exact fun _ => Nat.succ_pos _
      | refused => exact fun hd => of_decide_eq_true hd
      | poller | created | turnedAway | discarded | answered => exact hs

theorem denied_of_willing (hs : s.denied = false) (hw : ∀ name, .refused name ∉ es) :
    (s.after es).denied = false := by
  induction es generalizing s with
  | nil => exact hs
  | cons e es ih =>
      refine ih ?_ fun name hmem => hw name (List.mem_cons_of_mem _ hmem)
      cases e with
      | refused name => exact absurd List.mem_cons_self (hw name)
      | observed => rfl
      | destroyed | poller | created | turnedAway | discarded | answered => exact hs

end Spell

namespace Pool

open Duration (ofMillis)

variable {env : Surroundings α} {now : Instant} {p q : Pool α} {a : Action α}
  {o : PoolOutcome α} {c : CallId} {graceful : Bool} {afterStart : Option PoolError}
  {es fs : List (PoolEvent α)} {h : History α} {least k : Nat} {s : Spell}

/-- What happened in a run since the policy was last asked. -/
def History.spell (h : History α) : Spell := ({} : Spell).after h.events

/-- The fewest members are there, or it can be told why not. -/
structure Upheld (least : Nat) (s : Spell) (p : Pool α) : Prop where
  /-- While nobody is replaced, members are missing just when the factory has denied one. -/
  settled : p.Settled → (p.active.length < least ↔ s.denied = true)
  /-- While members are replaced, no more are missing than those. -/
  replacing : ∀ r, p.scaler.place = .inside (.replacing r) → s.denied = false →
    least ≤ p.active.length + r.members.length + s.letGo

/-! ## The scaler -/

theorem Adds.after_eq (ha : Adds k p es q) : s.after es = s := by
  obtain ⟨names, -, rfl⟩ := ha.created
  refine Spell.after_quiet fun e he => ?_
  obtain ⟨name, -, rfl⟩ := List.mem_map.mp he
  exact trivial

/-- Asking the policy takes nobody away that is needed, and the spell is over. -/
theorem Follows.upheld (hl : p.settings.minWorkers ≤ p.active.length)
    (hf : Follows env now p es q) :
    p.settings.minWorkers ≤ q.active.length ∧ (s.after es).denied = false := by
  cases hf with
  | held hd ha hc => exact ⟨ha ▸ hl, rfl⟩
  | @grown _ fs _ hd ha =>
      refine ⟨ha.length_active ▸ Nat.le_add_right_of_le hl, ?_⟩
      show (Spell.after {} fs).denied = false
      rw [ha.after_eq]
  | @stinted _ _ fs _ name hd hk ha =>
      refine ⟨ha.length_active ▸ Nat.le_add_right_of_le hl, ?_⟩
      show (Spell.after {} (fs ++ [.refused name])).denied = false
      rw [Spell.after_append, ha.after_eq]
      rfl
  | shrunk hd hs he =>
      have hleast := hs.least
      refine ⟨by omega, ?_⟩
      rw [Spell.after, List.foldl_cons]
      exact congrArg Spell.denied (Spell.after_destroyed (s := {}) he)

/-- When the pool was filled up, members are missing just when one was denied. -/
theorem Fills.upheld (hgone : p.active.length < p.settings.minWorkers → 0 < s.letGo)
    (hf : Fills env now p es q) :
    q.active.length < p.settings.minWorkers ↔ (s.after es).denied = true := by
  cases hf with
  | short hk ha =>
      have hshort : p.active.length < p.settings.minWorkers := by omega
      have hlength := ha.length_active
      rw [Spell.after_append, ha.after_eq]
      exact iff_of_true (by omega) (decide_eq_true (hgone hshort))
  | full ha hl hs hfollows =>
      obtain ⟨hleast, hdenied⟩ := hfollows.upheld (s := s) (hs ▸ hl)
      rw [hs] at hleast
      rw [Spell.after_append, ha.after_eq, hdenied]
      exact iff_of_false (Nat.not_lt.mpr hleast) Bool.false_ne_true

/-- No more are missing, or about to be, than those who were let go of or leave. -/
theorem Upheld.looks {stay leave : List MemberId} (hu : Upheld least s p)
    (hl : Looks env p stay leave) (hd : s.denied = false) :
    least ≤ stay.length + leave.length + s.letGo := by
  cases hl with
  | now hp hr =>
      have hsettled : p.Settled := fun r => by simp [hp]
      have hfull : ¬p.active.length < least := (hu.settled hsettled).not.mpr (by simp [hd])
      have hsplit := List.length_eq_length_filter_add (l := p.active) (p.fits env)
      omega
  | before hp =>
      have hleast := hu.replacing _ hp hd
      omega

/-- What the scaler does upholds the fewest members, or tells why not. -/
theorem Scales.upheld (hu : Upheld p.settings.minWorkers s p)
    (hgone : s.denied = true → 0 < s.letGo) (h : Scales env now p o) :
    Upheld p.settings.minWorkers (s.after o.events) o.pool := by
  cases h with
  | rests hp hq ha hc he =>
      rw [Spell.after_destroyed he]
      refine ⟨fun _ => ha ▸ hu.settled hp, fun r hr => absurd hr (hq r)⟩
  | waits hl ha hc hq he hn =>
      rw [Spell.after_destroyed he]
      refine ⟨fun hsettled => absurd hq (hsettled _), fun r hr hdenied => ?_⟩
      rw [hq] at hr
      cases hr
      have hleast := hu.looks hl hdenied
      rw [ha]
      dsimp only
      omega
  | goesOn hl ha hc hs he hn hf hr =>
      refine ⟨fun _ => ?_, fun r hplace => absurd hplace (hr r)⟩
      rw [Spell.after_append, ← hs]
      refine hf.upheld fun hshort => ?_
      -- Whoever is missing was let go of: now, or before somebody was denied.
      rw [hs, ha] at hshort
      rw [Spell.after_destroyed he]
      dsimp only
      cases hdenied : s.denied with
      | true => exact Nat.add_pos_left (hgone hdenied) _
      | false =>
          have hleast := hu.looks hl hdenied
          omega

/-! ## The pool -/

/-- An action that neither the policy nor the number of members has to do with. -/
structure Unnoticed (p : Pool α) (o : PoolOutcome α) : Prop where
  phase : o.pool.phase = p.phase
  active : o.pool.active = p.active
  scaler : o.pool.scaler = p.scaler
  quiet : ∀ e ∈ o.events, e.Quiet

/-- How the fewest members fare before the start and while the pool runs. -/
structure Upkeep (least : Nat) (h : History α) (p : Pool α) : Prop where
  created : p.phase = .created → h.spell = {}
  running : p.phase = .running → Upheld least h.spell p

theorem spell_ofStep : (h ++ .ofStep p a o).spell = h.spell.after o.events := Spell.after_append

theorem History.letGo_pos (h : History α) : h.spell.denied = true → 0 < h.spell.letGo :=
  Spell.letGo_pos fun hd => absurd hd Bool.false_ne_true

theorem Upheld.of_eq (hu : Upheld least s p) (ha : q.active = p.active)
    (hs : q.scaler = p.scaler) : Upheld least s q where
  settled hq := by
    rw [ha]
    exact hu.settled fun r => hs ▸ hq r
  replacing r hr := by
    rw [ha]
    exact hu.replacing r (hs ▸ hr)

namespace Upkeep

theorem unnoticed (hu : Upkeep least h p) (hn : Unnoticed p o) :
    Upkeep least (h ++ .ofStep p a o) o.pool := by
  have hspell : (h ++ .ofStep p a o).spell = h.spell := by
    rw [spell_ofStep, Spell.after_quiet hn.quiet]
  constructor
  · intro hp
    rw [hspell]
    exact hu.created (hn.phase ▸ hp)
  · intro hp
    rw [hspell]
    exact (hu.running (hn.phase ▸ hp)).of_eq hn.active hn.scaler

/-- A pool that is shut down need not have members. -/
theorem ended (hq : q.phase = .stopped ∨ q.phase = .draining) : Upkeep least h q := by
  constructor
  · intro hp
    rcases hq with hq | hq <;> cases hq.symm.trans hp
  · intro hp
    rcases hq with hq | hq <;> cases hq.symm.trans hp

/-- The start makes the fewest members, and its scaler has nobody to replace. -/
theorem started {scaler : Worker ScalerPoint Unit} (hu : Upkeep p.settings.minWorkers h p)
    (hp : p.phase = .created) (hnew : p.IsNew)
    (hs : spawnMany env now p.settings.minWorkers { p.named with phase := .running } = (none, o))
    (hw : o.pool.scaler.start = some scaler) :
    Upkeep p.settings.minWorkers
      (h ++ .ofStep p .start
        (answer { o with pool.scaler := scaler } p.nextCall (.ended (.ok ()))))
      (answer { o with pool.scaler := scaler } p.nextCall (.ended (.ok ()))).pool := by
  have hmade := spawnMany_adds hs
  have hlength : o.pool.active.length = p.settings.minWorkers := by
    refine hmade.length_active.trans ?_
    show p.active.length + _ = _
    rw [hnew.active_eq, List.length_nil, Nat.zero_add]
  have hspell : ({} : Spell).after (o.events ++ [.answered p.nextCall (.ended (.ok ()))]) = {} := by
    rw [Spell.after_append, hmade.after_eq]
    rfl
  have hphase := congrArg Pool.phase (spawnMany_chain hs).eq_staff
  rw [hnew.scaler_eq hs] at hw
  cases hw
  constructor
  · intro hcreated
    cases hphase.symm.trans hcreated
  · intro _
    rw [spell_ofStep, hu.created hp]
    refine ⟨fun _ => ?_, nofun⟩
    show o.pool.active.length < _ ↔ (Spell.after {} (o.events ++ [_])).denied = true
    rw [hspell, hlength]
    exact iff_of_false (Nat.lt_irrefl _) Bool.false_ne_true

theorem scaler {b : ScalerAction} (hu : Upkeep p.settings.minWorkers h p) (he : Ends p)
    (hsized : Sized p.settings.maxWorkers p) (hs : p.scalerStep env now b = some o) :
    Upkeep p.settings.minWorkers (h ++ .ofStep p (.scaler b) o) o.pool := by
  have hphase := congrArg Pool.phase (scalerStep_chain hs).eq_staff
  have hscales := (scalerStep_deed hs).scales hsized.sorted hsized.known
  constructor
  · intro hp
    obtain ⟨s, n, rejected, rfl⟩ := he.created (hphase ▸ hp)
    rw [scalerStep_of_unstarted rfl] at hs
    cases hs
  · intro hp
    rw [spell_ofStep]
    exact hscales.upheld (hu.running (hphase ▸ hp)) h.letGo_pos

/-- Every step keeps track of the fewest members. -/
theorem keep (hu : Upkeep p.settings.minWorkers h p) (hl : Led p) (he : Ends p)
    (hsized : Sized p.settings.maxWorkers p) (hd : Deed env now p a o) :
    Upkeep p.settings.minWorkers (h ++ .ofStep p a o) o.pool := by
  cases hd with
  | spurned | restarted =>
      exact hu.unnoticed ⟨rfl, rfl, rfl, by simp [answer, PoolEvent.Quiet]⟩
  | accepted ho | returned ho =>
      cases ho <;>
        exact hu.unnoticed ⟨rfl, rfl, rfl, by simp [endOffer, answer, PoolEvent.Quiet]⟩
  | queued | follows | flushed => exact hu.unnoticed ⟨rfl, rfl, rfl, by intro e he; cases he⟩
  | followed hf =>
      cases hf <;>
        exact hu.unnoticed ⟨rfl, rfl, rfl, by simp [endShutdown, answer, PoolEvent.Quiet]⟩
  | member => exact hu.unnoticed ⟨rfl, rfl, rfl, by simp [PoolEvent.Quiet]⟩
  | abandoned => exact ended (.inl rfl)
  | opens => exact ended (.inr rfl)
  | rushes => exact ended retireCrew_phase
  | gathers hc =>
      have hp := hl.phase_eq (mem_of_lookup hc) rfl
      exact ended (hp ▸ retireCrew_phase)
  | sweeps hc =>
      have hp := hl.phase_eq (mem_of_lookup hc) rfl
      exact ended (hp ▸ retireAll_phase _ _ _)
  | started hp hs hw => exact hu.started hp (he.created hp) hs hw
  | stuck hp hs hw =>
      rw [(he.created hp).scaler_eq hs] at hw
      cases hw
  | scaler hs => exact hu.scaler he hsized hs

end Upkeep

theorem Run.upkeep {R : Regime α} {t₀ t : Instant} {s : PoolSettings}
    (hm : s.minWorkers ≤ s.maxWorkers) (run : Run R t₀ (ofSettings s) h t p) :
    Upkeep s.minWorkers h p := by
  induction run with
  | here =>
      refine ⟨fun _ => rfl, fun hp => ?_⟩
      cases hp
  | pass run _ ih => exact ih
  | @act h t p env a o run _ hs ih =>
      have hsettings : p.settings = s := run.settings_eq
      have hsized := run.sized hm
      rw [← hsettings] at ih hsized ⊢
      exact ih.keep run.led run.ends hsized (step_deed hs)

/-! ## Up to a shutdown -/

/-- A running pool runs on, unless somebody shuts it down. -/
theorem Deed.runs_on (hl : Led p) (hp : p.phase = .running) (hd : Deed env now p a o) :
    o.pool.phase = .running ∨ ∃ g, a = .shutdown g := by
  cases hd with
  | spurned | queued | restarted | flushed | member => exact .inl hp
  | accepted ho | returned ho => cases ho <;> exact .inl hp
  | followed hf => cases hf <;> exact .inl hp
  | follows hp' | abandoned hp' | started hp' | stuck hp' => cases hp'.symm.trans hp
  | opens ho | rushes ho =>
      cases ho with
      | asked => exact .inr ⟨_, rfl⟩
      | failed hp' => cases hp'.symm.trans hp
  | gathers hc | sweeps hc => cases (hl.phase_eq (mem_of_lookup hc) rfl).symm.trans hp
  | scaler hs =>
      have hphase := congrArg Pool.phase (scalerStep_chain hs).eq_staff
      exact .inl (hphase.trans hp)

/-- A pool that was started runs, as long as nobody shuts it down. -/
theorem Run.running {R : Regime α} {t₀ t : Instant} {s : PoolSettings} {r : Request α}
    (run : Run R t₀ (ofSettings s) h t p) (started : h.Started r)
    (still : ∀ r' ∈ h.requests, ∀ g, r'.asked ≠ .shutdown g) : p.phase = .running := by
  induction run with
  | here => cases started.1
  | pass run _ ih => exact ih started still
  | act run _ hs ih =>
      rcases run.docket.started_step hs started with hold | ⟨-, -, hnew⟩
      · have hp := ih hold fun r' hr' => still r' (List.mem_append_left _ hr')
        rcases (step_deed hs).runs_on run.led hp with hq | ⟨g, rfl⟩
        · exact hq
        · exact absurd rfl (still _ (List.mem_append_right _ (List.mem_singleton_self _)) g)
      · exact hnew

/-- Once started and until it is shut down, a pool has its fewest members, but for those whose
leaving is waited for and those whom the factory has denied it. -/
theorem Run.staffed {R : Regime α} {t₀ t : Instant} {s : PoolSettings} {p₀ : Pool α}
    {r : Request α} (made : make s = .ok p₀) (run : Run R t₀ p₀ h t p) (started : h.Started r)
    (still : ∀ r' ∈ h.requests, ∀ g, r'.asked ≠ .shutdown g) :
    p.phase = .running ∧ Upheld s.minWorkers h.spell p ∧
      (p.Settled → (∀ name, .refused name ∉ h.events) → s.minWorkers ≤ p.active.length) := by
  have hm := min_le_max_of_make made
  obtain ⟨rfl, -⟩ := make_eq_ok made
  have hp := run.running started still
  have hupheld := (run.upkeep hm).running hp
  refine ⟨hp, hupheld, fun hsettled hwilling => Nat.le_of_not_lt fun hshort => ?_⟩
  have hdenied := (hupheld.settled hsettled).mp hshort
  rw [History.spell, Spell.denied_of_willing rfl hwilling] at hdenied
  cases hdenied

/-- Of two members, the first is taken out, and the factory refuses to make another. -/
def denial : List (Instant × Action Nat) :=
  [(0, .start), (0, .scaler .turn), (ofMillis 10, .scaler .evaluate),
    (ofMillis 30, .scaler .retired)]

theorem staffed_of_denial : ∃ h t p, make hastyPair = .ok (ofSettings hastyPair : Pool Nat) ∧
    (ofSettings hastyPair).play fickle 0 denial = some (h, t, p) ∧
      h.Started ⟨0, .start, .created⟩ ∧ (∀ r ∈ h.requests, ∀ g, r.asked ≠ .shutdown g) ∧
      p.active = [1] ∧ h.spell = { letGo := 1, denied := true } ∧
      p.phase = .running ∧ Upheld hastyPair.minWorkers h.spell p := by
  have hplay : ((ofSettings hastyPair).play fickle 0 denial).map
      (fun w => (w.1.requests, w.1.answers, w.2.2.active, w.1.spell)) =
      some ([⟨0, .start, .created⟩], [(0, .ended (.ok ()))], [1],
        { letGo := 1, denied := true }) := by
    rfl
  obtain ⟨h, t, p, hp, he⟩ := play_of_map hplay
  simp only [Prod.mk.injEq] at he
  obtain ⟨hrequests, hanswers, hactive, hspell⟩ := he
  have hmade : make hastyPair = .ok (ofSettings hastyPair : Pool Nat) := by rfl
  have hrun : Run .any 0 _ h t p := Run.play (fun _ _ _ => trivial) hp
  have hstarted : h.Started ⟨0, .start, .created⟩ := ⟨by simp [hrequests], rfl, by simp [hanswers]⟩
  have hstill : ∀ r ∈ h.requests, ∀ g, r.asked ≠ .shutdown g := by simp [hrequests]
  obtain ⟨hphase, hupheld, -⟩ := hrun.staffed hmade hstarted hstill
  exact ⟨h, t, p, hmade, hp, hstarted, hstill, hactive, hspell, hphase, hupheld⟩

/-- The only member is rejected while it handles an item. -/
def rejection : List (Instant × Action Nat) :=
  [(0, .start), (0, .offer 1 0), (0, .member 0 (.turn 0)), (0, .scaler .turn),
    (ofMillis 10, .scaler .evaluate)]

/-- While a pool waits for a rejected member that is busy, it can be without any. -/
theorem deserted_of_rejection : ∃ h p,
    make hasty = .ok (ofSettings hasty : Pool Nat) ∧
      Run .any 0 (ofSettings hasty) h (ofMillis 20) p ∧ h.Started ⟨0, .start, .created⟩ ∧
      (∀ r ∈ h.requests, ∀ g, r.asked ≠ .shutdown g) ∧ p.phase = .running ∧ p.inHand = [1] ∧
      (∀ b, p.scalerStep distrustful (ofMillis 20) b = none) ∧
      p.active.length < hasty.minWorkers := by
  have hplay : ((ofSettings hasty).play distrustful 0 rejection).map
      (fun w => (w.1.requests, w.1.answers, w.2.1, w.2.2.phase, w.2.2.inHand, w.2.2.active,
        [.turn, .quit, .evaluate, .retired, .leave].map fun b =>
          (w.2.2.scalerStep distrustful (ofMillis 20) b).isNone)) =
      some ([⟨0, .start, .created⟩, ⟨1, .offer 1 0, .running⟩],
        [(0, .ended (.ok ())), (1, .offered true)], ofMillis 10, .running, [1], [],
        [true, true, true, true, true]) := by
    rfl
  obtain ⟨h, t, p, hp, he⟩ := play_of_map hplay
  simp only [Prod.mk.injEq] at he
  obtain ⟨hrequests, hanswers, rfl, hphase, hhand, hactive, hwaits⟩ := he
  have hrun : Run .any 0 _ h (ofMillis 10) p :=
    Run.play (fun _ _ _ => trivial) hp
  refine ⟨h, p, rfl, hrun.pass (by decide),
    ⟨by simp [hrequests], rfl, by simp [hanswers]⟩, by simp [hrequests], hphase, hhand,
    fun b => ?_, by simp [hactive, hasty]⟩
  simp only [List.map_cons, List.map_nil, List.cons.injEq, Option.isNone_iff_eq_none] at hwaits
  cases b <;> simp [hwaits]

end Pool

end Backpressure
