import Backpressure.Proofs.Queue.Deeds
import Mathlib.Data.List.Nodup

/-!
# Runs of a queue

A run is a sequence of actions at one queue, empty at first, at moments that never go
back.  Who acts next and how much time passes are left open, so a statement about runs
is one about every order of steps.

*Moments.*  A run leaves a list of moments: the state in which an action found the
queue, the action, and what the caller was told.  What was accepted, handed back and
removed is read off this list, never off the queue itself.

*Tickets.*  No two visitors have the same ticket, so a visitor that leaves takes
nobody along.
-/

namespace Backpressure

variable {α : Type}

/-- The item that a visitor offers, if any. -/
def Errand.goods : Errand α → List α
  | .offer a => [a]
  | .poll => []

/-- Whether a visitor offers an item. -/
def Errand.isOffer : Errand α → Bool
  | .offer _ => true
  | .poll => false

namespace Traffic

/-- One step of a run. -/
structure Moment (α : Type) where
  /-- The state before it. -/
  found : Traffic α
  /-- What was done. -/
  action : Action α
  /-- What the caller was told. -/
  outcome : Outcome α

/-- What leaves a queue at once. -/
inductive Removal (α : Type) where
  /-- Items that a caller gets to see. -/
  | items (taken : List α)
  /-- Items of which only the number is told. -/
  | block (size : Nat)

/-- Whether a removal can be the removal of these items. -/
def Removal.Fits : Removal α → List α → Prop
  | .items taken, gone => gone = taken
  | .block size, gone => gone.length = size

namespace Moment

variable (m : Moment α)

/-- The items that callers begin to offer. -/
def offered : List α :=
  match m.action with
  | .offer a _ => [a]
  | _ => []

/-- The item of the offer that acts, if any. -/
def goods : List α :=
  match m.action with
  | .offer a _ => [a]
  | .resume t | .drop t => (m.found.visitor? t).toList.flatMap (·.errand.goods)
  | _ => []

/-- The items that are accepted. -/
def accepted : List α :=
  match m.outcome with
  | .replied .accepted => m.goods
  | _ => []

/-- The items that are handed back. -/
def returned : List α :=
  match m.outcome with
  | .replied (.returned a) => [a]
  | _ => []

/-- The items of offers that are dropped. -/
def abandoned : List α :=
  match m.action with
  | .drop _ => m.goods
  | _ => []

/-- What leaves the queue, in order. -/
def removals : List (Removal α) :=
  match m.outcome with
  | .replied (.item a) => [.items [a]]
  | .drained taken => [.items taken]
  | .cleared n => [.block n]
  | _ => []

end Moment

/-- A run of a queue of a capacity, from a moment to a moment, with what happened. -/
inductive Run (capacity : Nat) (t₀ : Instant) : List (Moment α) → Instant → Traffic α → Prop where
  /-- Nothing has happened. -/
  | here : Run capacity t₀ [] t₀ { queue := .ofCapacity capacity }
  /-- An action happens. -/
  | act {h : List (Moment α)} {t : Instant} {s s' : Traffic α} {a : Action α} {o : Outcome α} :
      Run capacity t₀ h t s → s.step t a = some (o, s') →
      Run capacity t₀ (h ++ [⟨s, a, o⟩]) t s'
  /-- Time passes. -/
  | pass {h : List (Moment α)} {t t' : Instant} {s : Traffic α} :
      Run capacity t₀ h t s → t ≤ t' → Run capacity t₀ h t' s

variable {capacity : Nat} {t₀ t now : Instant} {h : List (Moment α)} {s s' : Traffic α}
  {a : Action α} {o : Outcome α}

/-- Nothing can run before time advances. -/
def IsSettled (now : Instant) (s : Traffic α) : Prop := ∀ t, s.resume now t = none

/-- What holds at first and is kept by every deed holds along a run. -/
theorem Run.invariant {I : List (Moment α) → Traffic α → Prop} (run : Run capacity t₀ h t s)
    (first : I [] { queue := .ofCapacity capacity })
    (keep : ∀ {h now s a o s'}, I h s → Deed now s a o s' → I (h ++ [⟨s, a, o⟩]) s') : I h s := by
  induction run with
  | here => exact first
  | act _ hs ih => exact keep ih (step_deed hs)
  | pass _ _ ih => exact ih

/-! ## Plays -/

/-- Lets actions happen one after the other, each at its moment. -/
def play : Instant → Traffic α → List (Instant × Action α) →
    Option (List (Moment α) × Instant × Traffic α)
  | t, s, [] => some ([], t, s)
  | t, s, (t', a) :: rest =>
    if t' < t then none
    else
      match s.step t' a with
      | none => none
      | some (o, s') => (play t' s' rest).map fun (h, u, r) => (⟨s, a, o⟩ :: h, u, r)

/-- A play goes on with a run. -/
theorem Run.play : ∀ {script : List (Instant × Action α)} {h k : List (Moment α)}
    {t u : Instant} {s r : Traffic α}, Run capacity t₀ h t s →
    Traffic.play t s script = some (k, u, r) → Run capacity t₀ (h ++ k) u r
  | [], h, k, t, u, s, r, run, hp => by
      cases hp
      rwa [List.append_nil]
  | (t', a) :: rest, h, k, t, u, s, r, run, hp => by
      simp only [Traffic.play] at hp
      split at hp
      · cases hp
      · next hle =>
          split at hp
          · cases hp
          · next o s' hs =>
              obtain ⟨⟨k', u', r'⟩, hk, he⟩ := Option.map_eq_some_iff.mp hp
              cases he
              have next := ((run.pass (Nat.le_of_not_lt hle)).act hs).play hk
              rwa [List.append_assoc] at next

/-! ## Tickets -/

/-- Each visitor has a ticket of its own. -/
structure Ticketed (s : Traffic α) : Prop where
  /-- No ticket is given out twice. -/
  distinct : (s.visitors.map (·.ticket)).Nodup
  /-- The next ticket is new. -/
  fresh : ∀ v ∈ s.visitors, v.ticket < s.nextTicket

/-- A visitor that leaves is the only one that does. -/
theorem Ticketed.perm_remove {ticket : Ticket} {v : Visitor α} (ht : Ticketed s)
    (hv : s.visitor? ticket = some v) : s.visitors.Perm (v :: (s.remove ticket).visitors) := by
  obtain ⟨hp, front, back, hsplit, hfront⟩ := List.find?_eq_some_iff_append.mp hv
  have hticket : v.ticket = ticket := by simpa using hp
  have hkeep : ∀ l : List (Visitor α), (∀ w ∈ l, w.ticket ≠ ticket) →
      l.filter (·.ticket != ticket) = l := by
    intro l hl
    rw [List.filter_eq_self]
    intro w hw
    simpa using hl w hw
  -- the visitor that is found is the first with its ticket, and there is no second
  have hback : ∀ w ∈ back, w.ticket ≠ ticket := by
    intro w hw he
    have hnodup := ht.distinct
    rw [hsplit, List.map_append, List.map_cons] at hnodup
    have htail := (List.nodup_append.mp hnodup).2.1
    exact (List.nodup_cons.mp htail).1 (List.mem_map.mpr ⟨w, hw, he.trans hticket.symm⟩)
  have hrest : (s.remove ticket).visitors = front ++ back := by
    simp only [remove, hsplit, List.filter_append, List.filter_cons, hticket]
    rw [hkeep front (by simpa using hfront), hkeep back hback]
    simp
  rw [hrest, hsplit]
  exact List.perm_middle

theorem Ticketed.remove (ht : Ticketed s) (ticket : Ticket) : Ticketed (s.remove ticket) where
  distinct := ht.distinct.sublist (List.filter_sublist.map _)
  fresh v hv := ht.fresh v (List.mem_of_mem_filter hv)

theorem Ticketed.joined (ht : Ticketed s) (e : Errand α) (deadline : Instant) :
    Ticketed (s.admitVisitor e deadline) where
  distinct := by
    simp only [admitVisitor, List.map_append, List.map_cons, List.map_nil]
    refine List.nodup_append.mpr ⟨ht.distinct, List.nodup_singleton _, ?_⟩
    intro u hu w hw he
    obtain ⟨v, hv, rfl⟩ := List.mem_map.mp hu
    cases List.mem_singleton.mp hw
    exact Nat.lt_irrefl _ (he ▸ ht.fresh v hv)
  fresh v hv := by
    rcases List.mem_append.mp hv with hold | hnew
    · exact Nat.lt_succ_of_lt (ht.fresh v hold)
    · cases List.mem_singleton.mp hnew
      exact Nat.lt_succ_self _

theorem Ticketed.queue (ht : Ticketed s) (q : Queue α) : Ticketed { s with queue := q } :=
  ⟨ht.distinct, ht.fresh⟩

theorem Ticketed.keep (ht : Ticketed s) (hd : Deed now s a o s') : Ticketed s' := by
  cases hd with
  | refuse => exact ht
  | accept | take | miss | drain | sealUp | close | clear => exact ht.queue _
  | lineUp | linger => exact (ht.queue _).joined _ _
  | enter | turnBack | receive | findNone | giveUp | dropOffer | dropPoll =>
      exact (ht.queue _).remove _

theorem Run.ticketed (run : Run capacity t₀ h t s) : Ticketed s := by
  refine run.invariant (I := fun _ s => Ticketed s) ⟨.nil, ?_⟩ fun ht hd => ht.keep hd
  intro v hv
  cases hv

end Traffic

end Backpressure
