import Backpressure.Time.Duration

/-!
# Scripts

A script lists actions with their moments.  It can be enacted if the moments never go back
and each action can happen when its turn comes.  What is reached then is reached by any kind
of run that is closed under actions and under the passing of time.
-/

namespace Backpressure

variable {σ α μ : Type} {step : Instant → σ → α → Option (μ × σ)} {script : List (Instant × α)}
  {t u : Instant} {s r : σ} {k : List μ}

/-- Lets actions happen one after the other, each at its moment, and keeps a note of each. -/
def enact (step : Instant → σ → α → Option (μ × σ)) :
    Instant → σ → List (Instant × α) → Option (List μ × Instant × σ)
  | t, s, [] => some ([], t, s)
  | t, s, (t', a) :: rest =>
    if t' < t then none
    else
      match step t' s a with
      | none => none
      | some (m, s) => (enact step t' s rest).map fun (k, u, r) => (m :: k, u, r)

theorem enact_cons {t' : Instant} {a : α} {rest : List (Instant × α)}
    (hp : enact step t s ((t', a) :: rest) = some (k, u, r)) :
    ∃ m s' k', t ≤ t' ∧ step t' s a = some (m, s') ∧ enact step t' s' rest = some (k', u, r) ∧
      k = m :: k' := by
  simp only [enact] at hp
  split at hp
  · cases hp
  · next hle =>
      split at hp
      · cases hp
      · next m s' hs =>
          obtain ⟨⟨k', u', r'⟩, hrest, he⟩ := Option.map_eq_some_iff.mp hp
          cases he
          exact ⟨m, s', k', Nat.le_of_not_lt hle, hs, hrest, rfl⟩

/-- What a script leads to from a point of a run is a point of a run. -/
theorem reach_of_enact {R : List μ → Instant → σ → Prop}
    (hact : ∀ {h t s a m s'}, R h t s → step t s a = some (m, s') → R (h ++ [m]) t s')
    (hpass : ∀ {h t t' s}, R h t s → t ≤ t' → R h t' s) {h : List μ} (hr : R h t s)
    (hp : enact step t s script = some (k, u, r)) : R (h ++ k) u r := by
  induction script generalizing h k t s with
  | nil =>
      cases hp
      rwa [List.append_nil]
  | cons head rest ih =>
      obtain ⟨t', a⟩ := head
      obtain ⟨m, s', k', hle, hs, hrest, rfl⟩ := enact_cons hp
      have hall := ih (hact (hpass hr hle) hs) hrest
      rwa [List.append_assoc] at hall

/-- Each note is one of an action of the script. -/
theorem mem_of_enact (hp : enact step t s script = some (k, u, r)) :
    ∀ m ∈ k, ∃ t s a s', a ∈ script.map (·.2) ∧ step t s a = some (m, s') := by
  induction script generalizing k t s with
  | nil =>
      cases hp
      exact fun m hm => absurd hm List.not_mem_nil
  | cons head rest ih =>
      obtain ⟨t', a⟩ := head
      obtain ⟨m, s', k', hle, hs, hrest, rfl⟩ := enact_cons hp
      intro n hn
      rcases List.mem_cons.mp hn with rfl | hn
      · exact ⟨t', s, a, s', List.mem_cons_self, hs⟩
      · obtain ⟨t₁, s₁, a₁, s₁', ha, hstep⟩ := ih hrest n hn
        exact ⟨t₁, s₁, a₁, s₁', List.mem_cons_of_mem _ ha, hstep⟩

end Backpressure
