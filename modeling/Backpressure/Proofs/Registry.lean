import Backpressure.CallError
import Mathlib.Data.List.Nodup

/-!
# Calls by name

Whoever keeps calls that wait keeps them with their names.  A call that goes on to wait for
something else is struck out and entered again, and one that ends is struck out.
-/

namespace Backpressure

variable {β : Type} {l : List (CallId × β)} {c : CallId} {b b' : β}

theorem map_fst_filter_ne (l : List (CallId × β)) (c : CallId) :
    (l.filter (·.1 != c)).map (·.1) = (l.map (·.1)).filter (· != c) := by
  rw [List.filter_map]
  rfl

theorem mem_of_lookup (h : l.lookup c = some b) : (c, b) ∈ l := by
  obtain ⟨l₁, l₂, rfl, -⟩ := List.lookup_eq_some_iff.mp h
  simp

/-- A name stands for one call. -/
theorem eq_of_lookup (hn : (l.map (·.1)).Nodup) (h : l.lookup c = some b) (hm : (c, b') ∈ l) :
    b' = b :=
  congrArg Prod.snd (List.inj_on_of_nodup_map hn hm (mem_of_lookup h) rfl)

/-- Under a name of its own an entry is found. -/
theorem lookup_of_mem (hn : (l.map (·.1)).Nodup) (hm : (c, b) ∈ l) : l.lookup c = some b := by
  cases hl : l.lookup c with
  | none => simpa using List.lookup_eq_none_iff.mp hl _ hm
  | some b' => rw [eq_of_lookup hn hl hm]

theorem nodup_struck (hn : (l.map (·.1)).Nodup) (c : CallId) :
    ((l.filter (·.1 != c)).map (·.1)).Nodup :=
  map_fst_filter_ne l c ▸ hn.filter _

/-- An entry under a name takes the place of the one before it. -/
theorem nodup_entered (hn : (l.map (·.1)).Nodup) (c : CallId) (b : β) :
    ((l.filter (·.1 != c) ++ [(c, b)]).map (·.1)).Nodup := by
  rw [List.map_append, List.map_singleton]
  refine (nodup_struck hn c).append (List.nodup_singleton c) ?_
  intro x hx hxc
  rw [map_fst_filter_ne, List.mem_filter, List.mem_singleton.mp hxc] at hx
  simp at hx

/-- What has a name of its own can be put in front. -/
theorem perm_cons_filter {α : Type} {name : α → CallId} {l : List α} {a : α}
    (hn : (l.map name).Nodup) (ha : a ∈ l) : l.Perm (a :: l.filter (name · != name a)) := by
  induction l with
  | nil => cases ha
  | cons w l ih =>
      rw [List.map_cons, List.nodup_cons] at hn
      cases List.mem_cons.mp ha with
      | inl he =>
          have hfilter : l.filter (name · != name a) = l := by
            rw [List.filter_eq_self]
            intro v hv
            refine bne_iff_ne.mpr fun hva => hn.1 ?_
            rw [← he, ← hva]
            exact List.mem_map_of_mem hv
          rw [← he]
          simp [hfilter]
      | inr hmem =>
          have hne : name w ≠ name a := by
            intro hwa
            rw [hwa] at hn
            exact hn.1 (List.mem_map_of_mem hmem)
          rw [List.filter_cons, if_pos (bne_iff_ne.mpr hne)]
          exact ((ih hn.2 hmem).cons w).trans (List.Perm.swap _ _ _)

end Backpressure
