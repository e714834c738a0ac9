import Backpressure.Rate.Counter
import Mathlib.Algebra.GroupWithZero.Nat
import Mathlib.Data.List.Basic

/-!
# The window does not depend on the order of events

Seconds that lie a whole number of windows apart share a bucket, and events may come
late.  Whatever the order, a bucket ends up with the newest of the seconds that share it
and the number of their events (`Holds`): an event of an older second is dropped, and one
of a newer second throws out what was there.

Two seconds of one window never share a bucket.  So a bucket of the window that ends at a
second, if no event is newer, holds just the events of its own second (`countAt_of_newest`),
and the window shows how many events there were of each second.

*Counts.*  A count stops at `largestCount`.
-/

namespace Backpressure.Rate

/-- What a bucket holds after events of the seconds that share it. -/
inductive Holds (es : List Nat) : Nat → Prop where
  /-- Nothing, if there were none. -/
  | nothing (h : es = []) : Holds es 0
  /-- The newest of the seconds, with the number of its events. -/
  | newest {s : Nat} (hs : s ∈ es) (hmax : ∀ x ∈ es, x ≤ s) :
      Holds es (pack s (min largestCount (es.count s)))

theorem min_largestCount_lt (n : Nat) : min largestCount n < halfWord := by
  have hpos : 0 < halfWord := by decide
  unfold largestCount
  omega

/-- A late event is dropped. -/
theorem Holds.late {es : List Nat} {s u : Nat} (hu : u ∈ es) (hmax : ∀ x ∈ es, x ≤ u)
    (hlt : s < u) :
    Holds (es ++ [s]) (addTo (pack u (min largestCount (es.count u))) s largestCount).2 := by
  have hsame : (es ++ [s]).count u = es.count u := by
    rw [List.count_append, List.count_singleton, if_neg (by simp; omega), Nat.add_zero]
  rw [addTo, stampOf_pack (min_largestCount_lt _), if_pos hlt, ← hsame]
  exact .newest (List.mem_append_left _ hu) (List.forall_mem_append.mpr ⟨hmax, by simp; omega⟩)

/-- One more event of the newest second is counted. -/
theorem Holds.again {es : List Nat} {u : Nat} (hu : u ∈ es) (hmax : ∀ x ∈ es, x ≤ u) :
    Holds (es ++ [u]) (addTo (pack u (min largestCount (es.count u))) u largestCount).2 := by
  have hmore : (es ++ [u]).count u = es.count u + 1 := by
    rw [List.count_append, List.count_singleton_self]
  have hadd : (addTo (pack u (min largestCount (es.count u))) u largestCount).2 =
      pack u (min largestCount ((es ++ [u]).count u)) := by
    simp only [addTo, stampOf_pack (min_largestCount_lt _), countOf_pack (min_largestCount_lt _),
      Nat.lt_irrefl, if_true, if_false, hmore]
    split <;> refine congrArg (pack u) ?_ <;> omega
  rw [hadd]
  exact .newest (List.mem_append_left _ hu) (List.forall_mem_append.mpr ⟨hmax, by simp⟩)

/-- A newer second takes the bucket over. -/
theorem Holds.newer {es : List Nat} {s word : Nat} (hstamp : stampOf word ≤ s)
    (hcount : stampOf word = s → countOf word = 0) (hmax : ∀ x ∈ es, x < s) :
    Holds (es ++ [s]) (addTo word s largestCount).2 := by
  have hnone : s ∉ es := fun hs => Nat.lt_irrefl s (hmax s hs)
  have hfresh : min largestCount ((es ++ [s]).count s) = 1 := by
    rw [List.count_append, List.count_singleton_self, List.count_eq_zero_of_not_mem hnone]
    rfl
  have hadd : (addTo word s largestCount).2 = pack s 1 := by
    have hzero : (if stampOf word = s then countOf word else 0) = 0 := by
      split
      · next heq => exact hcount heq
      · rfl
    simp only [addTo, hzero]
    rw [if_neg (Nat.not_lt_of_le hstamp), if_neg (by decide)]
  rw [hadd, ← hfresh]
  refine .newest (List.mem_append_right _ (List.mem_singleton.mpr rfl)) ?_
  exact List.forall_mem_append.mpr ⟨fun x hx => Nat.le_of_lt (hmax x hx), by simp⟩

/-- An event of a second keeps the newest second of its bucket. -/
theorem Holds.add {es : List Nat} {word : Nat} (h : Holds es word) (s : Nat) :
    Holds (es ++ [s]) (addTo word s largestCount).2 := by
  cases h with
  | nothing h =>
      subst h
      exact .newer (by simp [stampOf]) (fun _ => by simp [countOf]) (List.forall_mem_nil _)
  | @newest u hu hmax =>
      have hstamp : stampOf (pack u (min largestCount (es.count u))) = u :=
        stampOf_pack (min_largestCount_lt _)
      rcases Nat.lt_trichotomy s u with hlt | rfl | hgt
      · exact .late hu hmax hlt
      · exact .again hu hmax
      · refine .newer ?_ ?_ fun x hx => Nat.lt_of_le_of_lt (hmax x hx) hgt
        · rw [hstamp]
          exact Nat.le_of_lt hgt
        · intro heq
          omega

namespace Counter

/-- The counter after events of some seconds, in the order in which they came. -/
def record (c : Counter) (es : List Nat) : Counter := es.foldl (fun c s => (c.increment s).2) c

variable {c : Counter} {es : List Nat} {s t : Nat}

@[simp] theorem window_add (c : Counter) (s cap : Nat) : (c.add s cap).2.window = c.window := by
  simp [add, window]

@[simp] theorem slot_add (c : Counter) (s cap t : Nat) : (c.add s cap).2.slot t = c.slot t := by
  simp [slot]

/-- An event changes the bucket of its second, and no other. -/
theorem word_add (hc : 0 < c.window) (s cap t : Nat) :
    (c.add s cap).2.word t =
      if c.slot s = c.slot t then (addTo (c.word t) (stamp s) cap).2 else c.word t := by
  have hslot : c.slot s < c.buckets.size := Nat.mod_lt _ hc
  rw [word, slot_add]
  simp only [add, Array.getD_eq_getD_getElem?, Array.getElem?_setIfInBounds]
  split
  · next heq =>
      have hword : c.word t = c.word s := by rw [word, word, heq]
      rw [Option.getD_some, hword]
  · rw [word, Array.getD_eq_getD_getElem?]

/-- Every bucket holds the newest of the seconds that share it. -/
def Shows (c : Counter) (es : List Nat) : Prop :=
  ∀ t, Holds (es.filter fun x => c.slot x = c.slot t) (c.word t)

theorem shows_ofWindow (window : Nat) : Shows (ofWindow window) [] := by
  intro t
  have hzero : (ofWindow window).word t = 0 := by
    simp [word, ofWindow, Array.getD_eq_getD_getElem?, Array.getElem?_replicate]
    split <;> rfl
  rw [hzero]
  exact .nothing rfl

theorem Shows.increment (h : Shows c es) (hc : 0 < c.window) (hs : s < halfWord) :
    Shows (c.increment s).2 (es ++ [s]) := by
  intro t
  have hstamp : stamp s = s := Nat.mod_eq_of_lt hs
  simp only [Counter.increment, slot_add, word_add hc, hstamp, List.filter_append]
  by_cases hslot : c.slot s = c.slot t
  · rw [if_pos hslot, List.filter_cons_of_pos (by simpa using hslot), List.filter_nil]
    exact (h t).add s
  · rw [if_neg hslot, List.filter_cons_of_neg (by simpa using hslot), List.filter_nil,
      List.append_nil]
    exact h t

/-- The window stays as long as it was. -/
theorem window_record (c : Counter) (es : List Nat) : (c.record es).window = c.window := by
  induction es generalizing c with
  | nil => rfl
  | cons s es ih => exact (ih _).trans (window_add c s largestCount)

/-- After any events every bucket holds the newest of the seconds that share it. -/
theorem Shows.record {new : List Nat} (h : Shows c es) (hc : 0 < c.window)
    (hnew : ∀ x ∈ new, x < halfWord) : Shows (c.record new) (es ++ new) := by
  induction new generalizing c es with
  | nil => rwa [List.append_nil]
  | cons s new ih =>
      have hfirst := h.increment hc (hnew s List.mem_cons_self)
      have hrest := ih hfirst (by simpa [Counter.increment] using hc)
        fun x hx => hnew x (List.mem_cons_of_mem _ hx)
      rwa [List.append_assoc] at hrest

/-- If no second that shares its bucket is newer, a second shows its events. -/
theorem Shows.countAt_of_newest (h : Shows c es) (ht : t < halfWord)
    (hnew : ∀ x ∈ es, c.slot x = c.slot t → x ≤ t) :
    c.countAt t = min largestCount (es.count t) := by
  have hstamp : stamp t = t := Nat.mod_eq_of_lt ht
  have hcount : (es.filter fun x => c.slot x = c.slot t).count t = es.count t :=
    List.count_filter (by simp)
  have hholds := h t
  rw [countAt, hstamp, ← hcount]
  generalize c.word t = word at hholds ⊢
  cases hholds with
  | nothing hnil =>
      rw [hnil]
      simp [countOf]
  | @newest u hu hmax =>
      rw [stampOf_pack (min_largestCount_lt _), countOf_pack (min_largestCount_lt _)]
      split
      · next heq => rw [heq]
      · next hne =>
          -- The bucket is held by an older second, so there was no event of this one.
          have hmem := List.mem_filter.mp hu
          have hle := hnew u hmem.1 (by simpa using hmem.2)
          have hnone : t ∉ es.filter fun x => c.slot x = c.slot t := fun hmem' =>
            hne (Nat.le_antisymm hle (hmax t hmem'))
          rw [List.count_eq_zero_of_not_mem hnone, Nat.min_zero]

/-- A second that shares its bucket with an older one is at least a window newer. -/
theorem add_window_le (hslot : c.slot s = c.slot t) (hlt : t < s) : t + c.window ≤ s := by
  have hs := Nat.div_add_mod s c.window
  have ht := Nat.div_add_mod t c.window
  have hdiv : t / c.window < s / c.window := by
    refine Nat.lt_of_mul_lt_mul_left (a := c.window) ?_
    simp only [slot] at hslot
    omega
  have hmul := Nat.mul_le_mul_left c.window hdiv
  rw [Nat.mul_succ] at hmul
  simp only [slot] at hslot
  omega

/-- The number of events of each of the last `m` seconds up to `s`, oldest first. -/
def census (es : List Nat) (m s : Nat) : List Nat :=
  (List.range m).map fun i =>
    if m - 1 - i ≤ s then min largestCount (es.count (s - (m - 1 - i))) else 0

/-- When no event is newer than a second, the window that ends there shows its events. -/
theorem Shows.counts_windowAt (h : Shows c es) (hs : s < halfWord)
    (hes : ∀ x ∈ es, x ≤ s) (n : Nat) :
    (c.windowAt s n).counts = census es (c.clampWindow n) s := by
  have hle : c.clampWindow n ≤ c.window := Nat.min_le_right _ _
  simp only [windowAt, census]
  refine List.ext_getElem (by simp) fun i hi _ => ?_
  simp only [List.length_map, List.length_reverse, List.length_range] at hi
  simp only [List.getElem_map, List.getElem_reverse, List.getElem_range, List.length_range]
  split
  · refine h.countAt_of_newest (Nat.lt_of_le_of_lt (Nat.sub_le _ _) hs) fun x hx hslot => ?_
    by_contra hnew
    have hfar := add_window_le hslot (Nat.lt_of_not_le hnew)
    have hnow := hes x hx
    omega
  · rfl

/-- Only the events of its own seconds matter to a window. -/
theorem census_congr {es es' : List Nat} {m s : Nat}
    (h : ∀ t ≤ s, s < t + m → es.count t = es'.count t) : census es m s = census es' m s := by
  refine List.map_congr_left fun i hi => ?_
  have him := List.mem_range.mp hi
  split
  · rw [h (s - (m - 1 - i)) (Nat.sub_le _ _) (by omega)]
  · rfl

theorem windowAt_eq_census {window n s : Nat} {es : List Nat} (hs : s < halfWord)
    (hes : ∀ x ∈ es, x ≤ s) :
    ((ofWindow window).record es).windowAt s n =
      { counts := census es (min (max n 1) (max window 1)) s
        total := (census es (min (max n 1) (max window 1)) s).sum
        endingAt := s } := by
  have hwindow : (ofWindow window).window = max window 1 := by simp [ofWindow, Counter.window]
  have hshows := (shows_ofWindow window).record (by rw [hwindow]; omega)
    fun x hx => Nat.lt_of_le_of_lt (hes x hx) hs
  have hcounts := hshows.counts_windowAt hs hes n
  rw [clampWindow, window_record, hwindow, List.nil_append] at hcounts
  rw [← hcounts, List.sum_eq_foldl_nat]
  rfl

/-- The window that ends at a second shows, oldest first, how many events there were of each of
its seconds, if no event was newer.  The order in which the events came does not matter, nor
does any event that came after its second had left the window. -/
theorem windowAt_record {window n s : Nat} {es : List Nat} (hs : s < halfWord)
    (hes : ∀ x ∈ es, x ≤ s) :
    ((ofWindow window).record es).windowAt s n =
        { counts := census es (min (max n 1) (max window 1)) s
          total := (census es (min (max n 1) (max window 1)) s).sum
          endingAt := s } ∧
      (∀ es' : List Nat, es.Perm es' → ((ofWindow window).record es').windowAt s n =
        ((ofWindow window).record es).windowAt s n) ∧
      ∀ (before after : List Nat) (late : Nat), es = before ++ late :: after →
        late + min (max n 1) (max window 1) ≤ s →
          ((ofWindow window).record (before ++ after)).windowAt s n =
            ((ofWindow window).record es).windowAt s n := by
  refine ⟨windowAt_eq_census hs hes, fun es' hperm => ?_, ?_⟩
  · have hes' : ∀ x ∈ es', x ≤ s := fun x hx => hes x (hperm.mem_iff.mpr hx)
    rw [windowAt_eq_census hs hes, windowAt_eq_census hs hes',
      census_congr fun t _ _ => (hperm.count_eq t).symm]
  · intro before after late he hlate
    have hrest : ∀ x ∈ before ++ after, x ≤ s := by
      intro x hx
      refine hes x ?_
      rw [he, List.mem_append, List.mem_cons]
      exact (List.mem_append.mp hx).imp_right .inr
    have hcount : ∀ t ≤ s, s < t + min (max n 1) (max window 1) →
        (before ++ after).count t = es.count t := by
      intro t _ ht
      rw [he, List.count_append, List.count_append, List.count_cons, if_neg, Nat.add_zero]
      simp only [beq_iff_eq]
      omega
    rw [windowAt_eq_census hs hes, windowAt_eq_census hs hrest, census_congr hcount]

/-- Seconds 6 and 9 share a bucket, as do 4 and 7, and the older ones come late. -/
theorem windowAt_of_stragglers :
    (9 < halfWord ∧ ∀ x ∈ [7, 5, 9, 2, 7, 4, 6, 7], x ≤ 9) ∧
      ((ofWindow 3).record [7, 5, 9, 2, 7, 4, 6, 7]).windowAt 9 5 =
        { counts := [3, 0, 1], total := 4, endingAt := 9 } := by
  have hs : 9 < halfWord := by decide
  have hes : ∀ x ∈ [7, 5, 9, 2, 7, 4, 6, 7], x ≤ 9 := by decide
  exact ⟨⟨hs, hes⟩, (windowAt_record hs hes).1⟩

end Counter

end Backpressure.Rate
