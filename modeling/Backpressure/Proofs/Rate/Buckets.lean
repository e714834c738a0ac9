import Backpressure.Proofs.Rate.Window
import Mathlib.Data.List.Induction

/-!
# What the words of a counter stand for

A counter remembers a second and the number of its events in one word, for one second of
each bucket.  A `Tally` keeps beside the counter the seconds of the events that were counted,
and so all that the words can stand for.

*Below 2 ^ 32* a second is its own stamp.  There a counter refines the map from seconds to the
numbers of their events, as far as a second is the newest of its bucket
(`tally_refines`).  Events may have any caps and come in any order.

*In general* a bucket cannot tell a second from others that have the same stamp, and takes the
largest stamp for the newest second (`shown_of_increments`).  With stamps that wrap around a
second can show events of another one, and its own events can be dropped as late
(`mistaken_of_wrap`).
-/

namespace Backpressure.Rate

variable {es : List Nat} {word s cap : Nat}

/-! ## One bucket -/

/-- What a bucket holds when events with some stamps were counted in it: the largest stamp, with
the number of its events, which fits. -/
structure Tallied (es : List Nat) (word : Nat) : Prop where
  holds : Holds es word
  room : ∀ t, es.count t ≤ largestCount

namespace Tallied

theorem word_eq (h : Tallied es word) :
    word = match es.max? with
      | none => 0
      | some u => pack u (es.count u) := by
  cases h.holds with
  | nothing hnil =>
      subst hnil
      rfl
  | @newest u hu hmax =>
      have hbest : es.max? = some u := List.max?_eq_some_iff.mpr ⟨hu, hmax⟩
      rw [hbest, Nat.min_eq_right (h.room u)]

/-- A stamp is behind the bucket just when a larger one was counted. -/
theorem lt_stampOf_iff (h : Tallied es word) : s < stampOf word ↔ ∃ x ∈ es, s < x := by
  cases h.holds with
  | nothing hnil =>
      subst hnil
      simp [stampOf]
  | newest hu hmax =>
      rw [stampOf_pack (min_largestCount_lt _)]
      refine ⟨fun hlt => ⟨_, hu, hlt⟩, ?_⟩
      rintro ⟨x, hx, hlt⟩
      exact Nat.lt_of_lt_of_le hlt (hmax x hx)

/-- Unless a larger stamp was counted, a bucket shows the number of the events of a stamp. -/
theorem count_eq (h : Tallied es word) :
    (if stampOf word = s then countOf word else 0) =
      if ∃ x ∈ es, s < x then 0 else es.count s := by
  cases h.holds with
  | nothing hnil =>
      subst hnil
      simp [countOf]
  | @newest u hu hmax =>
      rw [stampOf_pack (min_largestCount_lt _), countOf_pack (min_largestCount_lt _),
        Nat.min_eq_right (h.room u)]
      rcases Nat.lt_trichotomy s u with hlt | rfl | hgt
      · rw [if_neg (Nat.ne_of_gt hlt), if_pos ⟨u, hu, hlt⟩]
      · have hnone : ¬∃ x ∈ es, s < x := by
          rintro ⟨x, hx, hlt⟩
          exact Nat.not_lt_of_le (hmax x hx) hlt
        rw [if_pos rfl, if_neg hnone]
      · -- a stamp that is larger than all that were counted was not counted itself
        have hnew : s ∉ es := fun hs => Nat.not_lt_of_le (hmax s hs) hgt
        rw [if_neg (Nat.ne_of_lt hgt), List.count_eq_zero_of_not_mem hnew, ite_self]

theorem addTo_eq (h : Tallied es word) (s cap : Nat) :
    addTo word s cap =
      if ∃ x ∈ es, s < x then (.refused 0, word)
      else if cap ≤ es.count s then (.refused (es.count s), word)
      else (.counted (es.count s + 1), pack s (es.count s + 1)) := by
  simp only [addTo, h.count_eq, h.lt_stampOf_iff]
  split <;> rfl

/-- An event that is counted is entered in the bucket. -/
theorem add (h : Tallied es word) (hcap : cap ≤ largestCount) (hfree : ¬∃ x ∈ es, s < x)
    (hroom : es.count s < cap) : Tallied (es ++ [s]) (addTo word s cap).2 where
  holds := by
    have hentered : (addTo word s cap).2 = (addTo word s largestCount).2 := by
      rw [h.addTo_eq, h.addTo_eq, if_neg hfree, if_neg hfree, if_neg (Nat.not_le.mpr hroom),
        if_neg (Nat.not_le.mpr (Nat.lt_of_lt_of_le hroom hcap))]
    exact hentered ▸ h.holds.add s
  room t := by
    have hbefore := h.room t
    rw [List.count_append, List.count_singleton]
    split
    · next heq =>
        rw [beq_iff_eq] at heq
        subst heq
        omega
    · exact hbefore

end Tallied

theorem tallied_nil : Tallied [] 0 := ⟨.nothing rfl, fun _ => Nat.zero_le _⟩

/-! ## A counter and what it counted -/

namespace Counter

/-- A counter with the seconds of the events that it counted, in order. -/
structure Tally where
  counter : Counter
  counted : List Nat

/-- A tally after an event of a second with a cap. -/
def Tally.add (k : Tally) (s cap : Nat) : Tally where
  counter := (k.counter.add s cap).2
  counted := k.counted ++ if (k.counter.add s cap).1.count?.isSome then [s] else []

/-- A counter over a window after events, each with its second and its cap. -/
def tally (window : Nat) (events : List (Nat × Nat)) : Tally :=
  events.foldl (fun k e => k.add e.1 e.2) ⟨ofWindow window, []⟩

/-- The stamps of the seconds that share the bucket of a second. -/
def sharing (window : Nat) (es : List Nat) (s : Nat) : List Nat :=
  (es.filter fun x => x % max window 1 = s % max window 1).map stamp

variable {window : Nat} {k : Tally} {events : List (Nat × Nat)} {x t : Nat}

theorem sharing_append_singleton :
    sharing window (es ++ [s]) t =
      sharing window es t ++ if s % max window 1 = t % max window 1 then [stamp s] else [] := by
  simp only [sharing, List.filter_append, List.map_append, List.filter_singleton]
  split <;> simp_all

/-- A counter holds what it counted. -/
structure Tally.Sound (window : Nat) (k : Tally) : Prop where
  window_eq : k.counter.window = max window 1
  buckets : ∀ t, Tallied (sharing window k.counted t) (k.counter.word t)

namespace Tally.Sound

theorem slot_eq (h : k.Sound window) (s : Nat) : k.counter.slot s = s % max window 1 := by
  rw [slot, h.window_eq]

/-- What an event comes to, by the stamps that were counted in its bucket. -/
theorem add_fst (h : k.Sound window) (s cap : Nat) :
    (k.counter.add s cap).1 =
      if ∃ x ∈ sharing window k.counted s, stamp s < x then .refused 0
      else if cap ≤ (sharing window k.counted s).count (stamp s) then
        .refused ((sharing window k.counted s).count (stamp s))
      else .counted ((sharing window k.counted s).count (stamp s) + 1) := by
  have hbucket := (h.buckets s).addTo_eq (stamp s) cap
  simp only [Counter.add, hbucket]
  split
  · rfl
  · split <;> rfl

theorem countAt_eq (h : k.Sound window) (s : Nat) :
    k.counter.countAt s =
      if ∃ x ∈ sharing window k.counted s, stamp s < x then 0
      else (sharing window k.counted s).count (stamp s) := (h.buckets s).count_eq

/-- An event that is refused leaves the counter as it is. -/
theorem add_refused (h : k.Sound window) {n : Nat} (hn : (k.counter.add s cap).1 = .refused n) :
    (k.counter.add s cap).2 = k.counter := by
  have hslot : k.counter.slot s < k.counter.buckets.size := by
    refine Nat.mod_lt _ ?_
    rw [h.window_eq]
    omega
  have hsame : (addTo (k.counter.word s) (stamp s) cap).2 = k.counter.word s := by
    have hbucket := (h.buckets s).addTo_eq (stamp s) cap
    simp only [Counter.add] at hn
    rw [hbucket] at hn ⊢
    split at hn
    · next hover => rw [if_pos hover]
    · next hfree =>
        rw [if_neg hfree]
        split at hn
        · next hfull => rw [if_pos hfull]
        · cases hn
  have hword : k.counter.word s = k.counter.buckets[k.counter.slot s] := by
    simp [word, Array.getD_eq_getD_getElem?, hslot]
  simp only [Counter.add, hsame]
  simp [hword, Array.setIfInBounds, hslot]

theorem add (h : k.Sound window) (hcap : cap ≤ largestCount) : (k.add s cap).Sound window where
  window_eq := (window_add _ s cap).trans h.window_eq
  buckets t := by
    have hpos : 0 < k.counter.window := by
      rw [h.window_eq]
      omega
    simp only [Tally.add]
    cases hout : (k.counter.add s cap).1 with
    | refused n =>
        rw [h.add_refused hout]
        simpa [Added.count?] using h.buckets t
    | counted n =>
        have hresult := h.add_fst s cap
        rw [hout] at hresult
        rw [word_add hpos, h.slot_eq, h.slot_eq]
        simp only [Added.count?, Option.isSome_some, if_true, sharing_append_singleton]
        split
        · next hslot =>
            have hshare : sharing window k.counted s = sharing window k.counted t := by
              simp only [sharing, hslot]
            rw [hshare] at hresult
            split at hresult
            · cases hresult
            · next hfree =>
                split at hresult
                · cases hresult
                · next hroom => exact (h.buckets t).add hcap hfree (Nat.lt_of_not_le hroom)
        · rw [List.append_nil]
          exact h.buckets t

end Tally.Sound

theorem sound_ofWindow : Tally.Sound window ⟨ofWindow window, []⟩ where
  window_eq := by simp [ofWindow, Counter.window]
  buckets t := by
    have hzero : (ofWindow window).word t = 0 := by
      simp only [word, ofWindow, Array.getD_eq_getD_getElem?, Array.getElem?_replicate]
      split <;> rfl
    rw [hzero]
    exact tallied_nil

theorem tally_append_singleton (events : List (Nat × Nat)) (e : Nat × Nat) :
    tally window (events ++ [e]) = (tally window events).add e.1 e.2 := by
  rw [tally, List.foldl_append]
  rfl

/-- A counter holds what it counted, whatever the events. -/
theorem sound_tally (hcaps : ∀ e ∈ events, e.2 ≤ largestCount) :
    (tally window events).Sound window := by
  induction events using List.reverseRecOn with
  | nil => exact sound_ofWindow
  | append_singleton events e ih =>
      rw [tally_append_singleton]
      have hlast := hcaps e (List.mem_append_right _ List.mem_cons_self)
      exact (ih fun e' he => hcaps e' (List.mem_append_left _ he)).add hlast

/-- Only seconds of events are counted. -/
theorem mem_of_mem_counted (hx : x ∈ (tally window events).counted) : x ∈ events.map (·.1) := by
  induction events using List.reverseRecOn with
  | nil => cases hx
  | append_singleton events e ih =>
      rw [tally_append_singleton, Tally.add, List.mem_append] at hx
      rw [List.map_append, List.mem_append]
      refine hx.imp ih fun hlast => ?_
      split at hlast
      · exact hlast
      · cases hlast

/-! ## Seconds below 2 ^ 32 -/

/-- The newest of the seconds that were counted in the bucket of a second. -/
def newest? (window : Nat) (es : List Nat) (s : Nat) : Option Nat :=
  (es.filter fun x => x % max window 1 = s % max window 1).max?

/-- A counter stands for the map from each second to the number of its events that were counted,
as far as the second is the newest of its bucket. -/
structure Refines (window : Nat) (c : Counter) (es : List Nat) : Prop where
  /-- A second shows its events, unless an event of a later one was counted in its bucket. -/
  countAt : ∀ s < halfWord, c.countAt s =
    if newest? window es s = none ∨ newest? window es s = some s then es.count s else 0
  /-- What the next event comes to. -/
  next : ∀ s < halfWord, ∀ cap, (c.add s cap).1 =
    if s < (newest? window es s).getD 0 then .refused 0
    else if cap ≤ c.countAt s then .refused (c.countAt s)
    else .counted (c.countAt s + 1)
  /-- An event that is refused changes nothing. -/
  refused : ∀ s cap n, (c.add s cap).1 = .refused n → (c.add s cap).2 = c
  /-- A bucket in which nothing was counted is empty. -/
  vacant : ∀ s < halfWord, newest? window es s = none → c.word s = 0
  /-- Any other holds its newest second and the number of its events, which fits. -/
  packed : ∀ s < halfWord, ∀ u, newest? window es s = some u →
    c.word s = pack u (es.count u) ∧ es.count u ≤ largestCount

/-- Seconds below `2 ^ 32` are their own stamps. -/
theorem sharing_of_lt (hes : ∀ x ∈ es, x < halfWord) :
    sharing window es s = es.filter fun x => x % max window 1 = s % max window 1 := by
  refine (List.map_congr_left fun x hx => ?_).trans (List.map_id _)
  exact Nat.mod_eq_of_lt (hes x (List.mem_filter.mp hx).1)

theorem count_sharing_of_lt {u : Nat} (hes : ∀ x ∈ es, x < halfWord)
    (hu : u % max window 1 = s % max window 1) :
    (sharing window es s).count u = es.count u := by
  rw [sharing_of_lt hes]
  exact List.count_filter (decide_eq_true hu)

theorem mod_eq_of_newest {u : Nat} (hu : newest? window es s = some u) :
    u % max window 1 = s % max window 1 :=
  of_decide_eq_true (List.mem_filter.mp (List.max?_mem hu)).2

/-- A later second was counted in the bucket just when the newest one is later. -/
theorem exists_lt_iff :
    (∃ x ∈ es.filter fun x => x % max window 1 = s % max window 1, s < x) ↔
      s < (newest? window es s).getD 0 := by
  cases hu : newest? window es s with
  | none =>
      rw [newest?, List.max?_eq_none_iff] at hu
      simp [hu]
  | some u =>
      obtain ⟨hmem, hmax⟩ := List.max?_eq_some_iff.mp hu
      refine ⟨?_, fun hlt => ⟨u, hmem, hlt⟩⟩
      rintro ⟨x, hx, hlt⟩
      exact Nat.lt_of_lt_of_le hlt (hmax x hx)

/-- A second without a later one is the newest, or there was no event of it. -/
theorem count_of_newest :
    (if s < (newest? window es s).getD 0 then 0 else es.count s) =
      if newest? window es s = none ∨ newest? window es s = some s then es.count s else 0 := by
  cases hu : newest? window es s with
  | none => simp
  | some u =>
      have hmax := (List.max?_eq_some_iff.mp hu).2
      rcases Nat.lt_trichotomy s u with hlt | rfl | hgt
      · simp [hlt, Nat.ne_of_gt hlt]
      · simp
      · have hnone : s ∉ es := fun hs =>
          Nat.not_lt_of_le (hmax s (List.mem_filter.mpr ⟨hs, decide_eq_true rfl⟩)) hgt
        simp [List.count_eq_zero_of_not_mem hnone]

theorem Tally.Sound.countAt_of_lt (h : k.Sound window) (hcounted : ∀ x ∈ k.counted, x < halfWord)
    (hs : s < halfWord) :
    k.counter.countAt s =
      if s < (newest? window k.counted s).getD 0 then 0 else k.counted.count s := by
  have hstamp : stamp s = s := Nat.mod_eq_of_lt hs
  rw [h.countAt_eq, hstamp, count_sharing_of_lt hcounted rfl, sharing_of_lt hcounted]
  simp only [exists_lt_iff]

theorem Tally.Sound.refines (h : k.Sound window) (hcounted : ∀ x ∈ k.counted, x < halfWord) :
    Refines window k.counter k.counted where
  countAt s hs := (h.countAt_of_lt hcounted hs).trans count_of_newest
  next s hs cap := by
    have hstamp : stamp s = s := Nat.mod_eq_of_lt hs
    rw [h.add_fst, hstamp, count_sharing_of_lt hcounted rfl, sharing_of_lt hcounted,
      h.countAt_of_lt hcounted hs]
    simp only [exists_lt_iff]
    split <;> rfl
  refused s cap n hn := h.add_refused hn
  vacant s hs hnone := by
    have hempty : (sharing window k.counted s).max? = none := by
      rwa [sharing_of_lt hcounted]
    rw [(h.buckets s).word_eq, hempty]
  packed s hs u hu := by
    have hbest : (sharing window k.counted s).max? = some u := by
      rwa [sharing_of_lt hcounted]
    have hcount := count_sharing_of_lt hcounted (mod_eq_of_newest hu)
    have hroom := (h.buckets s).room u
    rw [hcount] at hroom
    refine ⟨?_, hroom⟩
    rw [(h.buckets s).word_eq, hbest]
    exact congrArg (pack u) hcount

/-- A counter refines the map from seconds to the numbers of their events, whatever the order of
the events and their caps. -/
theorem tally_refines
    (hevents : ∀ e ∈ events, e.1 < halfWord ∧ e.2 ≤ largestCount) :
    Refines window (tally window events).counter (tally window events).counted := by
  refine (sound_tally fun e he => (hevents e he).2).refines fun x hx => ?_
  obtain ⟨e, he, rfl⟩ := List.mem_map.mp (mem_of_mem_counted hx)
  exact (hevents e he).1

/-- Events with the largest cap, with a small one and with none, where 7, 4 and 10 share a bucket,
and 5 and 2. -/
def mixed : List (Nat × Nat) :=
  [(7, largestCount), (4, 9), (7, 1), (7, 2), (10, 0), (2, 1), (5, largestCount), (5, 1), (0, 1)]

theorem refines_of_mixed :
    (∀ e ∈ mixed, e.1 < halfWord ∧ e.2 ≤ largestCount) ∧
      Refines 3 (tally 3 mixed).counter (tally 3 mixed).counted ∧
      (tally 3 mixed).counted = [7, 7, 2, 5, 0] ∧ newest? 3 [7, 7, 2, 5, 0] 4 = some 7 := by
  have hevents : ∀ e ∈ mixed, e.1 < halfWord ∧ e.2 ≤ largestCount := by decide
  exact ⟨hevents, tally_refines hevents, by decide +kernel, by decide +kernel⟩

/-! ## Seconds beyond 2 ^ 32 -/

/-- A counter cannot tell two seconds apart. -/
def Alike (window x s : Nat) : Prop := x % max window 1 = s % max window 1 ∧ stamp x = stamp s

instance : Decidable (Alike window x s) := inferInstanceAs (Decidable (_ ∧ _))

/-- A larger stamp than that of a second was counted in its bucket. -/
def Overtaken (window : Nat) (es : List Nat) (s : Nat) : Prop :=
  ∃ x ∈ es, x % max window 1 = s % max window 1 ∧ stamp s < stamp x

instance : Decidable (Overtaken window es s) := inferInstanceAs (Decidable (∃ x ∈ es, _ ∧ _))

theorem overtaken_iff :
    (∃ y ∈ sharing window es s, stamp s < y) ↔ Overtaken window es s := by
  constructor
  · rintro ⟨y, hy, hlt⟩
    obtain ⟨x, hx, rfl⟩ := List.mem_map.mp hy
    obtain ⟨hmem, hslot⟩ := List.mem_filter.mp hx
    exact ⟨x, hmem, of_decide_eq_true hslot, hlt⟩
  · rintro ⟨x, hx, hslot, hlt⟩
    exact ⟨stamp x, List.mem_map_of_mem (List.mem_filter.mpr ⟨hx, decide_eq_true hslot⟩), hlt⟩

theorem count_sharing :
    (sharing window es s).count (stamp s) = es.countP fun x => Alike window x s := by
  rw [sharing, List.count, List.countP_map, List.countP_filter]
  refine List.countP_congr fun x _ => ?_
  rw [Bool.and_eq_true, Function.comp_apply, beq_iff_eq, decide_eq_true_iff, decide_eq_true_iff]
  exact and_comm

/-- Of all the seconds that are like a second, those are counted that are this second. -/
theorem countP_alike_le_iff :
    (es.countP fun x => Alike window x s) ≤ es.count s ↔ ∀ x ∈ es, Alike window x s → x = s := by
  have hsplit := List.countP_eq_countP_filter_add es (fun x => decide (Alike window x s)) (· == s)
  have hsame : (es.filter (· == s)).countP (fun x => decide (Alike window x s)) = es.count s := by
    rw [List.countP_filter, List.count]
    refine List.countP_congr fun x _ => ?_
    simp only [Bool.and_eq_true, beq_iff_eq, decide_eq_true_eq]
    exact ⟨fun h => h.2, fun h => ⟨h ▸ ⟨rfl, rfl⟩, h⟩⟩
  rw [hsplit, hsame]
  constructor
  · intro hle x hx halike
    by_contra hne
    have hother : 0 < (es.filter fun a => !a == s).countP fun x => decide (Alike window x s) :=
      List.countP_pos_iff.mpr
        ⟨x, List.mem_filter.mpr ⟨hx, by simpa using hne⟩, decide_eq_true halike⟩
    omega
  · intro hall
    have hnone : (es.filter fun a => !a == s).countP (fun x => decide (Alike window x s)) = 0 := by
      refine List.countP_eq_zero.mpr fun x hx halike => ?_
      obtain ⟨hmem, hne⟩ := List.mem_filter.mp hx
      simp [hall x hmem (of_decide_eq_true halike)] at hne
    omega

/-- What a counter over a window shows of a second after events of any seconds, of which some were
counted, and what becomes of one more. -/
structure Shown (window : Nat) (c : Counter) (counted : List Nat) (s : Nat) : Prop where
  /-- It shows the events of all seconds that it cannot tell from this one, unless one with a
  larger stamp was counted in the bucket. -/
  overtaken : Overtaken window counted s → c.countAt s = 0
  alike : ¬Overtaken window counted s → c.countAt s = counted.countP fun x => Alike window x s
  /-- So it shows too many events just when it counted some of such a second. -/
  exact : c.countAt s ≤ counted.count s ↔
    Overtaken window counted s ∨ ∀ x ∈ counted, Alike window x s → x = s
  /-- One more event is dropped just when a larger stamp was counted or the count is full. -/
  dropped : (c.increment s).1.count? = none ↔
    Overtaken window counted s ∨ c.countAt s = largestCount
  /-- As long as the stamps do not wrap around, no event is shown that was not counted for the
  second, and none is dropped for being late that is newer than all before. -/
  unwrapped : (∀ x ∈ counted, x / halfWord = s / halfWord) →
    c.countAt s ≤ counted.count s ∧
      ((∀ x ∈ counted, x < s) → (c.increment s).1.count? = none → c.countAt s = largestCount)

/-- Seconds between two wraps that have the same stamp are the same. -/
theorem eq_of_stamp {x : Nat} (hera : x / halfWord = s / halfWord) (hstamp : stamp x = stamp s) :
    x = s := by
  rw [← Nat.div_add_mod x halfWord, ← Nat.div_add_mod s halfWord, hera]
  exact congrArg _ hstamp

/-- Between two wraps a newer second has a larger stamp. -/
theorem stamp_lt {x : Nat} (hera : x / halfWord = s / halfWord) (hlt : x < s) :
    stamp x < stamp s := by
  have hx := Nat.div_add_mod x halfWord
  have hs := Nat.div_add_mod s halfWord
  rw [hera] at hx
  simp only [stamp]
  omega

/-- The number of events that a second shows. -/
theorem Tally.Sound.countAt_alike (h : k.Sound window) (s : Nat) :
    k.counter.countAt s =
      if Overtaken window k.counted s then 0 else k.counted.countP fun x => Alike window x s := by
  rw [h.countAt_eq, count_sharing]
  simp only [overtaken_iff]

theorem Tally.Sound.dropped_iff (h : k.Sound window) (s : Nat) :
    (k.counter.increment s).1.count? = none ↔
      Overtaken window k.counted s ∨ k.counter.countAt s = largestCount := by
  have hroom := (h.buckets s).room (stamp s)
  rw [count_sharing] at hroom
  rw [increment, h.add_fst, h.countAt_alike, count_sharing]
  simp only [overtaken_iff]
  by_cases hover : Overtaken window k.counted s
  · simp [hover, Added.count?]
  · rw [if_neg hover, if_neg hover]
    split
    · next hfull => simp [Added.count?, Nat.le_antisymm hroom hfull]
    · next hfree => simp [hover, Added.count?, Nat.ne_of_lt (Nat.lt_of_not_le hfree)]

theorem Tally.Sound.countAt_le_iff (h : k.Sound window) (s : Nat) :
    k.counter.countAt s ≤ k.counted.count s ↔
      Overtaken window k.counted s ∨ ∀ x ∈ k.counted, Alike window x s → x = s := by
  rw [h.countAt_alike]
  split
  · next hover => simp [hover]
  · next hfree => simp [hfree, countP_alike_le_iff]

theorem Tally.Sound.shown (h : k.Sound window) (s : Nat) :
    Shown window k.counter k.counted s where
  overtaken hover := (h.countAt_alike s).trans (if_pos hover)
  alike hfree := (h.countAt_alike s).trans (if_neg hfree)
  exact := h.countAt_le_iff s
  dropped := h.dropped_iff s
  unwrapped hera := by
    refine ⟨(h.countAt_le_iff s).mpr (.inr fun x hx halike => eq_of_stamp (hera x hx) halike.2),
      fun hnew hdrop => ((h.dropped_iff s).mp hdrop).resolve_left ?_⟩
    -- a second that was counted is older, so its stamp is smaller
    rintro ⟨x, hx, -, hlt⟩
    exact Nat.lt_asymm hlt (stamp_lt (hera x hx) (hnew x hx))

/-- A counter after an event of each of some seconds, in the order in which they came. -/
def tallyAll (window : Nat) (seconds : List Nat) : Tally :=
  tally window (seconds.map fun s => (s, largestCount))

/-- Whatever the seconds of the events, a counter shows of each second what its stamp shows. -/
theorem shown_of_increments (window : Nat) (seconds : List Nat) (s : Nat) :
    Shown window (tallyAll window seconds).counter (tallyAll window seconds).counted s := by
  refine (sound_tally fun e he => ?_).shown s
  obtain ⟨x, -, rfl⟩ := List.mem_map.mp he
  exact Nat.le_refl _

/-- Stamps wrap around.  A counter over a minute shows an event of second 5 in a second that comes
`15 * 2 ^ 32` seconds later, in which there was none, and drops the first event of a second that is
newer than all before, because its stamp is smaller than that of the second a minute ago. -/
theorem mistaken_of_wrap :
    (¬(tallyAll 60 [5, 4294967292]).counter.countAt 64424509445 ≤
        (tallyAll 60 [5, 4294967292]).counted.count 64424509445) ∧
      ¬((∀ x ∈ [5, 4294967292], x < 4294967352) →
        ((tallyAll 60 [5, 4294967292]).counter.increment 4294967352).1.count? = none →
          (tallyAll 60 [5, 4294967292]).counter.countAt 4294967352 = largestCount) := by
  decide +kernel

end Counter

end Backpressure.Rate
