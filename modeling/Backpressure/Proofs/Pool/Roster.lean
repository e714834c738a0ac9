import Backpressure.Proofs.Pool.Turnover

/-!
# The roster of a pool

Every member is in one of three states: it is active, it is leaving, or it was dismissed.  Whoever
is not dismissed is active or leaving, and that in one place only.  Whoever is waited for was told
to stop, and so was whoever is dismissed (`Roster`).

*The book.*  What the factory and the pool agree on is the name of every member and when it was
dismissed.  A change adds a line for a member that joins, fills in the line of the member that is
dismissed, or leaves the book alone (`Passage.entered`, `Passage.closed`).

*One action.*  All changes of one action happen at one moment, so the book after it is known from
the members that were leaving before it: a member that was dismissed has stopped, or the wait for
it is over, and that wait was there before the action or began with it (`Turnover.dismissedAt`).
-/

namespace Backpressure

/-- The name of the worker with a number. -/
def PoolSettings.workerName (s : PoolSettings) (n : Nat) : String :=
  s.workerLabel ++ "-" ++ toString n

/-- Workers with different numbers have different names. -/
theorem PoolSettings.workerName_injective (s : PoolSettings) : Function.Injective s.workerName := by
  intro m n h
  have htext := congrArg String.toList h
  simp only [workerName, String.toList_append] at htext
  have hnumber := congrArg (Nat.ofDigitChars 10 · 0) (List.append_cancel_left htext)
  simpa [Nat.toString_eq_ofList_toDigits] using hnumber

/-- The line of a member in the book. -/
def Member.line {α : Type} (m : Member α) : String × Option Instant := (m.name, m.dismissed)

namespace Pool

variable {α : Type}

/-- The name of every member, and when it was dismissed, if it was. -/
def book (p : Pool α) : List (String × Option Instant) := p.crew.map Member.line

/-- When a member was dismissed, if it was. -/
def dismissedAt (p : Pool α) (i : MemberId) : Option Instant := p.book[i]?.bind (·.2)

/-- The names of the members, in the order in which they joined. -/
def names (p : Pool α) : List String := p.crew.map (·.name)

/-- The names of the members that were dismissed. -/
def departed (p : Pool α) : List String :=
  (p.crew.filter (·.dismissed.isSome)).map (·.name)

/-- A member was told to stop. -/
def IsTold (p : Pool α) (i : MemberId) : Prop :=
  ∃ m, p.crew[i]? = some m ∧ m.poller.worker.stop = true

/-- Every member keeps its place and goes on. -/
def Stays (p q : Pool α) : Prop :=
  ∀ ⦃i : MemberId⦄ ⦃m : Member α⦄, p.crew[i]? = some m → ∃ m', q.crew[i]? = some m' ∧ m.Lasts m'

/-- Everybody has a place, and whoever is on the way out was told to stop. -/
structure Roster (p : Pool α) (w : Leaving) : Prop where
  /-- Nobody is in two places. -/
  nodup : (p.active ++ w.map (·.1)).Nodup
  /-- Whoever is not dismissed is active or leaving. -/
  here (i : MemberId) :
    i ∈ p.active ++ w.map (·.1) ↔ i < p.crew.length ∧ p.dismissedAt i = none
  /-- Whoever is waited for was told to stop. -/
  told {i : MemberId} {d : Instant} (hi : (i, some d) ∈ w) : p.IsTold i
  /-- Whoever is dismissed was told to stop. -/
  gone {i : MemberId} (hi : p.dismissedAt i ≠ none) : p.IsTold i

/-- Every name has a number of its own, which was given out. -/
def Numbered (p : Pool α) : Prop :=
  ∃ ns : List Nat, p.names = ns.map p.settings.workerName ∧ ns.Nodup ∧ ∀ n ∈ ns, n < p.nextNumber

variable {now : Instant} {p q r : Pool α} {es : List (PoolEvent α)} {w w' : Leaving} {i : MemberId}
  {m m' : Member α} {name : String}

/-! ## The book -/

theorem length_book : p.book.length = p.crew.length := List.length_map _

theorem getElem?_book (hm : p.crew[i]? = some m) : p.book[i]? = some m.line := by
  rw [book, List.getElem?_map, hm]
  rfl

theorem dismissedAt_eq (hm : p.crew[i]? = some m) : p.dismissedAt i = m.dismissed := by
  rw [dismissedAt, getElem?_book hm]
  rfl

theorem dismissedAt_of_le (hi : p.crew.length ≤ i) : p.dismissedAt i = none := by
  rw [dismissedAt, List.getElem?_eq_none (length_book ▸ hi)]
  rfl

theorem book_requestStop (i : MemberId) : (p.requestStop i).book = p.book :=
  map_crew_modify i fun _ => rfl

theorem book_hired (t : Instant) : (p.hired name t).book = p.book ++ [(name, none)] :=
  List.map_append

theorem book_dismiss :
    (p.dismiss now i).pool.book = p.book.modify i fun line => (line.1, some now) := by
  refine List.ext_getElem? fun j => ?_
  simp only [book, dismiss, modifyMember, List.getElem?_map, List.getElem?_modify]
  split <;> cases p.crew[j]? <;> rfl

/-- Who joins has not been dismissed. -/
theorem dismissedAt_append (joined : List String)
    (hb : q.book = p.book ++ joined.map fun name => (name, none)) (i : MemberId) :
    q.dismissedAt i = p.dismissedAt i := by
  rw [dismissedAt, hb, List.getElem?_append, length_book]
  split
  · rfl
  · next hge =>
      rw [dismissedAt_of_le (Nat.le_of_not_lt hge), List.getElem?_map]
      cases joined[i - p.crew.length]? <;> rfl

theorem names_eq_book : p.names = p.book.map (·.1) := by
  rw [names, book, List.map_map]
  rfl

theorem departed_eq_book : p.departed = (p.book.filter (·.2.isSome)).map (·.1) := by
  rw [departed, book, List.filter_map, List.map_map]
  rfl

theorem dismissedAt_dismiss_self (hi : i < p.crew.length) :
    (p.dismiss now i).pool.dismissedAt i = some now := by
  rw [dismissedAt, book_dismiss, List.getElem?_modify_eq,
    List.getElem?_eq_getElem (length_book.symm ▸ hi)]
  rfl

theorem dismissedAt_dismiss_ne {j : MemberId} (hij : i ≠ j) :
    (p.dismiss now i).pool.dismissedAt j = p.dismissedAt j := by
  rw [dismissedAt, book_dismiss, List.getElem?_modify_ne _ _ hij, dismissedAt]

/-- The line of a member that is dismissed is filled in. -/
theorem book_dismiss_split (hi : i < p.crew.length) (hnone : p.dismissedAt i = none) :
    ∃ name front back, (p.dismiss now i).events = [.destroyed name] ∧
      p.book = front ++ (name, none) :: back ∧
      (p.dismiss now i).pool.book = front ++ (name, some now) :: back := by
  obtain ⟨m, hm⟩ : ∃ m, p.crew[i]? = some m := ⟨_, List.getElem?_eq_getElem hi⟩
  rw [Pool.dismissedAt_eq hm] at hnone
  obtain ⟨front, back, hcrew, hmod⟩ := crew_split hm fun m => { m with dismissed := some now }
  refine ⟨m.name, front.map Member.line, back.map Member.line, ?_, ?_, ?_⟩
  · simp only [dismiss, hm, Option.map_some, Option.getD_some]
  · have hline : m.line = (m.name, none) := by rw [Member.line, hnone]
    rw [book, hcrew, List.map_append, List.map_cons, hline]
  · simp only [book, dismiss, modifyMember, hmod, List.map_append, List.map_cons]
    rfl

/-- Members that go on with the lines that they have leave the book alone. -/
theorem book_eq_of_lasts {crew : List (Member α)} (hl : crew.length = p.crew.length)
    (hc : ∀ (i : MemberId) (m m' : Member α), p.crew[i]? = some m → crew[i]? = some m' →
      m.Lasts m' ∧ m'.dismissed = m.dismissed) :
    crew.map Member.line = p.book := by
  refine List.ext_getElem (by simp [hl, length_book]) fun i hi hi' => ?_
  rw [List.length_map] at hi
  have hold := List.getElem?_eq_getElem (hl ▸ hi)
  obtain ⟨hlasts, hdismissed⟩ := hc i _ _ hold (List.getElem?_eq_getElem hi)
  simp only [book, List.getElem_map, Member.line, hlasts.name, hdismissed]

/-! ## Members go on -/

theorem Stays.of_crew_eq (h : q.crew = p.crew) : Stays p q := fun _ m hm => ⟨m, h ▸ hm, .refl m⟩

theorem Stays.trans (h : Stays p q) (k : Stays q r) : Stays p r := by
  intro i m hm
  obtain ⟨m', hm', hlasts⟩ := h hm
  obtain ⟨m'', hm'', hlasts'⟩ := k hm'
  exact ⟨m'', hm'', hlasts.trans hlasts'⟩

theorem Stays.modify {f : Member α → Member α} (i : MemberId) (hf : ∀ m : Member α, m.Lasts (f m)) :
    Stays p (p.modifyMember i f) := by
  intro j m hm
  simp only [modifyMember, List.getElem?_modify, hm]
  split
  · exact ⟨_, rfl, hf m⟩
  · exact ⟨_, rfl, .refl m⟩

theorem Stays.hired (p : Pool α) (name : String) (t : Instant) : Stays p (p.hired name t) :=
  fun _ m hm =>
    ⟨m, (List.getElem?_append_left (List.getElem?_eq_some_iff.mp hm).1).trans hm, .refl m⟩

theorem IsTold.stays (hi : p.IsTold i) (h : Stays p q) : q.IsTold i := by
  obtain ⟨m, hm, hstop⟩ := hi
  obtain ⟨m', hm', hlasts⟩ := h hm
  exact ⟨m', hm', hlasts.told hstop⟩

/-- With every change, every member keeps its place and goes on. -/
theorem Passage.stays (h : Passage now p w es q w') : Stays p q := by
  cases h with
  | join => exact .hired p _ now
  | refuse | leave | retire | sort => exact .of_crew_eq rfl
  | tell => exact .modify _ .requestStop
  | dismiss => exact .modify _ fun m => ⟨rfl, rfl, id, id⟩
  | act crew bench hl hc =>
      intro i m hm
      have hi := (List.getElem?_eq_some_iff.mp hm).1
      have hm' := List.getElem?_eq_getElem (hl ▸ hi)
      exact ⟨_, hm', (hc i _ _ hm hm').1⟩
  | aside hs hc => exact .of_crew_eq hc

theorem Passage.settings_eq (h : Passage now p w es q w') : q.settings = p.settings := by
  cases h with
  | aside hs => exact hs
  | join | refuse | leave | tell | retire | dismiss | sort | act => rfl

/-- A change dismisses one of those who are waited for, or it enters those who join. -/
theorem Passage.book_eq (h : Passage now p w es q w') :
    (q.book = p.book ++ (createdIn es).map (fun name => (name, none)) ∧ destroyedIn es = []) ∨
      ∃ i d, w = (i, some d) :: w' ∧ p.stopWait i d now ≠ none ∧ q = (p.dismiss now i).pool ∧
        es = (p.dismiss now i).events := by
  have hkept {q : Pool α} (hq : q.book = p.book)
      (hes : ∀ e ∈ es, e.created? = none ∧ e.destroyed? = none) :
      q.book = p.book ++ (createdIn es).map (fun name => (name, none)) ∧ destroyedIn es = [] := by
    have hcreated : createdIn es = [] := List.filterMap_eq_nil_iff.mpr fun e he => (hes e he).1
    exact ⟨by simp [hcreated, hq], List.filterMap_eq_nil_iff.mpr fun e he => (hes e he).2⟩
  cases h with
  | join => exact .inl ⟨book_hired now, rfl⟩
  | refuse => exact .inl ⟨(List.append_nil _).symm, rfl⟩
  | leave | retire | sort => exact .inl (hkept rfl (List.forall_mem_nil _))
  | tell => exact .inl (hkept (book_requestStop _) (List.forall_mem_nil _))
  | dismiss hover => exact .inr ⟨_, _, rfl, hover, rfl, rfl⟩
  | act crew bench hl hc hes => exact .inl (hkept (book_eq_of_lasts hl hc) hes)
  | aside hs hc ha hn hes => exact .inl (hkept (congrArg (List.map _) hc) hes)

/-! ## The roster -/

namespace Roster

theorem lt_length (hr : Roster p w) (hi : i ∈ p.active ++ w.map (·.1)) : i < p.crew.length :=
  ((hr.here i).mp hi).1

theorem dismissedAt_eq (hr : Roster p w) (hi : i ∈ p.active ++ w.map (·.1)) :
    p.dismissedAt i = none := ((hr.here i).mp hi).2

/-- Members change their places, but none comes or goes. -/
theorem moved (hr : Roster p w) (hs : Stays p q) (hb : q.book = p.book)
    (hp : (p.active ++ w.map (·.1)).Perm (q.active ++ w'.map (·.1)))
    (ht : ∀ i d, (i, some d) ∈ w' → (i, some d) ∈ w ∨ q.IsTold i) : Roster q w' where
  nodup := hp.nodup_iff.mp hr.nodup
  here i := by
    rw [← hp.mem_iff, hr.here i, dismissedAt, dismissedAt, hb, ← length_book, ← length_book, hb]
  told hi := (ht _ _ hi).elim (fun hi => (hr.told hi).stays hs) id
  gone hi := by
    rw [dismissedAt, hb] at hi
    exact (hr.gone hi).stays hs

theorem joined (hr : Roster p w) : Roster (p.hired name now) w where
  nodup := by
    have hnew : p.crew.length ∉ p.active ++ w.map (·.1) := fun hi =>
      Nat.lt_irrefl _ (hr.lt_length hi)
    have hperm : (p.active ++ [p.crew.length] ++ w.map (·.1)).Perm
        (p.crew.length :: (p.active ++ w.map (·.1))) := by
      rw [List.append_assoc]
      exact List.perm_middle
    exact hperm.nodup_iff.mpr (List.nodup_cons.mpr ⟨hnew, hr.nodup⟩)
  here i := by
    have hmem : i ∈ (p.hired name now).active ++ w.map (·.1) ↔
        i ∈ p.active ++ w.map (·.1) ∨ i = p.crew.length := by
      simp only [Pool.hired, List.mem_append, List.mem_singleton]
      tauto
    rw [hmem, hr.here i, dismissedAt_append [name] (book_hired now)]
    show _ ↔ i < (p.crew ++ [_]).length ∧ _
    rw [List.length_append, List.length_singleton, Nat.lt_succ_iff_lt_or_eq]
    have hnew : i = p.crew.length → p.dismissedAt i = none := fun hi =>
      dismissedAt_of_le (Nat.le_of_eq hi.symm)
    tauto
  told hi := (hr.told hi).stays (.hired p name now)
  gone hi := by
    rw [dismissedAt_append [name] (book_hired now)] at hi
    exact (hr.gone hi).stays (.hired p name now)

theorem dismissed {d : Instant} (hr : Roster p ((i, some d) :: w)) :
    Roster (p.dismiss now i).pool w := by
  have hperm : (p.active ++ ((i, some d) :: w).map (·.1)).Perm (i :: (p.active ++ w.map (·.1))) :=
    List.perm_middle
  obtain ⟨hnotin, hnodup⟩ := List.nodup_cons.mp (hperm.nodup_iff.mp hr.nodup)
  have hi : i < p.crew.length := hr.lt_length (hperm.mem_iff.mpr List.mem_cons_self)
  have hstays : Stays p (p.dismiss now i).pool := .modify _ fun m => ⟨rfl, rfl, id, id⟩
  refine ⟨hnodup, fun j => ?_, fun hj => (hr.told (List.mem_cons_of_mem _ hj)).stays hstays,
    fun {j} hj => ?_⟩
  · by_cases hij : i = j
    · subst hij
      rw [dismissedAt_dismiss_self hi]
      exact iff_of_false hnotin (by simp)
    · have hold := hr.here j
      rw [hperm.mem_iff, List.mem_cons, or_iff_right (Ne.symm hij)] at hold
      rw [dismissedAt_dismiss_ne hij]
      show j ∈ p.active ++ w.map (·.1) ↔ j < (p.crew.modify i _).length ∧ _
      rw [List.length_modify]
      exact hold
  · by_cases hij : i = j
    · subst hij
      exact (hr.told List.mem_cons_self).stays hstays
    · rw [dismissedAt_dismiss_ne hij] at hj
      exact (hr.gone hj).stays hstays

end Roster

/-- With every change, everybody has a place. -/
theorem Passage.roster (hr : Roster p w) (h : Passage now p w es q w') : Roster q w' := by
  cases h with
  | join => exact hr.joined
  | refuse => exact hr.moved (.of_crew_eq rfl) rfl (.refl _) fun _ _ hi => .inl hi
  | leave stay gone hp =>
      have hgone :
          (gone.map fun i => ((i, none) : MemberId × Option Instant)).map (·.1) = gone := by
        rw [List.map_map]
        exact List.map_id _
      refine hr.moved (.of_crew_eq rfl) rfl ?_ fun i d hi => .inl ?_
      · rw [List.map_append, hgone, ← List.append_assoc]
        exact hp.append_right _
      · cases List.mem_append.mp hi with
        | inl hi =>
            obtain ⟨j, -, he⟩ := List.mem_map.mp hi
            cases he
        | inr hi => exact hi
  | tell =>
      exact hr.moved (.modify _ .requestStop) (book_requestStop _) (.refl _) fun _ _ hi => .inl hi
  | @retire w i told =>
      have hi : i < p.crew.length := hr.lt_length (List.mem_append_right _ List.mem_cons_self)
      have hmember := List.getElem?_eq_getElem hi
      refine hr.moved (.of_crew_eq rfl) rfl (.refl _) fun j d hj => ?_
      cases hj with
      | head => exact .inr ⟨_, hmember, told _ hmember⟩
      | tail _ hj => exact .inl (List.mem_cons_of_mem _ hj)
  | dismiss hover => exact hr.dismissed
  | sort hw =>
      exact hr.moved (.of_crew_eq rfl) rfl ((hw.map _).append_left _) fun _ _ hi =>
        .inl (hw.mem_iff.mpr hi)
  | act crew bench hl hc hes =>
      have hacts : Passage now p w es { p with crew, bench } w := .act crew bench hl hc hes
      exact hr.moved hacts.stays (book_eq_of_lasts hl hc) (.refl _) fun _ _ hi => .inl hi
  | aside hs hc ha =>
      exact hr.moved (.of_crew_eq hc) (congrArg (List.map _) hc) (ha ▸ .refl _) fun _ _ hi =>
        .inl hi

/-! ## One action -/

/-- A member has stopped. -/
def IsStopped (p : Pool α) (i : MemberId) : Prop := ∃ m, p.crew[i]? = some m ∧ m.phase = .stopped

/-- The wait for the stop of a member is over: one that goes on, or one that begins now. -/
def IsOver (now : Instant) (p : Pool α) (w : Leaving) (i : MemberId) : Prop :=
  ∃ d ≤ now, (i, some d) ∈ w ∨ d = p.patience now

theorem IsStopped.stays (hi : p.IsStopped i) (h : Stays p q) : q.IsStopped i := by
  obtain ⟨m, hm, hphase⟩ := hi
  obtain ⟨m', hm', hlasts⟩ := h hm
  exact ⟨m', hm', hlasts.stopped hphase⟩

theorem Stays.length_le (h : Stays p q) : p.crew.length ≤ q.crew.length := by
  refine Nat.le_of_not_lt fun hlt => ?_
  obtain ⟨m', hm', -⟩ := h (List.getElem?_eq_getElem hlt)
  exact Nat.lt_irrefl _ (List.getElem?_eq_some_iff.mp hm').1

theorem isStopped_or_le {d : Instant} (hi : i < p.crew.length) (hs : p.stopWait i d now ≠ none) :
    p.IsStopped i ∨ d ≤ now := by
  have hm := List.getElem?_eq_getElem hi
  simp only [stopWait, hm, Worker.stopWait] at hs
  split at hs
  · next hp => exact .inl ⟨_, hm, hp⟩
  · split at hs
    · next hd => exact .inr hd
    · exact absurd rfl hs

namespace Passage

/-- Whoever is waited for was waited for before, or is from now on. -/
theorem deadlines (h : Passage now p w es q w') {d : Instant} (hi : (i, some d) ∈ w') :
    (i, some d) ∈ w ∨ d = p.patience now := by
  cases h with
  | join | refuse | tell | act | aside => exact .inl hi
  | leave stay gone hp =>
      cases List.mem_append.mp hi with
      | inl hi =>
          obtain ⟨j, -, he⟩ := List.mem_map.mp hi
          cases he
      | inr hi => exact .inl hi
  | retire told =>
      cases hi with
      | head => exact .inr rfl
      | tail _ hi => exact .inl (List.mem_cons_of_mem _ hi)
  | dismiss hover => exact .inl (List.mem_cons_of_mem _ hi)
  | sort hw => exact .inl (hw.mem_iff.mpr hi)

/-- Only who joins becomes active. -/
theorem active (h : Passage now p w es q w') (hi : i ∈ q.active) :
    i ∈ p.active ∨ p.crew.length ≤ i := by
  cases h with
  | join =>
      refine (List.mem_append.mp hi).imp_right fun hi => ?_
      exact Nat.le_of_eq (List.mem_singleton.mp hi).symm
  | leave stay gone hp => exact .inl (hp.mem_iff.mpr (List.mem_append_left _ hi))
  | aside hs hc ha => exact .inl (ha ▸ hi)
  | refuse | tell | retire | dismiss | sort | act => exact .inl hi

theorem joined (h : Passage now p w es q w') (hm : q.crew[i]? = some m) (hi : p.crew.length ≤ i) :
    m.joined = now := by
  have hlt := (List.getElem?_eq_some_iff.mp hm).1
  cases h with
  | join =>
      rw [hired, List.getElem?_append_right hi, List.getElem?_singleton] at hm
      split at hm <;> cases hm
      rfl
  | refuse | leave | retire | sort => exact absurd hlt (Nat.not_lt.mpr hi)
  | tell | dismiss => exact absurd (List.length_modify _ _ _ ▸ hlt) (Nat.not_lt.mpr hi)
  | act crew bench hl => exact absurd (hl ▸ hlt) (Nat.not_lt.mpr hi)
  | aside hs hc => exact absurd (hc ▸ hlt) (Nat.not_lt.mpr hi)

/-- A change either enters those who join, or fills in the line of one that is dismissed. -/
theorem entries (hr : Roster p w) (h : Passage now p w es q w') :
    (q.book = p.book ++ (createdIn es).map (fun name => (name, none)) ∧ destroyedIn es = []) ∨
      ∃ name front back, es = [.destroyed name] ∧ p.book = front ++ (name, none) :: back ∧
        q.book = front ++ (name, some now) :: back := by
  obtain hkept | ⟨i, d, rfl, hover, rfl, rfl⟩ := h.book_eq
  · exact .inl hkept
  · have hi : i ∈ p.active ++ ((i, some d) :: w').map (·.1) :=
      List.mem_append_right _ List.mem_cons_self
    exact .inr (book_dismiss_split (hr.lt_length hi) (hr.dismissedAt_eq hi))

/-- The factory's handlers are the members, in the order in which they join. -/
theorem names_eq (h : Passage now p w es q w') : q.names = p.names ++ createdIn es := by
  obtain ⟨hbook, -⟩ | ⟨i, d, rfl, hover, rfl, rfl⟩ := h.book_eq
  · rw [names_eq_book, hbook, List.map_append, List.map_map, ← names_eq_book]
    exact congrArg (p.names ++ ·) (List.map_id _)
  · have hsame : (p.dismiss now i).pool.names = p.names := map_crew_modify i fun _ => rfl
    exact hsame.trans (List.append_nil _).symm

/-- The factory lets go of those who are dismissed. -/
theorem departed_perm (hr : Roster p w) (h : Passage now p w es q w') :
    q.departed.Perm (p.departed ++ destroyedIn es) := by
  rw [departed_eq_book, departed_eq_book]
  obtain ⟨hbook, hnone⟩ | ⟨name, front, back, rfl, hp, hq⟩ := h.entries hr
  · have hfresh : ((createdIn es).map fun name => (name, (none : Option Instant))).filter
        (·.2.isSome) = [] := by simp
    rw [hbook, List.filter_append, hfresh, hnone, List.append_nil, List.append_nil]
  · have hgone : destroyedIn [(.destroyed name : PoolEvent α)] = [name] := rfl
    rw [hp, hq, hgone]
    simp only [List.filter_append, List.map_append, List.filter_cons, Option.isSome_some,
      Option.isSome_none, if_true, Bool.false_eq_true, if_false, List.map_cons]
    exact List.perm_middle.trans (List.perm_append_singleton _ _).symm

/-- Nobody is dismissed but one that is waited for, and that for a reason. -/
theorem dismissedAt (hr : Roster p w) (h : Passage now p w es q w') (i : MemberId) :
    q.dismissedAt i = p.dismissedAt i ∨ p.dismissedAt i = none ∧ q.dismissedAt i = some now ∧
      (q.IsStopped i ∨ ∃ d ≤ now, (i, some d) ∈ w) := by
  obtain ⟨hbook, -⟩ | ⟨j, d, rfl, hover, rfl, rfl⟩ := h.book_eq
  · exact .inl (dismissedAt_append _ hbook i)
  · have hj : j ∈ p.active ++ ((j, some d) :: w').map (·.1) :=
      List.mem_append_right _ List.mem_cons_self
    by_cases hij : j = i
    · subst hij
      refine .inr ⟨hr.dismissedAt_eq hj, dismissedAt_dismiss_self (hr.lt_length hj), ?_⟩
      refine (isStopped_or_le (hr.lt_length hj) hover).imp (·.stays h.stays) fun hd => ?_
      exact ⟨d, hd, List.mem_cons_self⟩
    · exact .inl (dismissedAt_dismiss_ne hij)

/-- Every name has a number of its own after every change. -/
theorem numbered (hn : Numbered p) (h : Passage now p w es q w') : Numbered q := by
  obtain ⟨ns, hnames, hnodup, hlt⟩ := hn
  have hadded := h.names_eq
  have hkept (hq : q.nextNumber = p.nextNumber) (hnone : createdIn es = []) : Numbered q := by
    refine ⟨ns, ?_, hnodup, hq ▸ hlt⟩
    rw [hadded, hnone, List.append_nil, hnames, h.settings_eq]
  cases h with
  | join =>
      have hnew : p.nextNumber ∉ ns := fun hmem => Nat.lt_irrefl _ (hlt _ hmem)
      refine ⟨ns ++ [p.nextNumber], ?_, ?_, fun n hn => ?_⟩
      · rw [hadded, hnames, List.map_append]
        rfl
      · exact (List.perm_append_singleton _ _).nodup_iff.mpr (List.nodup_cons.mpr ⟨hnew, hnodup⟩)
      · cases List.mem_append.mp hn with
        | inl hn => exact Nat.lt_succ_of_lt (hlt n hn)
        | inr hn => exact List.mem_singleton.mp hn ▸ Nat.lt_succ_self _
  | refuse => exact ⟨ns, hnames, hnodup, fun n hn => Nat.lt_succ_of_lt (hlt n hn)⟩
  | leave | tell | retire | dismiss | sort => exact hkept rfl rfl
  | act crew bench hl hc hes =>
      exact hkept rfl (List.filterMap_eq_nil_iff.mpr fun e he => (hes e he).1)
  | aside hs hc ha hnext hes =>
      exact hkept hnext (List.filterMap_eq_nil_iff.mpr fun e he => (hes e he).1)

end Passage

namespace Turnover

theorem stays (h : Turnover now p w es q w') : Stays p q := by
  induction h with
  | refl => exact .of_crew_eq rfl
  | tail _ hp ih => exact ih.trans hp.stays

theorem settings_eq (h : Turnover now p w es q w') : q.settings = p.settings := by
  induction h with
  | refl => rfl
  | tail _ hp ih => exact hp.settings_eq.trans ih

theorem roster (hr : Roster p w) (h : Turnover now p w es q w') : Roster q w' := by
  induction h with
  | refl => exact hr
  | tail _ hp ih => exact hp.roster ih

theorem deadlines (h : Turnover now p w es q w') {d : Instant} (hi : (i, some d) ∈ w') :
    (i, some d) ∈ w ∨ d = p.patience now := by
  induction h with
  | refl => exact .inl hi
  | tail h hp ih =>
      cases hp.deadlines hi with
      | inl hi => exact ih hi
      | inr hd => exact .inr (hd.trans (by rw [patience, h.settings_eq, patience]))

theorem active (h : Turnover now p w es q w') (hi : i ∈ q.active) :
    i ∈ p.active ∨ p.crew.length ≤ i := by
  induction h with
  | refl => exact .inl hi
  | tail h hp ih =>
      exact (hp.active hi).elim ih fun hle => .inr (Nat.le_trans h.stays.length_le hle)

theorem joined (h : Turnover now p w es q w') (hm : q.crew[i]? = some m) (hi : p.crew.length ≤ i) :
    m.joined = now := by
  induction h generalizing m with
  | refl => exact absurd (List.getElem?_eq_some_iff.mp hm).1 (Nat.not_lt.mpr hi)
  | @tail es fs q r w' w'' h hp ih =>
      cases hq : q.crew[i]? with
      | none => exact hp.joined hm (List.getElem?_eq_none_iff.mp hq)
      | some m' =>
          obtain ⟨m'', hm'', hlasts⟩ := hp.stays hq
          rw [hm] at hm''
          cases hm''
          exact hlasts.joined.trans (ih hq)

theorem names_eq (h : Turnover now p w es q w') : q.names = p.names ++ createdIn es := by
  induction h with
  | refl => exact (List.append_nil _).symm
  | tail _ hp ih => rw [hp.names_eq, ih, createdIn_append, List.append_assoc]

theorem departed_perm (hr : Roster p w) (h : Turnover now p w es q w') :
    q.departed.Perm (p.departed ++ destroyedIn es) := by
  induction h with
  | refl => exact .of_eq (List.append_nil _).symm
  | tail h hp ih =>
      rw [destroyedIn_append, ← List.append_assoc]
      exact (hp.departed_perm (h.roster hr)).trans (ih.append_right _)

/-- Whoever an action dismisses has stopped, or the wait for it is over. -/
theorem dismissedAt (hr : Roster p w) (h : Turnover now p w es q w') (i : MemberId) :
    q.dismissedAt i = p.dismissedAt i ∨
      p.dismissedAt i = none ∧ q.dismissedAt i = some now ∧ (q.IsStopped i ∨ IsOver now p w i) := by
  induction h with
  | refl => exact .inl rfl
  | tail h hp ih =>
      rcases hp.dismissedAt (h.roster hr) i with hsame | ⟨hnone, hnow, hover⟩
      · rw [hsame]
        exact ih.imp_right fun ⟨hnone, hnow, hover⟩ =>
          ⟨hnone, hnow, hover.imp_left (·.stays hp.stays)⟩
      · rcases ih with hsame | ⟨-, hgone, -⟩
        · refine .inr ⟨hsame ▸ hnone, hnow, hover.imp_right ?_⟩
          rintro ⟨d, hd, hi⟩
          exact ⟨d, hd, h.deadlines hi⟩
        · rw [hgone] at hnone
          cases hnone

theorem numbered (hn : Numbered p) (h : Turnover now p w es q w') : Numbered q := by
  induction h with
  | refl => exact hn
  | tail _ hp ih => exact hp.numbered ih

end Turnover

/-! ## Along a run -/

section Run

variable {R : Regime α} {env : Surroundings α} {t₀ t u : Instant} {s : PoolSettings}
  {h k : History α} {a : Action α} {o : PoolOutcome α}

/-- The next action of a run, as a sequence of changes. -/
theorem Run.turnover (run : Run R t₀ (ofSettings s) h t p) (hs : p.step env t a = some o) :
    Turnover t p p.leaving o.events o.pool o.pool.leaving :=
  (step_deed hs).turnover run.docket run.ends run.sound

theorem Roster.first (s : PoolSettings) : Roster (ofSettings s : Pool α) [] where
  nodup := .nil
  here _ := iff_of_false List.not_mem_nil fun hi => Nat.not_lt_zero _ hi.1
  told hi := absurd hi List.not_mem_nil
  gone hi := absurd rfl hi

/-- All along a run everybody has a place. -/
theorem Run.roster (run : Run R t₀ (ofSettings s) h t p) : Roster p p.leaving := by
  induction run with
  | here => exact .first s
  | act run _ hs ih => exact (run.turnover hs).roster ih
  | pass _ _ ih => exact ih

/-- The names are known from what could be seen. -/
theorem Run.names_eq (run : Run R t₀ (ofSettings s) h t p) : p.names = createdIn h.events := by
  induction run with
  | here => rfl
  | act run _ hs ih =>
      rw [(run.turnover hs).names_eq, ih, History.events_append, createdIn_append]
      rfl
  | pass _ _ ih => exact ih

/-- Who was dismissed is known from what could be seen. -/
theorem Run.departed_perm (run : Run R t₀ (ofSettings s) h t p) :
    p.departed.Perm (destroyedIn h.events) := by
  induction run with
  | here => exact .refl _
  | act run _ hs ih =>
      rw [History.events_append, destroyedIn_append]
      exact ((run.turnover hs).departed_perm run.roster).trans (ih.append_right _)
  | pass _ _ ih => exact ih

theorem Run.numbered (run : Run R t₀ (ofSettings s) h t p) : Numbered p := by
  induction run with
  | here => exact ⟨[], rfl, .nil, List.forall_mem_nil _⟩
  | act run _ hs ih => exact (run.turnover hs).numbered ih
  | pass _ _ ih => exact ih

/-- No two members have the same name. -/
theorem Run.nodup_names (run : Run R t₀ (ofSettings s) h t p) : p.names.Nodup := by
  obtain ⟨ns, hnames, hnodup, -⟩ := run.numbered
  exact hnames ▸ hnodup.map p.settings.workerName_injective

end Run

end Pool

end Backpressure
