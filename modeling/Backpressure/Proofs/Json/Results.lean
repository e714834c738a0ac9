import Backpressure.Proofs.Json.Reals

/-!
# What readers give

A statement about whatever a reader gives, whichever text it is given (`Reader.Gives`), is put
together along the reader: a fault gives nothing, and what one step gives is known to the next one.

Numbers that are read fit into 64 bits or are finite doubles (`Reader.gives_number`).  A record
keeps what each of its fields keeps (`gives_readRecord`): this holds for objects with any members
in any order as well as for arrays.
-/

namespace Backpressure.Json

open Decimal

namespace Reader

variable {α β : Type}

/-- Whatever a reader gives is of this kind. -/
def Gives (r : Reader α) (P : α → Prop) : Prop :=
  ∀ ⦃cs : List Char⦄ ⦃a : α⦄ ⦃rest : List Char⦄, r cs = .ok (a, rest) → P a

section Gives

variable {r : Reader α} {k : α → Reader β} {P : α → Prop} {Q : β → Prop}

theorem gives_pure {a : α} (h : P a) : Gives (pure a) P := by
  rintro cs a' rest ⟨⟩
  exact h

/-- A fault gives nothing, so nothing has to be shown of it. -/
theorem gives_fault (f : Fault) : Gives (fault f) P := by
  rintro cs a rest ⟨⟩

/-- What the first step gives is known to the second. -/
theorem gives_bind (hr : Gives r P) (hk : ∀ a, P a → Gives (k a) Q) : Gives (r >>= k) Q := by
  intro cs b rest h
  simp only [bind, StateT.bind, Except.bind] at h
  split at h
  · cases h
  · next result hresult => exact hk _ (hr hresult) h

/-- Of a step that only has to succeed nothing need be known. -/
theorem gives_next (hk : ∀ a, Gives (k a) Q) : Gives (r >>= k) Q :=
  gives_bind (fun _ _ _ _ => trivial) fun a (_ : True) => hk a

theorem gives_map {f : α → β} (hr : Gives r fun a => Q (f a)) : Gives (f <$> r) Q := by
  rw [← bind_pure_comp]
  exact gives_bind hr fun a ha => gives_pure ha

/-- A whole text is read by a reader and the end of the text, so what it gives is of the same kind.
-/
theorem Gives.run {text : String} {a : α} (hr : Gives r P) (h : run r text = .ok a) : P a := by
  have hwhole : Gives (do let a ← r; finish; pure a) P :=
    gives_bind hr fun a ha => gives_next fun _ => gives_pure ha
  unfold Reader.run at h
  split at h
  · cases h
  · next b rest hb =>
      cases h
      exact hwhole hb

end Gives

/-! ## Numbers -/

/-- Digits are gathered only as long as the significand fits into 64 bits. -/
theorem gather_lt {significand : ℕ} (taken : ℕ) (ds : List Char) (h : significand < 2 ^ 64) :
    (gather significand taken ds).1 < 2 ^ 64 := by
  induction ds generalizing significand taken with
  | nil => exact h
  | cons c ds ih =>
      unfold gather
      simp only []
      split
      · next hfits => exact ih _ hfits
      · exact h

/-- Whole numbers fit into 64 bits, apart from their sign, and real numbers are finite. -/
def Numeral.InRange : Numeral → Prop
  | .natural n => n < 2 ^ 64
  | .negative n => n.natAbs < 2 ^ 64
  | .real x => Bounded (parts x)

variable (positive : Bool) {significand : ℕ} (scale : ℤ)

/-- A real that would be infinite is a fault. -/
theorem gives_realOf (h : significand < 2 ^ 64) :
    Gives (realOf positive significand scale) fun x => Bounded (parts x) := by
  rcases realOf_cases positive scale h with hfault | ⟨x, hx, hpure⟩
  · rw [hfault]
    exact gives_fault _
  · rw [hpure]
    exact gives_pure hx

theorem bounded_zero : Bounded (parts 0.0) := by
  rw [show (0.0 : Float) = Float.ofNat 0 by decide +kernel]
  exact bounded_nat (by decide)

/-- An exponent out of range is a zero or a fault. -/
theorem gives_powerDigits (upward : Bool) (h : significand < 2 ^ 64) :
    Gives (powerDigits positive significand scale upward) fun x => Bounded (parts x) := by
  unfold powerDigits
  refine gives_next fun cs => ?_
  split
  · exact gives_fault _
  refine gives_next fun _ => ?_
  split
  · exact gives_fault _
  simp only []
  split
  · split
    · exact gives_fault _
    · exact gives_pure (bounded_signed positive bounded_zero)
  split
  · exact gives_realOf positive _ h
  · exact gives_realOf positive _ h

theorem gives_powerOfTen (h : significand < 2 ^ 64) :
    Gives (powerOfTen positive significand scale) fun x => Bounded (parts x) := by
  have hdigits := fun upward => gives_powerDigits positive scale upward h
  unfold powerOfTen
  refine gives_next fun _ => gives_next fun sign => ?_
  simp only []
  split
  · exact gives_next fun _ => gives_next hdigits
  · exact gives_next fun _ => gives_next hdigits
  · exact gives_next hdigits

/-- The digits of a fraction go on with the significand. -/
theorem gives_fraction (h : significand < 2 ^ 64) :
    Gives (fraction positive significand scale) fun x => Bounded (parts x) := by
  unfold fraction
  refine gives_next fun _ => gives_next fun cs => ?_
  simp only []
  refine gives_next fun _ => ?_
  split
  · split <;> exact gives_fault _
  have hfits := gather_lt 0 (spanDigits cs).1 h
  refine gives_next fun _ => ?_
  split
  · exact gives_powerOfTen positive _ hfits
  · exact gives_powerOfTen positive _ hfits
  · exact gives_realOf positive _ hfits

/-- The numbers that a document gives fit into 64 bits or are finite. -/
theorem gives_number : Gives (number positive) Numeral.InRange := by
  unfold number
  refine gives_next fun cs => ?_
  split
  · exact gives_fault _
  next c tail =>
  split
  · exact gives_fault _
  simp only []
  split
  · exact gives_fault _
  refine gives_next fun _ => gives_next fun _ => ?_
  have hfits : (gather 0 0 (spanDigits (c :: tail)).1).1 < 2 ^ 64 :=
    gather_lt 0 _ (by decide)
  split
  · exact gives_map (gives_fraction positive _ hfits)
  · exact gives_map (gives_powerOfTen positive _ hfits)
  · exact gives_map (gives_powerOfTen positive _ hfits)
  · split
    · exact gives_map (gives_realOf positive _ hfits)
    split
    · exact gives_pure hfits
    split
    · exact gives_pure (bounded_neg (bounded_nat hfits))
    · exact gives_pure (by rw [Numeral.InRange, Int.natAbs_neg]; exact hfits)

theorem gives_wrongKind {P : α → Prop} : Gives wrongKind P := by
  unfold wrongKind
  refine gives_next fun c => ?_
  split
  case h_1 => exact gives_fault _
  case h_7 => exact gives_fault _
  case h_8 => exact gives_fault _
  case h_9 c =>
    split
    · exact gives_next fun _ => gives_fault _
    · exact gives_fault _
  all_goals exact gives_next fun _ => gives_next fun _ => gives_fault _

theorem gives_numeral : Gives numeral Numeral.InRange := by
  unfold numeral
  refine gives_next fun c => ?_
  split
  · exact gives_next fun _ => gives_number false
  · split
    · exact gives_number true
    · exact gives_wrongKind
  · exact gives_fault _

/-- Whatever is read into a word fits into it. -/
theorem gives_natural (bound : ℕ) : Gives (natural bound) (· < bound) := by
  unfold natural
  refine gives_next fun v => ?_
  split
  · split
    · next h => exact gives_pure h
    · exact gives_fault _
  · exact gives_fault _
  · exact gives_fault _

theorem bounded_int {n : ℤ} (hn : n.natAbs < 2 ^ 64) : Bounded (parts (Float.ofInt n)) := by
  cases n with
  | ofNat n => exact bounded_nat hn
  | negSucc n => exact bounded_neg (bounded_nat hn)

/-- A real is read from any number, also from one without a fraction, and is finite. -/
theorem gives_realNumber : Gives realNumber fun x => Bounded (parts x) := by
  unfold realNumber
  refine gives_bind gives_numeral fun v hv => ?_
  cases v with
  | natural n => exact gives_pure (bounded_nat hv)
  | negative n => exact gives_pure (bounded_int hv)
  | real x => exact gives_pure hv

end Reader

/-! ## Records -/

section Records

variable {σ : Type} {Inv : σ → Prop} {fields : List (Field σ)}

/-- Reading into a field keeps what is known of a record. -/
def Field.Keeps (f : Field σ) (Inv : σ → Prop) : Prop :=
  ∀ ⦃s : σ⦄, Inv s → (f.read s).Gives Inv

/-- The members of an object may come in any order, and some may be left out or passed over. -/
theorem gives_readMembers (hfields : ∀ f ∈ fields, f.Keeps Inv) (budget : ℕ) (seen : List String)
    {s : σ} (hs : Inv s) : (readMembers fields budget seen s).Gives fun result => Inv result.2 := by
  induction budget generalizing seen s with
  | zero => exact Reader.gives_fault _
  | succ budget ih =>
      unfold readMembers
      refine Reader.gives_next fun c => ?_
      split
      · exact Reader.gives_fault _
      · refine Reader.gives_next fun _ => Reader.gives_next fun key => ?_
        extract_lets follow
        -- the member is passed over or goes into its field; what follows is read in both cases
        have hfollow : ∀ result : List String × σ, Inv result.2 →
            (follow result).Gives fun result => Inv result.2 := by
          rintro ⟨seen, s⟩ hs
          refine Reader.gives_next fun c => ?_
          split
          · exact Reader.gives_fault _
          · exact Reader.gives_next fun _ => ih _ hs
          · exact Reader.gives_next fun _ => Reader.gives_pure hs
          · exact Reader.gives_fault _
        split
        · refine Reader.gives_next fun _ => Reader.gives_next fun _ => ?_
          exact Reader.gives_bind (Reader.gives_pure hs) hfollow
        · next f hf =>
            split
            · exact Reader.gives_fault _
            · refine Reader.gives_next fun _ => ?_
              refine Reader.gives_bind (hfields f (List.mem_of_find?_eq_some hf) hs) fun s hs => ?_
              exact Reader.gives_bind (Reader.gives_pure hs) hfollow
      · exact Reader.gives_fault _

/-- The items of an array go into the fields one after the other, until either of them end. -/
theorem gives_readItems (hfields : ∀ f ∈ fields, f.Keeps Inv) (first : Bool) {s : σ}
    (hs : Inv s) : (readItems fields first s).Gives fun result => Inv result.2 := by
  induction fields generalizing first s with
  | nil => exact Reader.gives_pure hs
  | cons f rest ih =>
      have hread : Reader.Gives (do
          let s ← f.read s
          readItems rest false s) fun result => Inv result.2 :=
        Reader.gives_bind (hfields f List.mem_cons_self hs) fun s hs =>
          ih (fun g hg => hfields g (List.mem_cons_of_mem _ hg)) false hs
      unfold readItems
      refine Reader.gives_next fun c => ?_
      split
      · exact Reader.gives_fault _
      · exact Reader.gives_pure hs
      split
      · exact hread
      split
      · refine Reader.gives_next fun _ => Reader.gives_next fun c => ?_
        split
        · exact Reader.gives_fault _
        · exact Reader.gives_fault _
        · exact hread
      · exact Reader.gives_fault _

/-- What every field keeps is kept by the whole record. -/
theorem gives_readRecord (hfields : ∀ f ∈ fields, f.Keeps Inv) (required : Bool) {start : σ}
    (hs : Inv start) : (readRecord fields required start).Gives Inv := by
  unfold readRecord
  refine Reader.gives_next fun c => ?_
  split
  · exact Reader.gives_fault _
  · refine Reader.gives_next fun _ => Reader.gives_bind (gives_readItems hfields true hs) ?_
    rintro ⟨left, s⟩ hresult
    simp only []
    split
    · exact Reader.gives_fault _
    refine Reader.gives_next fun c => ?_
    split
    · exact Reader.gives_fault _
    · exact Reader.gives_next fun _ => Reader.gives_pure hresult
    · exact Reader.gives_fault _
  · have hlast : ∀ result : List String × σ, Inv result.2 →
        Reader.Gives (if required && fields.any (fun f => !result.1.contains f.key)
          then Reader.fault .mismatched else pure result.2) Inv := by
      intro result hresult
      split
      · exact Reader.gives_fault _
      · exact Reader.gives_pure hresult
    refine Reader.gives_next fun _ => Reader.gives_next fun c => ?_
    split
    · exact Reader.gives_next fun _ => hlast ([], start) hs
    · refine Reader.gives_next fun cs => ?_
      exact Reader.gives_bind (gives_readMembers hfields _ _ hs) hlast
  · exact Reader.gives_wrongKind

/-! ## Fields -/

namespace Field

variable {key : String}

theorem text_keeps {get : σ → String} {put : σ → String → σ}
    (h : ∀ s t, Inv s → Inv (put s t)) : (Field.text key get put).Keeps Inv :=
  fun s hs => Reader.gives_next fun t => Reader.gives_pure (h s t hs)

theorem optionalText_keeps {get : σ → Option String} {put : σ → Option String → σ}
    (h : ∀ s t, Inv s → Inv (put s t)) : (Field.optionalText key get put).Keeps Inv :=
  fun s hs => Reader.gives_next fun t => Reader.gives_pure (h s t hs)

/-- Reading a word keeps what is kept for all numbers that fit. -/
theorem natural_keeps {bound : ℕ} {get : σ → ℕ} {put : σ → ℕ → σ}
    (h : ∀ s n, n < bound → Inv s → Inv (put s n)) : (Field.natural key bound get put).Keeps Inv :=
  fun s hs => Reader.gives_bind (Reader.gives_natural bound) fun n hn =>
    Reader.gives_pure (h s n hn hs)

/-- Reading a real keeps what is kept for all finite reals. -/
theorem real_keeps {get : σ → Float} {put : σ → Float → σ}
    (h : ∀ s x, x.isFinite = true → Inv s → Inv (put s x)) : (Field.real key get put).Keeps Inv :=
  fun s hs => Reader.gives_bind Reader.gives_realNumber fun x hx =>
    Reader.gives_pure (h s x hx.isFinite hs)

theorem duration_keeps {get : σ → Duration} {put : σ → Duration → σ}
    (h : ∀ s n, n < 2 ^ 64 → Inv s → Inv (put s (Duration.ofMillis n))) :
    (Field.duration key get put).Keeps Inv :=
  fun s hs => Reader.gives_bind (Reader.gives_natural _) fun n hn =>
    Reader.gives_pure (h s n hn hs)

/-- A record inside a record keeps the outer one if it keeps its own. -/
theorem record_keeps {τ : Type} {Inner : τ → Prop} {inner : List (Field τ)} {get : σ → τ}
    {put : σ → τ → σ} (hinner : ∀ f ∈ inner, f.Keeps Inner) (hget : ∀ s, Inv s → Inner (get s))
    (hput : ∀ s p, Inner p → Inv s → Inv (put s p)) : (Field.record key inner get put).Keeps Inv :=
  fun s hs => Reader.gives_bind (gives_readRecord hinner false (hget s hs)) fun p hp =>
    Reader.gives_pure (hput s p hp hs)

end Field

end Records

end Backpressure.Json
