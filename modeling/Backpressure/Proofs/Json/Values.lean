import Backpressure.Proofs.Decimal.Spelling
import Backpressure.Proofs.Json.Strings

/-!
# Values and their texts

The text of a value stands on one line, whatever strings, keys and numbers there are in it
(`Value.feed_not_mem_chars`).

*Integral values* have integers and no other numbers, at any depth.  Their texts tell them apart,
also with something behind them: `Value.Integral.unambiguous` reads two equal texts from the left
and finds equal values with equal rests.  The first character says of which kind the value is
(`Kind.ofHead?`), a string says where it ends, and a number ends where no digit follows.

A real number can share its text with another value, for what is not finite is written as `null`.
-/

namespace Backpressure.Json

/-! ## Line feeds -/

theorem feed_not_mem_toString (n : Int) : '\n' ∉ (toString n).toList := by
  intro h
  rcases Reader.mem_toString h with hdigit | hminus
  · exact absurd hdigit (by decide)
  · exact absurd hminus (by decide)

/-- The text of a real is on one line. -/
theorem feed_not_mem_realText (x : Float) : '\n' ∉ realText x := by
  have hnot : ¬Decimal.IsNumeric '\n' := by
    rintro (h | h | h | h) <;> exact absurd h (by decide)
  unfold realText
  split
  · exact fun h => hnot (Decimal.isNumeric_text x _ h)
  · decide

mutual

/-- A line feed in a text is escaped, so the text of a value is on one line. -/
theorem Value.feed_not_mem_chars : ∀ v : Value, '\n' ∉ v.chars
  | .null => by decide
  | .bool true => by decide
  | .bool false => by decide
  | .integer n => feed_not_mem_toString n
  | .real x => feed_not_mem_realText x
  | .text s => feed_not_mem_stringText s
  | .list items => by
      simp [Value.chars, feed_not_mem_itemsText items]
  | .object members => by
      simp [Value.chars, feed_not_mem_membersText members]

theorem feed_not_mem_itemsText : ∀ items : List Value, '\n' ∉ itemsText items
  | [] => List.not_mem_nil
  | [v] => v.feed_not_mem_chars
  | v :: w :: rest => by
      simp [itemsText, v.feed_not_mem_chars, feed_not_mem_itemsText (w :: rest)]

theorem feed_not_mem_membersText : ∀ members : List (String × Value), '\n' ∉ membersText members
  | [] => List.not_mem_nil
  | [(k, v)] => by
      simp [membersText, feed_not_mem_stringText k, v.feed_not_mem_chars]
  | (k, v) :: m :: rest => by
      simp [membersText, feed_not_mem_stringText k, v.feed_not_mem_chars,
        feed_not_mem_membersText (m :: rest)]

end

/-! ## Integral values -/

/-- All numbers in a value are integers. -/
inductive Value.Integral : Value → Prop
  | null : Integral .null
  | bool (b : Bool) : Integral (.bool b)
  | integer (n : Int) : Integral (.integer n)
  | text (s : String) : Integral (.text s)
  | list {items : List Value} (h : ∀ v ∈ items, Integral v) : Integral (.list items)
  | object {members : List (String × Value)} (h : ∀ m ∈ members, Integral m.2) :
      Integral (.object members)

/-- The kinds of integral values that their first character tells apart. -/
inductive Kind where
  | null
  | bool (b : Bool)
  | number
  | text
  | list
  | object
  deriving DecidableEq

/-- The kind of a value that begins with a character. -/
def Kind.ofHead? (c : Char) : Option Kind :=
  if c = 'n' then some .null
  else if c = 't' then some (.bool true)
  else if c = 'f' then some (.bool false)
  else if c = '"' then some .text
  else if c = '[' then some .list
  else if c = '\x7b' then some .object
  else if c.isDigit || c = '-' then some .number
  else none

/-- The kind of a value. -/
def Kind.of : Value → Kind
  | .null => .null
  | .bool b => .bool b
  | .integer _ | .real _ => .number
  | .text _ => .text
  | .list _ => .list
  | .object _ => .object

theorem Kind.ofHead?_of_mem_toString {n : Int} {c : Char} (h : c ∈ (toString n).toList) :
    Kind.ofHead? c = some .number := by
  rcases Reader.mem_toString h with hdigit | rfl
  · have hnot : ∀ d : Char, d.isDigit = false → c ≠ d := by
      rintro d hd rfl
      rw [hd] at hdigit
      cases hdigit
    simp only [Kind.ofHead?, if_neg (hnot 'n' (by decide)), if_neg (hnot 't' (by decide)),
      if_neg (hnot 'f' (by decide)), if_neg (hnot '"' (by decide)), if_neg (hnot '[' (by decide)),
      if_neg (hnot '\x7b' (by decide)), hdigit, Bool.true_or, if_true]
  · rfl

/-- The text of an integral value begins with a character of its kind. -/
theorem Value.Integral.head {v : Value} (h : v.Integral) :
    ∃ c cs, v.chars = c :: cs ∧ Kind.ofHead? c = some (Kind.of v) := by
  cases h with
  | null => exact ⟨_, _, rfl, rfl⟩
  | bool b => cases b <;> exact ⟨_, _, rfl, rfl⟩
  | integer n =>
      cases htext : (toString n).toList with
      | nil =>
          rw [Reader.toList_toString] at htext
          split at htext
          · cases htext
          · exact absurd htext Nat.toDigits_ne_nil
      | cons c cs =>
          exact ⟨c, cs, htext, Kind.ofHead?_of_mem_toString (htext ▸ List.mem_cons_self)⟩
  | text s => exact ⟨_, _, rfl, rfl⟩
  | list hitems => exact ⟨_, _, rfl, rfl⟩
  | object hmembers => exact ⟨_, _, rfl, rfl⟩

/-- The text of a value is not taken for that of another, also with something behind it. -/
def Value.Unambiguous (v : Value) : Prop :=
  ∀ ⦃w : Value⦄ ⦃rest rest' : List Char⦄, w.Integral → Ended rest → Ended rest' →
    v.chars ++ rest = w.chars ++ rest' → v = w ∧ rest = rest'

/-- Texts that agree up to what follows are of values of one kind. -/
theorem Value.Integral.kind_eq {v w : Value} {rest rest' : List Char} (hv : v.Integral)
    (hw : w.Integral) (h : v.chars ++ rest = w.chars ++ rest') : Kind.of v = Kind.of w := by
  obtain ⟨c, cs, hc, hkind⟩ := hv.head
  obtain ⟨d, ds, hd, hkind'⟩ := hw.head
  rw [hc, hd] at h
  rw [(List.cons.inj h).1, hkind'] at hkind
  exact (Option.some.inj hkind).symm

theorem digits_unambiguous {m n : Nat} {rest rest' : List Char} (hr : Ended rest)
    (hr' : Ended rest') (h : Nat.toDigits 10 m ++ rest = Nat.toDigits 10 n ++ rest') :
    m = n ∧ rest = rest' := by
  have hm := Reader.spanDigits_append (fun _ => Reader.isDigit_of_mem_toDigits (n := m)) hr.noDigit
  rw [h, Reader.spanDigits_append (fun _ => Reader.isDigit_of_mem_toDigits (n := n)) hr'.noDigit]
    at hm
  obtain ⟨hdigits, hrest⟩ := Prod.mk.inj hm
  have hvalue := congrArg (Nat.ofDigitChars 10 · 0) hdigits
  simp only [Nat.ofDigitChars_ten_toDigits] at hvalue
  exact ⟨hvalue.symm, hrest.symm⟩

/-- The text of an integer ends where its digits do. -/
theorem integer_unambiguous {m n : Int} {rest rest' : List Char} (hr : Ended rest)
    (hr' : Ended rest') (h : (toString m).toList ++ rest = (toString n).toList ++ rest') :
    m = n ∧ rest = rest' := by
  have hsign : ∀ {k : Nat} {more : List Char}, '-' :: more ≠ Nat.toDigits 10 k ++ rest ∧
      '-' :: more ≠ Nat.toDigits 10 k ++ rest' := by
    intro k more
    obtain ⟨c, cs, hc⟩ := List.exists_cons_of_ne_nil (Nat.toDigits_ne_nil (n := k) (b := 10))
    have hdigit : c.isDigit = true := Reader.isDigit_of_mem_toDigits (hc ▸ List.mem_cons_self)
    have hne : '-' ≠ c := by
      rintro rfl
      exact absurd hdigit (by decide)
    rw [hc]
    exact ⟨fun h => hne (List.cons.inj h).1, fun h => hne (List.cons.inj h).1⟩
  rw [Reader.toList_toString, Reader.toList_toString] at h
  split at h <;> split at h
  · obtain ⟨hvalue, hrest⟩ := digits_unambiguous hr hr' (List.cons.inj h).2
    exact ⟨by omega, hrest⟩
  · exact absurd h hsign.2
  · exact absurd h.symm hsign.1
  · obtain ⟨hvalue, hrest⟩ := digits_unambiguous hr hr' h
    exact ⟨by omega, hrest⟩

/-! ## Items and members -/

section Parts

variable {α : Type} {part : α → List Char} {text : List α → List Char}

/-- What is written behind the first of several parts. -/
def tailText (text : List α → List Char) : List α → List Char
  | [] => []
  | a :: more => ',' :: text (a :: more)

theorem ended_tailText (text : List α → List Char) (more : List α) {close : Char}
    (rest : List Char) (hclose : close = ']' ∨ close = '\x7d') :
    Ended (tailText text more ++ close :: rest) := by
  intro c hc
  cases more with
  | nil =>
      cases hc
      exact .inr hclose
  | cons a more =>
      cases hc
      exact .inl rfl

/-- The comma that leads what follows the first part can be struck on both sides. -/
theorem tailText_cancel {close : Char} {more more' : List α} {rest rest' : List Char}
    (hnil : text [] = []) (hclose : close ≠ ',')
    (h : tailText text more ++ close :: rest = tailText text more' ++ close :: rest') :
    text more ++ close :: rest = text more' ++ close :: rest' := by
  cases more <;> cases more'
  · rwa [hnil]
  · exact absurd (List.cons.inj h).1 hclose
  · exact absurd (List.cons.inj h).1.symm hclose
  · exact (List.cons.inj h).2

/-- Parts with commas between them, and a bracket at the end, are told apart if the single parts
are. -/
theorem parts_unambiguous {close : Char} {as bs : List α} {rest rest' : List Char}
    (hnil : text [] = []) (hcons : ∀ a more, text (a :: more) = part a ++ tailText text more)
    (hclose : close = ']' ∨ close = '\x7d')
    (hfirst : ∀ a ∈ as ++ bs, ∃ c cs, part a = c :: cs ∧ c ≠ close)
    (hpart : ∀ a ∈ as, ∀ b ∈ bs, ∀ r r', Ended r → Ended r' → part a ++ r = part b ++ r' →
      a = b ∧ r = r')
    (h : text as ++ close :: rest = text bs ++ close :: rest') : as = bs ∧ rest = rest' := by
  have hcomma : close ≠ ',' := by rcases hclose with rfl | rfl <;> decide
  have hopen : ∀ a ∈ as ++ bs, ∀ more cs cs', text (a :: more) ++ cs ≠ close :: cs' := by
    intro a ha more cs cs' heq
    obtain ⟨c, ds, hc, hne⟩ := hfirst a ha
    rw [hcons, hc] at heq
    exact hne (List.cons.inj heq).1
  induction as generalizing bs with
  | nil =>
      cases bs with
      | nil =>
          rw [hnil] at h
          exact ⟨rfl, (List.cons.inj h).2⟩
      | cons b more' =>
          rw [hnil] at h
          exact absurd h.symm (hopen b List.mem_cons_self _ _ _)
  | cons a more ih =>
      cases bs with
      | nil =>
          rw [hnil] at h
          exact absurd h (hopen a List.mem_cons_self _ _ _)
      | cons b more' =>
          rw [hcons, hcons, List.append_assoc, List.append_assoc] at h
          obtain ⟨rfl, htail⟩ := hpart a List.mem_cons_self b List.mem_cons_self _ _
            (ended_tailText text more rest hclose) (ended_tailText text more' rest' hclose) h
          have hsub : ∀ x ∈ more ++ more', x ∈ (a :: more) ++ (a :: more') := by
            intro x hx
            rcases List.mem_append.mp hx with hl | hr
            · exact List.mem_append_left _ (List.mem_cons_of_mem _ hl)
            · exact List.mem_append_right _ (List.mem_cons_of_mem _ hr)
          obtain ⟨rfl, hrest⟩ := ih (fun x hx => hfirst x (hsub x hx))
            (fun x hx y hy => hpart x (List.mem_cons_of_mem _ hx) y (List.mem_cons_of_mem _ hy))
            (tailText_cancel hnil hcomma htail) (fun x hx => hopen x (hsub x hx))
          exact ⟨rfl, hrest⟩

end Parts

theorem itemsText_cons (v : Value) (more : List Value) :
    itemsText (v :: more) = v.chars ++ tailText itemsText more := by
  cases more with
  | nil => exact (List.append_nil _).symm
  | cons w more => rfl

/-- One member of an object. -/
def memberText (m : String × Value) : List Char := stringText m.1 ++ ':' :: m.2.chars

theorem membersText_cons (m : String × Value) (more : List (String × Value)) :
    membersText (m :: more) = memberText m ++ tailText membersText more := by
  cases more with
  | nil => exact (List.append_nil _).symm
  | cons m' more => simp [membersText, memberText, tailText]

/-- The text of a list tells its items and where it ends. -/
theorem items_unambiguous {items items' : List Value} {rest rest' : List Char}
    (hitems : ∀ v ∈ items, v.Integral) (hitems' : ∀ v ∈ items', v.Integral)
    (hitem : ∀ v ∈ items, v.Unambiguous)
    (h : itemsText items ++ ']' :: rest = itemsText items' ++ ']' :: rest') :
    items = items' ∧ rest = rest' := by
  have hfirst : ∀ v ∈ items ++ items', ∃ c cs, v.chars = c :: cs ∧ c ≠ ']' := by
    intro v hmem
    obtain ⟨c, cs, hc, hhead⟩ := ((List.mem_append.mp hmem).elim (hitems v) (hitems' v)).head
    refine ⟨c, cs, hc, ?_⟩
    rintro rfl
    cases hhead
  exact parts_unambiguous rfl itemsText_cons (.inl rfl) hfirst
    (fun v hmem v' hmem' _ _ hr hr' => hitem v hmem (hitems' v' hmem') hr hr') h

/-- The text of an object tells its members, in their order, and where it ends. -/
theorem members_unambiguous {members members' : List (String × Value)} {rest rest' : List Char}
    (hmembers' : ∀ m ∈ members', m.2.Integral) (hmember : ∀ m ∈ members, m.2.Unambiguous)
    (h : membersText members ++ '\x7d' :: rest = membersText members' ++ '\x7d' :: rest') :
    members = members' ∧ rest = rest' := by
  have hpart : ∀ m ∈ members, ∀ m' ∈ members', ∀ r r', Ended r → Ended r' →
      memberText m ++ r = memberText m' ++ r' → m = m' ∧ r = r' := by
    rintro ⟨k, v⟩ hmem ⟨k', v'⟩ hmem' r r' hr hr' heq
    simp only [memberText, List.append_assoc, List.cons_append] at heq
    obtain ⟨rfl, hvalue⟩ := stringText_unambiguous heq
    obtain ⟨rfl, hrest⟩ :=
      hmember (k, v) hmem (hmembers' (k, v') hmem') hr hr' (List.cons.inj hvalue).2
    exact ⟨rfl, hrest⟩
  exact parts_unambiguous rfl membersText_cons (.inr rfl) (fun m _ => ⟨'"', _, rfl, by decide⟩)
    hpart h

/-- The text of an integral value is not taken for that of another. -/
theorem Value.Integral.unambiguous {v : Value} (hv : v.Integral) : v.Unambiguous := by
  induction hv with
  | null =>
      intro w rest rest' hw _ _ h
      have hkind := Value.Integral.null.kind_eq hw h
      cases hw with
      | null => exact ⟨rfl, List.append_cancel_left h⟩
      | _ => cases hkind
  | bool b =>
      intro w rest rest' hw _ _ h
      have hkind := (Value.Integral.bool b).kind_eq hw h
      cases hw with
      | bool b' =>
          obtain rfl := Kind.bool.inj hkind
          exact ⟨rfl, List.append_cancel_left h⟩
      | _ => cases hkind
  | integer n =>
      intro w rest rest' hw hr hr' h
      have hkind := (Value.Integral.integer n).kind_eq hw h
      cases hw with
      | integer n' =>
          obtain ⟨rfl, hrest⟩ := integer_unambiguous hr hr' h
          exact ⟨rfl, hrest⟩
      | _ => cases hkind
  | text s =>
      intro w rest rest' hw _ _ h
      have hkind := (Value.Integral.text s).kind_eq hw h
      cases hw with
      | text s' =>
          obtain ⟨rfl, hrest⟩ := stringText_unambiguous h
          exact ⟨rfl, hrest⟩
      | _ => cases hkind
  | @list items hitems ih =>
      intro w rest rest' hw _ _ h
      have hkind := (Value.Integral.list hitems).kind_eq hw h
      cases hw with
      | @list items' hitems' =>
          obtain ⟨rfl, hrest⟩ :=
            items_unambiguous hitems hitems' ih (by simpa [Value.chars] using h)
          exact ⟨rfl, hrest⟩
      | _ => cases hkind
  | @object members hmembers ih =>
      intro w rest rest' hw _ _ h
      have hkind := (Value.Integral.object hmembers).kind_eq hw h
      cases hw with
      | @object members' hmembers' =>
          obtain ⟨rfl, hrest⟩ :=
            members_unambiguous hmembers' ih (by simpa [Value.chars] using h)
          exact ⟨rfl, hrest⟩
      | _ => cases hkind

/-- Integral values with the same text are equal. -/
theorem Value.Integral.eq_of_render {v w : Value} (hv : v.Integral) (hw : w.Integral)
    (h : v.render = w.render) : v = w := by
  have hchars := congrArg String.toList h
  rw [Value.render, Value.render, String.toList_ofList, String.toList_ofList] at hchars
  have hnil : v.chars ++ [] = w.chars ++ [] := by rw [hchars]
  exact (hv.unambiguous hw ended_nil ended_nil hnil).1

end Backpressure.Json
