import ServingPlane.Json.Printer
import ServingPlane.Json.Reader
import ServingPlane.Proofs.Numeric.Scaled

/-! # Reading back written numbers

    The text of a number is made of parts, digits before and after a
    point and an exponent, and a reader takes it apart again.  A whole
    number comes back as it was.  A number with a point is scaled from its
    digits; as many of them are taken as fit eight bytes, and those that
    are left out make it no larger. -/

namespace ServingPlane

open Numeric

/-! ## Digits -/

namespace Numeric

theorem valueOfDigits_eq (ds : List Char) : valueOfDigits ds = Nat.ofDigitChars 10 ds 0 := by
  rw [Nat.ofDigitChars_eq_foldl, valueOfDigits]
  congr 1
  funext n c
  rw [Nat.mul_comm]

theorem valueOfDigits_append (ds es : List Char) :
    valueOfDigits (ds ++ es) = valueOfDigits ds * 10 ^ es.length + valueOfDigits es := by
  rw [valueOfDigits_eq, valueOfDigits_eq, valueOfDigits_eq, Nat.ofDigitChars_append,
    Nat.ofDigitChars_eq_ofDigitChars_zero, Nat.mul_comm]

theorem valueOfDigits_replicate (n : Nat) : valueOfDigits (List.replicate n '0') = 0 := by
  rw [valueOfDigits_eq, Nat.ofDigitChars_replicate_zero, Nat.mul_zero]

theorem valueOfDigits_digitsOf (n : Nat) : valueOfDigits (digitsOf n) = n := by
  rw [valueOfDigits_eq, digitsOf, Nat.ofDigitChars_ten_toDigits]

/-- Different naturals are written differently. -/
theorem natText_injective : Function.Injective natText := by
  intro n m h
  have hdigits : digitsOf n = digitsOf m := String.ofList_injective h
  rw [← valueOfDigits_digitsOf n, hdigits, valueOfDigits_digitsOf]

/-- Nothing but digits. -/
abbrev Digits (ds : List Char) : Prop := ∀ c ∈ ds, c.isDigit = true

theorem digits_digitsOf (n : Nat) : Digits (digitsOf n) := fun _ hc =>
  Nat.isDigit_of_mem_toDigits (by decide) (by decide) hc

theorem digits_replicate (n : Nat) : Digits (List.replicate n '0') := by
  intro c hc
  rw [(List.mem_replicate.mp hc).2]
  rfl

theorem valueOfDigits_lt {ds : List Char} (h : Digits ds) : valueOfDigits ds < 10 ^ ds.length := by
  induction ds with
  | nil => exact one_pos
  | cons c ds ih =>
    have hlow : c.toNat ≤ 57 := by
      have hc := h c List.mem_cons_self
      simp only [Char.isDigit, Bool.and_eq_true, decide_eq_true_eq] at hc
      exact hc.2
    have hhead : valueOfDigits [c] ≤ 9 := by
      show 0 * 10 + (c.toNat - 48) ≤ 9
      omega
    have hrest := ih fun c hc => h c (List.mem_cons_of_mem _ hc)
    rw [show c :: ds = [c] ++ ds from rfl, valueOfDigits_append, List.length_append,
      List.length_singleton, Nat.add_comm 1, Nat.pow_succ]
    nlinarith

/-- A positive number is written without a zero in front. -/
theorem head_digitsOf {n : Nat} (h : 0 < n) : ∃ c ds, digitsOf n = c :: ds ∧ c ≠ '0' := by
  cases hdigits : digitsOf n with
  | nil => exact absurd hdigits Nat.toDigits_ne_nil
  | cons c ds =>
    refine ⟨c, ds, rfl, ?_⟩
    rintro rfl
    have hvalue := valueOfDigits_digitsOf n
    have hrest : valueOfDigits ds < 10 ^ ds.length := by
      refine valueOfDigits_lt fun c hc => digits_digitsOf n c ?_
      rw [hdigits]
      exact List.mem_cons_of_mem _ hc
    rw [hdigits, show '0' :: ds = ['0'] ++ ds from rfl, valueOfDigits_append,
      show valueOfDigits ['0'] = 0 from rfl, Nat.zero_mul, Nat.zero_add] at hvalue
    rw [hvalue] at hrest
    rcases Nat.eq_zero_or_pos ds.length with hnil | hpos
    · rw [hnil] at hrest
      omega
    · have hlength := (Nat.length_toDigits_le_iff (by decide) hpos).mpr hrest
      rw [← digitsOf, hdigits, List.length_cons] at hlength
      omega

/-- Digits are taken for as long as they fit; what is taken is never too much. -/
theorem takeDigits_le (n : Nat) (ds : List Char) :
    (takeDigits n ds).2 ≤ ds.length ∧
    (takeDigits n ds).1 * 10 ^ (takeDigits n ds).2 ≤ n * 10 ^ ds.length + valueOfDigits ds := by
  induction ds generalizing n with
  | nil => exact ⟨le_rfl, le_rfl⟩
  | cons c ds ih =>
    have hvalue : n * 10 ^ (ds.length + 1) + valueOfDigits (c :: ds)
        = (valueOfDigits [c] + n * 10) * 10 ^ ds.length + valueOfDigits ds := by
      rw [show c :: ds = [c] ++ ds from rfl, valueOfDigits_append]
      ring
    rw [List.length_cons, hvalue]
    simp only [takeDigits]
    split
    · obtain ⟨hlength, hle⟩ := ih (valueOfDigits [c] + n * 10)
      exact ⟨hlength.trans (Nat.le_succ _), hle⟩
    · refine ⟨le_rfl, ?_⟩
      rw [Nat.pow_succ]
      nlinarith [Nat.zero_le (valueOfDigits ds), Nat.zero_le (valueOfDigits [c] * 10 ^ ds.length)]

theorem takeDigits_lt {n : Nat} (h : n < UInt64.size) (ds : List Char) :
    (takeDigits n ds).1 < UInt64.size := by
  induction ds generalizing n with
  | nil => exact h
  | cons c ds ih =>
    simp only [takeDigits]
    split
    · exact ih ‹_›
    · exact h

/-- Digits that fit are all taken. -/
theorem takeDigits_of_lt {n : Nat} {ds : List Char}
    (h : n * 10 ^ ds.length + valueOfDigits ds < UInt64.size) :
    takeDigits n ds = (n * 10 ^ ds.length + valueOfDigits ds, 0) := by
  induction ds generalizing n with
  | nil => simp [takeDigits, valueOfDigits]
  | cons c ds ih =>
    have hvalue : n * 10 ^ (ds.length + 1) + valueOfDigits (c :: ds)
        = (valueOfDigits [c] + n * 10) * 10 ^ ds.length + valueOfDigits ds := by
      rw [show c :: ds = [c] ++ ds from rfl, valueOfDigits_append]
      ring
    rw [List.length_cons, hvalue] at h ⊢
    have hfits : valueOfDigits [c] + n * 10 < UInt64.size := by
      refine Nat.lt_of_le_of_lt ?_ h
      exact Nat.le_add_right_of_le (Nat.le_mul_of_pos_right _ (Nat.pow_pos (by decide)))
    rw [takeDigits, if_pos hfits, ih h]

theorem spanDigits_append {ds r : List Char} (hds : Digits ds)
    (hr : ∀ c ∈ r.head?, c.isDigit = false) : spanDigits (ds ++ r) = (ds, r) := by
  rw [spanDigits, List.takeWhile_append_of_pos hds, List.dropWhile_append_of_pos hds]
  cases r with
  | nil => rw [List.takeWhile_nil, List.append_nil, List.dropWhile_nil]
  | cons c r =>
    have hc : c.isDigit = false := hr c rfl
    rw [List.takeWhile_cons_of_neg (by simp [hc]), List.append_nil,
      List.dropWhile_cons_of_neg (by simp [hc])]

end Numeric

/-! ## Numbers by their parts -/

namespace Document

/-- What the parts of a number text make up. -/
def numberOf (negative : Bool) (whole fraction : List Char) (exponent : Option Int) :
    Option Number :=
  let (significand, places) := takeDigits 0 whole
  if fraction.isEmpty && exponent.isNone && places = 0 then
    some (wholeNumber negative significand)
  else
    let (significand, passed) := takeDigits significand fraction
    let exponent := exponent.getD 0 + places - (fraction.length - passed)
    (scaledDouble? negative significand exponent).map .float

/-- The sign of a number text. -/
def signText (negative : Bool) : List Char := if negative then ['-'] else []

/-- A number is read part by part. -/
theorem readNumber_eq (negative : Bool) {cs : List Char} (h : ∀ c ∈ cs.head?, c ≠ '-') :
    readNumber (signText negative ++ cs) = do
      let (whole, r) ← readWhole cs
      let (fraction, r) ← readFraction r
      let (exponent, r) ← readExponent r
      return (numberOf negative whole fraction exponent, r) := by
  have hparts (negative : Bool) (whole fraction : List Char) (exponent : Option Int) (r : List Char) :
      (if fraction.isEmpty && exponent.isNone && (takeDigits 0 whole).2 = 0 then
        pure (some (wholeNumber negative (takeDigits 0 whole).1), r)
      else
        pure ((scaledDouble? negative (takeDigits (takeDigits 0 whole).1 fraction).1
          (exponent.getD 0 + (takeDigits 0 whole).2
            - (fraction.length - (takeDigits (takeDigits 0 whole).1 fraction).2))).map .float, r))
      = (pure (numberOf negative whole fraction exponent, r) :
          Except Breakage (Option Number × List Char)) := by
    simp only [numberOf]
    split
    · rfl
    · rfl
  cases negative with
  | true =>
    show readNumber ('-' :: cs) = _
    rw [readNumber]
    exact bind_congr fun p => bind_congr fun q => bind_congr fun s => hparts ..
  | false =>
    show readNumber cs = _
    rw [readNumber]
    · exact bind_congr fun p => bind_congr fun q => bind_congr fun s => hparts ..
    · rintro r rfl
      exact h '-' rfl rfl

/-! ## The parts of a written number -/

/-- The parts of a number text without its sign. -/
structure Parts where
  whole : List Char
  fraction : List Char
  exponent : Option Int

/-- An exponent with its mark and its sign. -/
def exponentText (x : Int) : List Char :=
  'e' :: ((if 0 ≤ x then ['+'] else []) ++ (intText x).toList)

namespace Parts

/-- The text that is made of the parts. -/
def text (p : Parts) : List Char :=
  p.whole ++ ((if p.fraction = [] then [] else '.' :: p.fraction) ++ p.exponent.elim [] exponentText)

/-- The number that the parts stand for. -/
def value (p : Parts) : ℚ :=
  valueOfDigits (p.whole ++ p.fraction) * 10 ^ (p.exponent.getD 0 - p.fraction.length)

/-- The parts are digits, and no zero stands in front of others. -/
structure Proper (p : Parts) : Prop where
  whole : Digits p.whole
  some : p.whole ≠ []
  lead : p.whole = ['0'] ∨ p.whole.head? ≠ .some '0'
  fraction : Digits p.fraction

end Parts

/-- What may follow a number inside a document, or nothing. -/
def Ends (r : List Char) : Prop := ∀ c ∈ r.head?, c = ',' ∨ c = ']' ∨ c = '\x7d' ∨ c = '\n'

theorem Ends.isDigit {r : List Char} (h : Ends r) : ∀ c ∈ r.head?, c.isDigit = false := by
  intro c hc
  rcases h c hc with rfl | rfl | rfl | rfl <;> rfl

theorem readWhole_append {ds r : List Char} (hds : Digits ds) (hsome : ds ≠ [])
    (hlead : ds = ['0'] ∨ ds.head? ≠ some '0') (hr : ∀ c ∈ r.head?, c.isDigit = false) :
    readWhole (ds ++ r) = .ok (ds, r) := by
  rcases hlead with rfl | hlead
  · cases r with
    | nil => rfl
    | cons c r =>
      show (if c.isDigit then _ else _) = _
      rw [if_neg (by simp [hr c rfl])]
      rfl
  · cases ds with
    | nil => exact absurd rfl hsome
    | cons d ds =>
      have hd : d ≠ '0' := fun h => hlead (congrArg some h)
      show readWhole (d :: (ds ++ r)) = _
      rw [readWhole]
      · rw [show d :: (ds ++ r) = d :: ds ++ r from rfl, spanDigits_append hds hr]
      · exact List.cons_ne_nil _ _
      · exact fun r heq => hd (List.cons.inj heq).1

theorem readFraction_append {ds r : List Char} (hds : Digits ds)
    (hr : ∀ c ∈ r.head?, c.isDigit = false ∧ c ≠ '.') :
    readFraction ((if ds = [] then [] else '.' :: ds) ++ r) = .ok (ds, r) := by
  cases ds with
  | nil =>
    rw [if_pos rfl, List.nil_append, readFraction]
    rintro r rfl
    exact (hr '.' rfl).2 rfl
  | cons d ds =>
    rw [if_neg (List.cons_ne_nil d ds)]
    show readFraction ('.' :: (d :: ds ++ r)) = _
    rw [readFraction, spanDigits_append hds fun c hc => (hr c hc).1]

theorem readExponent_none {r : List Char} (h : Ends r) : readExponent r = .ok (none, r) := by
  cases r with
  | nil => rfl
  | cons c r =>
    have hc : ¬(c = 'e' ∨ c = 'E') := by
      rcases h c rfl with rfl | rfl | rfl | rfl <;> decide
    unfold readExponent
    exact if_neg hc

theorem intText_eq (n : Int) :
    (intText n).toList = signText (decide (n < 0)) ++ digitsOf n.natAbs := by
  simp only [intText, natText, signText, decide_eq_true_eq]
  split
  · exact String.toList_ofList
  · exact String.toList_ofList

theorem readExponent_exponentText (x : Int) {r : List Char} (h : Ends r) :
    readExponent (exponentText x ++ r) = .ok (some x, r) := by
  have hspan : spanDigits (digitsOf x.natAbs ++ r) = (digitsOf x.natAbs, r) :=
    spanDigits_append (digits_digitsOf _) h.isDigit
  obtain ⟨d, ds, hdigits⟩ : ∃ d ds, digitsOf x.natAbs = d :: ds :=
    List.exists_cons_of_ne_nil Nat.toDigits_ne_nil
  have hvalue : valueOfDigits (d :: ds) = x.natAbs := by
    rw [← hdigits, valueOfDigits_digitsOf]
  rw [exponentText, intText_eq]
  rw [hdigits] at hspan ⊢
  rcases Int.lt_or_le x 0 with hx | hx
  · rw [if_neg (by omega), decide_eq_true hx]
    show readExponent ('e' :: '-' :: (d :: ds ++ r)) = _
    rw [readExponent, if_pos (.inl rfl), hspan]
    dsimp only
    rw [hvalue, if_pos rfl, show -(x.natAbs : Int) = x by omega]
  · rw [if_pos hx, decide_eq_false (by omega)]
    show readExponent ('e' :: '+' :: (d :: ds ++ r)) = _
    rw [readExponent, if_pos (.inl rfl), hspan]
    dsimp only
    rw [hvalue, if_neg Bool.false_ne_true, show (x.natAbs : Int) = x by omega]

/-- A written number is read as its parts, and what follows is left. -/
theorem readNumber_text (negative : Bool) {p : Parts} (hp : p.Proper) {r : List Char} (h : Ends r) :
    readNumber (signText negative ++ (p.text ++ r))
      = .ok (numberOf negative p.whole p.fraction p.exponent, r) := by
  have htail : ∀ c ∈ (p.exponent.elim [] exponentText ++ r).head?,
      c.isDigit = false ∧ c ≠ '.' := by
    cases p.exponent with
    | none =>
      intro c hc
      refine ⟨h.isDigit c hc, ?_⟩
      rcases h c hc with rfl | rfl | rfl | rfl <;> decide
    | some x =>
      rintro c ⟨⟩
      decide
  have hmiddle : ∀ c ∈ ((if p.fraction = [] then [] else '.' :: p.fraction)
      ++ (p.exponent.elim [] exponentText ++ r)).head?, c.isDigit = false := by
    split
    · exact fun c hc => (htail c hc).1
    · rintro c ⟨⟩
      rfl
  have hminus : ∀ c ∈ (p.text ++ r).head?, c ≠ '-' := by
    obtain ⟨d, ds, hwhole⟩ := List.exists_cons_of_ne_nil hp.some
    rw [Parts.text, hwhole]
    rintro c ⟨⟩ rfl
    have := hp.whole '-' (hwhole ▸ List.mem_cons_self)
    cases this
  rw [readNumber_eq negative hminus, Parts.text, List.append_assoc, List.append_assoc,
    readWhole_append hp.whole hp.some hp.lead hmiddle]
  show (readFraction _ >>= fun q => _) = _
  rw [readFraction_append hp.fraction htail]
  show (readExponent _ >>= fun q => _) = _
  cases hexponent : p.exponent with
  | none =>
    show (readExponent r >>= fun q => _) = _
    rw [readExponent_none h]
    rfl
  | some x =>
    show (readExponent (exponentText x ++ r) >>= fun q => _) = _
    rw [readExponent_exponentText x h]
    rfl

/-- The text has a point or an exponent, and at most sixteen digits before it. -/
structure Parts.Floating (p : Parts) : Prop where
  whole : p.whole.length ≤ 16
  marked : p.fraction = [] → p.exponent ≠ none

section Compact

variable {d : Decimal} {place : Int}

/-- A value below one, with all zeros after the point. -/
theorem parts_of_small (hplace : place = (digitsOf d.digits).length + d.exponent)
    (hlow : place ≤ 0) :
    ∃ p : Parts, p.Proper ∧ p.Floating ∧ p.value = d.value ∧
      p.text = '0' :: '.' :: (List.replicate (-place).toNat '0' ++ digitsOf d.digits) := by
  have hsome : List.replicate (-place).toNat '0' ++ digitsOf d.digits ≠ [] := fun h =>
    Nat.toDigits_ne_nil (List.append_eq_nil_iff.mp h).2
  refine ⟨⟨['0'], List.replicate (-place).toNat '0' ++ digitsOf d.digits, none⟩,
    ⟨digits_replicate 1, List.cons_ne_nil _ _, .inl rfl, ?_⟩,
    ⟨Nat.le_of_ble_eq_true rfl, fun h => absurd h hsome⟩, ?_, ?_⟩
  · intro c hc
    rcases List.mem_append.mp hc with hc | hc
    · exact digits_replicate _ c hc
    · exact digits_digitsOf _ c hc
  · have hexponent : ((none : Option Int).getD 0
        - (List.replicate (-place).toNat '0' ++ digitsOf d.digits).length) = d.exponent := by
      rw [List.length_append, List.length_replicate, Option.getD_none]
      omega
    simp only [Parts.value, Decimal.value]
    rw [hexponent, valueOfDigits_append, valueOfDigits_append, valueOfDigits_replicate,
      valueOfDigits_digitsOf, show valueOfDigits ['0'] = 0 from rfl]
    simp
  · simp only [Parts.text]
    rw [if_neg hsome]
    simp

variable (hd : 0 < d.digits)
include hd

/-- A whole number, with zeros filled in before the point. -/
theorem parts_of_whole (hplace : place = (digitsOf d.digits).length + d.exponent)
    (hlow : (digitsOf d.digits).length ≤ place) (hhigh : place ≤ 16) :
    ∃ p : Parts, p.Proper ∧ p.Floating ∧ p.value = d.value ∧
      p.text = digitsOf d.digits
        ++ List.replicate (place.toNat - (digitsOf d.digits).length) '0' ++ ['.', '0'] := by
  obtain ⟨c, ds, hdigits, hc⟩ := head_digitsOf hd
  refine ⟨⟨digitsOf d.digits ++ List.replicate (place.toNat - (digitsOf d.digits).length) '0',
    ['0'], none⟩, ⟨?_, ?_, .inr ?_, digits_replicate 1⟩, ⟨?_, ?_⟩, ?_, rfl⟩
  · intro c hc
    rcases List.mem_append.mp hc with hc | hc
    · exact digits_digitsOf _ c hc
    · exact digits_replicate _ c hc
  · exact fun h => Nat.toDigits_ne_nil (List.append_eq_nil_iff.mp h).1
  · rw [hdigits]
    exact fun h => hc (Option.some.inj h)
  · rw [List.length_append, List.length_replicate]
    omega
  · exact fun h => absurd h (List.cons_ne_nil _ _)
  · obtain ⟨k, hk⟩ := Int.le.dest (show 0 ≤ d.exponent by omega)
    rw [Int.zero_add] at hk
    have hzeros : place.toNat - (digitsOf d.digits).length = k := by omega
    simp only [Parts.value, Decimal.value]
    rw [hzeros, valueOfDigits_append, valueOfDigits_append, valueOfDigits_replicate,
      valueOfDigits_digitsOf, show valueOfDigits ['0'] = 0 from rfl, List.length_replicate, ← hk,
      zpow_natCast]
    simp

/-- A number with a point among its digits. -/
theorem parts_of_fraction (hplace : place = (digitsOf d.digits).length + d.exponent)
    (hlow : 0 < place) (hmiddle : place < (digitsOf d.digits).length) (hhigh : place ≤ 16) :
    ∃ p : Parts, p.Proper ∧ p.Floating ∧ p.value = d.value ∧
      p.text = (digitsOf d.digits).take place.toNat
        ++ '.' :: (digitsOf d.digits).drop place.toNat := by
  obtain ⟨c, ds, hdigits, hc⟩ := head_digitsOf hd
  obtain ⟨k, hk⟩ : ∃ k, place.toNat = k + 1 := ⟨place.toNat - 1, by omega⟩
  have hrest : (digitsOf d.digits).drop place.toNat ≠ [] := by
    rw [Ne, List.drop_eq_nil_iff]
    omega
  refine ⟨⟨(digitsOf d.digits).take place.toNat, (digitsOf d.digits).drop place.toNat, none⟩,
    ⟨?_, ?_, .inr ?_, ?_⟩, ⟨?_, fun h => absurd h hrest⟩, ?_, ?_⟩
  · exact fun c hc => digits_digitsOf _ c (List.mem_of_mem_take hc)
  · rw [hdigits, hk]
    exact List.cons_ne_nil _ _
  · rw [hdigits, hk]
    exact fun h => hc (Option.some.inj h)
  · exact fun c hc => digits_digitsOf _ c (List.mem_of_mem_drop hc)
  · rw [List.length_take]
    omega
  · simp only [Parts.value, Decimal.value]
    rw [List.take_append_drop, valueOfDigits_digitsOf, List.length_drop, Option.getD_none]
    congr 2
    omega
  · simp only [Parts.text]
    rw [if_neg hrest]
    simp

/-- A number with one digit before the point, and an exponent. -/
theorem parts_of_exponent (hplace : place = (digitsOf d.digits).length + d.exponent) :
    ∃ p : Parts, p.Proper ∧ p.Floating ∧ p.value = d.value ∧
      p.text = (match digitsOf d.digits with
        | [] => []
        | [c] => [c]
        | c :: r => c :: '.' :: r) ++ exponentText (place - 1) := by
  obtain ⟨c, ds, hdigits, hc⟩ := head_digitsOf hd
  have hall := digits_digitsOf d.digits
  have hvalue := valueOfDigits_digitsOf d.digits
  rw [hdigits] at hplace hall hvalue
  rw [hdigits]
  refine ⟨⟨[c], ds, some (place - 1)⟩, ⟨?_, ?_, .inr ?_, ?_⟩, ⟨?_, ?_⟩, ?_, ?_⟩
  · exact fun a ha => hall a (List.mem_singleton.mp ha ▸ List.mem_cons_self)
  · exact List.cons_ne_nil _ _
  · exact fun h => hc (Option.some.inj h)
  · exact fun a ha => hall a (List.mem_cons_of_mem _ ha)
  · exact Nat.le_of_ble_eq_true rfl
  · exact fun _ h => by cases h
  · simp only [Parts.value, Decimal.value]
    rw [List.singleton_append, hvalue, Option.getD_some]
    congr 2
    rw [hplace, List.length_cons]
    omega
  · cases ds with
    | nil => rfl
    | cons e ds => rfl

/-- A positive decimal is written as parts that stand for it. -/
theorem exists_parts_compactDigits :
    ∃ p : Parts, p.Proper ∧ p.Floating ∧ p.value = d.value ∧
      p.text = compactDigits documentLayout d := by
  unfold compactDigits
  extract_lets digits place mantissa sign
  have hdigits : digitsOf d.digits = digits := rfl
  split
  · rename_i h
    have hhigh : place ≤ 16 := h.1
    simp only [positional]
    split
    · rename_i hlow
      obtain ⟨p, hp, hfloating, hvalue, htext⟩ := parts_of_small rfl hlow
      refine ⟨p, hp, hfloating, hvalue, ?_⟩
      rw [htext, if_neg (by simp [digits, digitsOf])]
      rfl
    · rename_i hlow
      rcases Int.lt_or_le place digits.length with hmiddle | hwhole
      · obtain ⟨p, hp, hfloating, hvalue, htext⟩ :=
          parts_of_fraction hd rfl (show 0 < place by omega) hmiddle hhigh
        have hrest : digits.drop place.toNat ≠ [] := by
          rw [Ne, List.drop_eq_nil_iff]
          omega
        refine ⟨p, hp, hfloating, hvalue, ?_⟩
        rw [htext, if_neg (by simpa using hrest), show place.toNat - digits.length = 0 by omega]
        simp [place, digits]
      · obtain ⟨p, hp, hfloating, hvalue, htext⟩ := parts_of_whole hd rfl hwhole hhigh
        refine ⟨p, hp, hfloating, hvalue, ?_⟩
        have hle : digits.length ≤ place.toNat := by omega
        rw [htext, hdigits, List.drop_eq_nil_of_le hle, List.take_of_length_le hle]
        rfl
  · obtain ⟨p, hp, hfloating, hvalue, htext⟩ := parts_of_exponent hd rfl
    refine ⟨p, hp, hfloating, hvalue, ?_⟩
    rw [htext]
    have hsign : (if 0 ≤ place - 1 then ['+'] else []) = sign := by
      simp only [sign, Int.sub_nonneg]
      rfl
    show mantissa ++ 'e' :: ((if 0 ≤ place - 1 then ['+'] else []) ++ _) = _
    rw [hsign]

end Compact

/-! ## What written numbers are read as -/

theorem numberOf_int {n : Int} (hlow : -2 ^ 63 ≤ n) (hhigh : n < 2 ^ 64) :
    numberOf (decide (n < 0)) (digitsOf n.natAbs) [] none = some (.int n) := by
  have htake : takeDigits 0 (digitsOf n.natAbs) = (n.natAbs, 0) := by
    have hsize : 0 * 10 ^ (digitsOf n.natAbs).length + valueOfDigits (digitsOf n.natAbs)
        < UInt64.size := by
      rw [Nat.zero_mul, Nat.zero_add, valueOfDigits_digitsOf]
      show n.natAbs < 18446744073709551616
      omega
    rw [takeDigits_of_lt hsize, Nat.zero_mul, Nat.zero_add, valueOfDigits_digitsOf]
  simp only [numberOf]
  rw [htake]
  show some (wholeNumber (decide (n < 0)) n.natAbs) = _
  have hmin : Int64.minValue.toInt.natAbs = 2 ^ 63 := rfl
  simp only [wholeNumber, decide_eq_true_eq, hmin]
  rcases Int.lt_or_le n 0 with hneg | hpos
  · rw [if_pos hneg, if_pos ⟨by omega, by omega⟩, show -(n.natAbs : Int) = n by omega]
  · rw [if_neg (by omega), show (n.natAbs : Int) = n by omega]

/-- A number with a point or an exponent is scaled from digits that are not too much. -/
theorem numberOf_floating (negative : Bool) {p : Parts} (hp : p.Proper) (hf : p.Floating) :
    ∃ (s : Nat) (e : Int), s < UInt64.size ∧ (s : ℚ) * 10 ^ e ≤ p.value ∧
      numberOf negative p.whole p.fraction p.exponent = (scaledDouble? negative s e).map .float := by
  have hwhole : valueOfDigits p.whole < UInt64.size :=
    calc valueOfDigits p.whole < 10 ^ p.whole.length := valueOfDigits_lt hp.whole
      _ ≤ 10 ^ 16 := Nat.pow_le_pow_right (by decide) hf.whole
      _ ≤ UInt64.size := by decide
  have htake : takeDigits 0 p.whole = (valueOfDigits p.whole, 0) := by
    have hsize : 0 * 10 ^ p.whole.length + valueOfDigits p.whole < UInt64.size := by
      rwa [Nat.zero_mul, Nat.zero_add]
    rw [takeDigits_of_lt hsize, Nat.zero_mul, Nat.zero_add]
  obtain ⟨hpassed, hle⟩ := takeDigits_le (valueOfDigits p.whole) p.fraction
  have hsize := takeDigits_lt hwhole p.fraction
  generalize htaken : takeDigits (valueOfDigits p.whole) p.fraction = taken at *
  obtain ⟨s, passed⟩ := taken
  dsimp only at hpassed hle hsize
  refine ⟨s, p.exponent.getD 0 - (p.fraction.length - passed), hsize, ?_, ?_⟩
  · have hscale : (10 : ℚ) ^ (p.exponent.getD 0 - (p.fraction.length - passed : Int))
        = 10 ^ passed * 10 ^ (p.exponent.getD 0 - p.fraction.length) := by
      rw [← zpow_natCast, ← zpow_add₀ (by norm_num)]
      congr 1
      omega
    rw [hscale, ← mul_assoc, Parts.value, valueOfDigits_append]
    gcongr
    exact_mod_cast hle
  · have hmarked : (p.fraction.isEmpty && p.exponent.isNone && (0 : Nat) = 0) = false := by
      cases hfraction : p.fraction with
      | nil =>
        obtain ⟨x, hx⟩ := Option.ne_none_iff_exists'.mp (hf.marked hfraction)
        rw [hx]
        rfl
      | cons c r => rfl
    simp only [numberOf]
    rw [htake]
    dsimp only
    rw [hmarked, htaken, if_neg Bool.false_ne_true]
    simp

end Document

namespace Numeric.Double

open Document

variable {x : Double} {negative : Bool} {m : Magnitude}

theorem canonical_of_reading (h : x.reading = .finite negative m) :
    Format.double.Canonical m ∧ m.exponent ≤ 971 := by
  unfold reading Format.reading at h
  extract_lets sign rest at h
  split at h
  · rename_i hfinite
    obtain ⟨-, rfl⟩ := Reading.finite.inj h
    refine ⟨Format.double.canonical_magnitude _, ?_⟩
    have hfield : rest / Format.double.hiddenBit < 2047 := Nat.div_lt_of_lt_mul hfinite
    have hmin : Format.double.minExponent = -1074 := by decide
    simp only [Format.magnitude, hmin]
    split
    · show (-1074 : Int) ≤ 971
      decide
    · dsimp only
      omega
  · split at h
    · cases h
    · cases h

/-- A finite number is written as parts that stand for at most half a unit more. -/
theorem exists_parts (h : x.reading = .finite negative m) :
    ∃ p : Parts, p.Proper ∧ p.Floating ∧ p.value ≤ m.value + 2 ^ (m.exponent - 1) ∧
      Json.numberText (.float x) = signText negative ++ p.text := by
  have htext (body : List Char) :
      (String.ofList (if negative then '-' :: body else body)).toList
        = signText negative ++ body := by
    rw [String.toList_ofList]
    cases negative with
    | true => rfl
    | false => rfl
  have hnumber : Json.numberText (.float x)
      = signText negative ++ (if m.significand = 0 then ['0', '.', '0']
          else compactDigits documentLayout (Format.double.shortest .even m)) := by
    simp only [Json.numberText, compactText?, h, Option.getD_some, compactText]
    rw [htext]
  rcases Nat.eq_zero_or_pos m.significand with hzero | hpos
  · refine ⟨⟨['0'], ['0'], none⟩, ⟨digits_replicate 1, List.cons_ne_nil _ _, .inl rfl,
      digits_replicate 1⟩, ⟨Nat.le_of_ble_eq_true rfl, fun h => absurd h (List.cons_ne_nil _ _)⟩,
      ?_, ?_⟩
    · have hvalue : (⟨['0'], ['0'], none⟩ : Parts).value = 0 := by
        simp only [Parts.value]
        rw [show valueOfDigits (['0'] ++ ['0']) = 0 from rfl, Nat.cast_zero, zero_mul]
      rw [hvalue, Magnitude.value]
      positivity
    · rw [hnumber, if_pos hzero]
      rfl
  · obtain ⟨hcanonical, hexponent⟩ := canonical_of_reading h
    obtain ⟨hshortest, hbound⟩ :=
      Format.shortest_bounds .even hcanonical hpos (by decide) (by omega)
    have hdigits : 0 < (Format.double.shortest .even m).digits := by
      refine Nat.pos_of_ne_zero fun h => ?_
      rw [Decimal.value, h, Nat.cast_zero, zero_mul] at hshortest
      exact lt_irrefl _ hshortest
    obtain ⟨p, hp, hf, hvalue, hcompact⟩ := exists_parts_compactDigits hdigits
    refine ⟨p, hp, hf, hvalue.trans_le hbound, ?_⟩
    rw [hnumber, if_neg hpos.ne', hcompact]

end Numeric.Double

namespace Document

theorem isSpace_of_isDigit {c : Char} (h : c.isDigit = true) : isSpace c = false := by
  simp only [isSpace, Bool.or_eq_false_iff, beq_eq_false_iff_ne]
  refine ⟨⟨⟨?_, ?_⟩, ?_⟩, ?_⟩ <;> (rintro rfl; cases h)

/-- Where a number begins, a number is read. -/
theorem readValue_of_number (fuel depth : Nat) {cs r : List Char} {n : Option Number}
    (hhead : ∃ c r, cs = c :: r ∧ (c = '-' ∨ c.isDigit = true))
    (h : readNumber cs = .ok (n, r)) : readValue (fuel + 1) depth cs = ⟨.number n, some r⟩ := by
  obtain ⟨c, r', rfl, hc⟩ := hhead
  have hspace : isSpace c = false := by
    rcases hc with rfl | hc
    · rfl
    · exact isSpace_of_isDigit hc
  have hskip : skipSpace (c :: r') = c :: r' := List.dropWhile_cons_of_neg (by simp [hspace])
  have hne (a : Char) (ha : a ≠ '-') (hdigit : a.isDigit = false) : c ≠ a := by
    rintro rfl
    rcases hc with rfl | hc
    · exact ha rfl
    · rw [hdigit] at hc
      cases hc
  rw [readValue, hskip]
  split
  · rename_i heq
    cases heq
  · exact absurd (List.cons.inj ‹_›).1 (hne '"' (by decide) rfl)
  · exact absurd (List.cons.inj ‹_›).1 (hne '[' (by decide) rfl)
  · exact absurd (List.cons.inj ‹_›).1 (hne '\x7b' (by decide) rfl)
  · exact absurd (List.cons.inj ‹_›).1 (hne 'n' (by decide) rfl)
  · exact absurd (List.cons.inj ‹_›).1 (hne 't' (by decide) rfl)
  · exact absurd (List.cons.inj ‹_›).1 (hne 'f' (by decide) rfl)
  · rename_i heq
    cases heq
    rw [if_pos hc, h]

theorem readValue_text (fuel depth : Nat) (negative : Bool) {p : Parts} (hp : p.Proper)
    {r : List Char} (h : Ends r) :
    readValue (fuel + 1) depth (signText negative ++ (p.text ++ r))
      = ⟨.number (numberOf negative p.whole p.fraction p.exponent), some r⟩ := by
  refine readValue_of_number fuel depth ?_ (readNumber_text negative hp h)
  cases negative with
  | true => exact ⟨'-', _, rfl, .inl rfl⟩
  | false =>
    obtain ⟨d, ds, hwhole⟩ := List.exists_cons_of_ne_nil hp.some
    refine ⟨d, _, by rw [Parts.text, hwhole]; rfl, .inr ?_⟩
    exact hp.whole d (hwhole ▸ List.mem_cons_self)

/-- A whole number is written as its digits alone. -/
theorem proper_digitsOf (n : Nat) : (⟨digitsOf n, [], none⟩ : Parts).Proper := by
  refine ⟨digits_digitsOf n, Nat.toDigits_ne_nil, ?_, fun c hc => absurd hc List.not_mem_nil⟩
  rcases Nat.eq_zero_or_pos n with rfl | hpos
  · exact .inl rfl
  · obtain ⟨c, ds, hdigits, hc⟩ := head_digitsOf hpos
    refine .inr ?_
    show (digitsOf n).head? ≠ some '0'
    rw [hdigits]
    exact fun h => hc (Option.some.inj h)

end Document

namespace Number

open Document Json

/-- The document that a written number is read as. -/
def asText (n : Number) : Document := (readValue 1 0 (numberText n)).document

/-- A number text is `null`, or is made of parts. -/
theorem numberText_cases (n : Number) : numberText n = ['n', 'u', 'l', 'l'] ∨
    ∃ negative p, Parts.Proper p ∧ numberText n = signText negative ++ p.text := by
  cases n with
  | int n =>
    refine .inr ⟨decide (n < 0), _, proper_digitsOf n.natAbs, ?_⟩
    rw [numberText, intText_eq]
    simp [Parts.text]
  | float x =>
    cases h : x.reading with
    | finite negative m =>
      obtain ⟨p, hp, -, -, htext⟩ := x.exists_parts h
      exact .inr ⟨negative, p, hp, htext⟩
    | infinite negative =>
      refine .inl ?_
      simp only [numberText, Double.compactText?, h]
      rfl
    | nan =>
      refine .inl ?_
      simp only [numberText, Double.compactText?, h]
      rfl

/-- A written number is read up to where something else begins. -/
theorem readValue_numberText (n : Number) (fuel depth : Nat) {r : List Char} (h : Ends r) :
    readValue (fuel + 1) depth (numberText n ++ r) = ⟨n.asText, some r⟩ := by
  have hnone : Ends [] := fun _ hc => by cases hc
  simp only [asText]
  rcases numberText_cases n with htext | ⟨negative, p, hp, htext⟩
  · rw [htext]
    rfl
  · have halone := readValue_text 0 0 negative hp hnone
    rw [List.append_nil] at halone
    rw [htext, halone, List.append_assoc, readValue_text fuel depth negative hp h]

theorem asText_int {n : Int} (hlow : -2 ^ 63 ≤ n) (hhigh : n < 2 ^ 64) :
    (int n).asText = .number (some (.int n)) := by
  have hread := readValue_text 0 0 (decide (n < 0)) (proper_digitsOf n.natAbs) (r := [])
    fun _ hc => by cases hc
  have htext : numberText (.int n)
      = signText (decide (n < 0)) ++ (⟨digitsOf n.natAbs, [], none⟩ : Parts).text ++ [] := by
    rw [numberText, intText_eq]
    simp [Parts.text]
  rw [asText, htext, List.append_assoc, hread, numberOf_int hlow hhigh]

/-- A finite number is read as one that is scaled from at most as much as was written. -/
theorem asText_float {x : Double} {negative : Bool} {m : Magnitude}
    (h : x.reading = .finite negative m) :
    ∃ (s : Nat) (e : Int), s < UInt64.size ∧ (s : ℚ) * 10 ^ e ≤ m.value + 2 ^ (m.exponent - 1) ∧
      (float x).asText = .number ((scaledDouble? negative s e).map .float) := by
  obtain ⟨p, hp, hf, hvalue, htext⟩ := x.exists_parts h
  obtain ⟨s, e, hs, hle, hnumber⟩ := numberOf_floating negative hp hf
  refine ⟨s, e, hs, hle.trans hvalue, ?_⟩
  have hread := readValue_text 0 0 negative hp (r := []) fun _ hc => by cases hc
  rw [List.append_nil] at hread
  rw [asText, htext, hread, hnumber]

/-- The text of a finite four-byte number is read as one that is narrowed to
    a finite one. -/
theorem exists_asText {x : Single} (h : x.isFinite = true) :
    ∃ d y, x.asDocumentNumber? = some d ∧ (float d).asText = .number (some (.float y)) ∧
      y.toSingle.isFinite = true := by
  obtain ⟨d, negative, m, hnumber, hreading, hbound⟩ := Single.exists_asDocumentNumber h
  obtain ⟨s, e, hs, hle, htext⟩ := asText_float hreading
  obtain ⟨y, hscaled, hfinite⟩ := exists_scaledDouble negative hs (hle.trans hbound)
  refine ⟨d, y, hnumber, ?_, hfinite⟩
  rw [htext, hscaled, Option.map_some]

end Number

end ServingPlane
