import ServingPlane.Proofs.Json.Number
import ServingPlane.Proofs.Toml.Strings

/-! # Reading back written values

    A value is written on one line, or as an array over several, and is
    read back in front of what may follow it: a comma, the end of its line
    or a closing bracket.  A whole number is neither taken for a date or a
    time nor for a number in another base.  Between the items of an array
    breaks and blanks do not count, nor does a comma after the last. -/

namespace ServingPlane.Toml

open Numeric

/-- What may follow a value. -/
def Stops (r : List Char) : Prop := ∃ c t, r = c :: t ∧ (c = ',' ∨ c = '\n' ∨ c = ']')

theorem Stops.head? {r : List Char} (h : Stops r) {p : Char → Prop}
    (hp : ∀ c, c = ',' ∨ c = '\n' ∨ c = ']' → p c) : ∀ c ∈ r.head?, p c := by
  obtain ⟨c, t, rfl, hc⟩ := h
  intro d hd
  obtain rfl : c = d := Option.some.inj hd
  exact hp c hc

/-! ## Whole numbers -/

theorem fitsInt64_iff {n : Int} : fitsInt64 n = true ↔ -2 ^ 63 ≤ n ∧ n < 2 ^ 63 := by
  have hmin : Int64.minValue.toInt = -2 ^ 63 := by decide
  have hmax : Int64.maxValue.toInt = 2 ^ 63 - 1 := by decide
  rw [fitsInt64, Bool.and_eq_true, decide_eq_true_eq, decide_eq_true_eq, hmin, hmax]
  omega

theorem fitsInt64_natCast {n : Nat} (h : n < 2 ^ 63) : fitsInt64 n = true :=
  fitsInt64_iff.mpr ⟨by omega, by omega⟩

/-- Digits up to the end of a value do not begin a date or a time. -/
theorem all_take_and_eq_false {ds r : List Char} (hds : Digits ds) (hr : Stops r) (k : Nat)
    {mark : Char} (hmark : mark = '-' ∨ mark = ':') :
    (((ds ++ r).take k).all Char.isDigit && (ds ++ r)[k]? == some mark) = false := by
  obtain ⟨c, t, rfl, hc⟩ := hr
  have hdigit : c.isDigit = false := by rcases hc with rfl | rfl | rfl <;> rfl
  rw [Bool.and_eq_false_iff]
  rcases Nat.lt_trichotomy k ds.length with hlt | rfl | hgt
  · refine .inr (beq_false_of_ne fun heq => ?_)
    rw [List.getElem?_append_left hlt] at heq
    have hdigit := hds _ (List.mem_of_getElem? heq)
    rcases hmark with rfl | rfl <;> cases hdigit
  · refine .inr (beq_false_of_ne fun heq => ?_)
    rw [List.getElem?_append_right (Nat.le_refl _), Nat.sub_self] at heq
    obtain rfl : c = mark := Option.some.inj heq
    rcases hc with rfl | rfl | rfl <;> rcases hmark with h | h <;> cases h
  · refine .inl (List.all_eq_false.mpr ⟨c, ?_, by simp [hdigit]⟩)
    refine List.mem_take_iff_getElem.mpr ⟨ds.length, ?_, ?_⟩
    · simp
      omega
    · simp

theorem readDigits_more {ds r : List Char} (hds : Digits ds) (hr : Stops r) (d : Char) :
    readDigits.more Char.isDigit d (ds ++ r) = (d :: ds, r) := by
  induction ds generalizing d with
  | nil =>
    obtain ⟨c, t, rfl, hc⟩ := hr
    have hdigit : c.isDigit = false := by rcases hc with rfl | rfl | rfl <;> rfl
    rw [List.nil_append, readDigits.more]
    · rw [hdigit, if_neg Bool.false_ne_true]
    · rintro e r rfl
      rcases hc with h | h | h <;> cases h
  | cons e ds ih =>
    have he : e.isDigit = true := hds e List.mem_cons_self
    rw [List.cons_append, readDigits.more]
    · rw [he, if_pos rfl, ih (fun c hc => hds c (List.mem_cons_of_mem _ hc))]
    · rintro e' r rfl
      cases he

theorem readDigits_append {ds r : List Char} (hds : Digits ds) (hsome : ds ≠ []) (hr : Stops r) :
    readDigits Char.isDigit (ds ++ r) = some (ds, r) := by
  cases ds with
  | nil => exact absurd rfl hsome
  | cons d ds =>
    rw [List.cons_append, readDigits, if_pos (hds d List.mem_cons_self),
      readDigits_more (fun c hc => hds c (List.mem_cons_of_mem _ hc)) hr]

theorem readWhole_digitsOf (n : Nat) {r : List Char} (hr : Stops r) :
    readWhole (digitsOf n ++ r) = some (digitsOf n, r) := by
  rcases Nat.eq_zero_or_pos n with rfl | hpos
  · rfl
  · obtain ⟨c, ds, hdigits, hc⟩ := head_digitsOf hpos
    have hread := readDigits_append (digits_digitsOf n) Nat.toDigits_ne_nil hr
    rw [hdigits] at hread ⊢
    rw [List.cons_append, readWhole]
    · exact hread
    · intro r heq
      exact hc (List.cons.inj heq).1

theorem readFraction_of_stops {r : List Char} (hr : Stops r) : readFraction r = some ([], r) := by
  obtain ⟨c, t, rfl, hc⟩ := hr
  rw [readFraction]
  rintro r heq
  rw [(List.cons.inj heq).1] at hc
  rcases hc with h | h | h <;> cases h

theorem readExponent_of_stops {r : List Char} (hr : Stops r) : readExponent r = some (none, r) := by
  obtain ⟨c, t, rfl, hc⟩ := hr
  refine if_neg ?_
  rcases hc with rfl | rfl | rfl <;> decide

theorem exists_digitsOf (n : Nat) : ∃ d ds, digitsOf n = d :: ds ∧ d.isDigit = true := by
  obtain ⟨d, ds, hdigits⟩ : ∃ d ds, digitsOf n = d :: ds :=
    List.exists_cons_of_ne_nil Nat.toDigits_ne_nil
  exact ⟨d, ds, hdigits, digits_digitsOf n d (hdigits ▸ List.mem_cons_self)⟩

theorem readSign_intText (n : Int) (r : List Char) :
    readSign ((intText n).toList ++ r) = (decide (n < 0), digitsOf n.natAbs ++ r) := by
  rw [Document.intText_eq]
  cases decide (n < 0) with
  | true => rfl
  | false =>
    show readSign (digitsOf n.natAbs ++ r) = _
    obtain ⟨d, ds, hdigits, hd⟩ := exists_digitsOf n.natAbs
    rw [hdigits, List.cons_append, readSign]
    · rintro r heq
      rw [(List.cons.inj heq).1] at hd
      cases hd
    · rintro r heq
      rw [(List.cons.inj heq).1] at hd
      cases hd

theorem readDecimal_intText {n : Int} (hn : fitsInt64 n = true) {r : List Char} (hr : Stops r) :
    readDecimal ((intText n).toList ++ r) = some (.integer n, r) := by
  have hvalue : (if decide (n < 0) = true then -(n.natAbs : Int) else n.natAbs) = n := by
    simp only [decide_eq_true_eq]
    split <;> omega
  -- the digits are no word
  have hword : ∀ {c : Char} {t : List Char}, c.isDigit = false → digitsOf n.natAbs ++ r ≠ c :: t := by
    intro c t hc heq
    obtain ⟨d, ds, hdigits, hd⟩ := exists_digitsOf n.natAbs
    rw [hdigits] at heq
    rw [(List.cons.inj heq).1, hc] at hd
    cases hd
  rw [readDecimal, readSign_intText]
  dsimp only
  split
  · exact absurd ‹_› (hword rfl)
  · exact absurd ‹_› (hword rfl)
  · rw [readWhole_digitsOf _ hr]
    show ((readFraction r).bind _ : Option _) = _
    rw [readFraction_of_stops hr]
    show ((readExponent r).bind _ : Option _) = _
    rw [readExponent_of_stops hr]
    show (if fitsInt64 (if decide (n < 0) = true then -(valueOfDigits (digitsOf n.natAbs) : Int)
      else valueOfDigits (digitsOf n.natAbs)) = true then _ else _) = _
    rw [valueOfDigits_digitsOf, hvalue, if_pos hn]

/-- A whole number is read as itself. -/
theorem readNumeric_intText {n : Int} (hn : fitsInt64 n = true) {r : List Char} (hr : Stops r) :
    readNumeric ((intText n).toList ++ r) = some (.integer n, r) := by
  have hstarts : (startsDate ((intText n).toList ++ r) || startsTime ((intText n).toList ++ r))
      = false := by
    rw [Document.intText_eq, startsDate, startsTime]
    cases decide (n < 0) with
    | true => rfl
    | false =>
      rw [Document.signText, if_neg Bool.false_ne_true, List.nil_append,
        all_take_and_eq_false (digits_digitsOf _) hr 4 (.inl rfl),
        all_take_and_eq_false (digits_digitsOf _) hr 2 (.inr rfl)]
      rfl
  have hbase : ∀ {c : Char} {t : List Char}, c = 'x' ∨ c = 'o' ∨ c = 'b' →
      (intText n).toList ++ r ≠ '0' :: c :: t := by
    intro c t hc heq
    have hdigits := readSign_intText n r
    rw [heq] at hdigits
    have hdigits : '0' :: c :: t = digitsOf n.natAbs ++ r := congrArg Prod.snd hdigits
    rcases Nat.eq_zero_or_pos n.natAbs with hzero | hpos
    · obtain ⟨d, t', rfl, hd⟩ := hr
      rw [hzero] at hdigits
      obtain rfl : c = d := (List.cons.inj (List.cons.inj hdigits).2).1
      rcases hc with rfl | rfl | rfl <;> rcases hd with h | h | h <;> cases h
    · obtain ⟨d, ds, hhead, hd⟩ := head_digitsOf hpos
      rw [hhead] at hdigits
      exact hd (List.cons.inj hdigits).1.symm
  rw [readNumeric, hstarts, if_neg Bool.false_ne_true]
  · exact readDecimal_intText hn hr
  · exact fun t heq => hbase (.inl rfl) heq
  · exact fun t heq => hbase (.inr (.inl rfl)) heq
  · exact fun t heq => hbase (.inr (.inr rfl)) heq

/-! ## Tokens -/

/-- Neither blank nor break nor the sign of a comment. -/
structure IsToken (c : Char) : Prop where
  space : isSpace c = false
  feed : c ≠ '\n'
  carriage : c ≠ '\r'
  comment : c ≠ '#'

theorem IsToken.of_isDigit {c : Char} (h : c.isDigit = true) : IsToken c := by
  refine ⟨?_, ?_, ?_, ?_⟩
  · simp only [isSpace, Bool.or_eq_false_iff, beq_eq_false_iff_ne]
    constructor <;> (rintro rfl; cases h)
  all_goals (rintro rfl; cases h)

theorem isToken_bracket : IsToken ']' := ⟨rfl, by decide, by decide, by decide⟩

theorem isToken_comma : IsToken ',' := ⟨rfl, by decide, by decide, by decide⟩

section Token

variable {c : Char} (h : IsToken c) (r : List Char)
include h

theorem IsToken.skipSpace : skipSpace (c :: r) = c :: r :=
  List.dropWhile_cons_of_neg (by simp [h.space])

theorem IsToken.readBreak : readBreak (c :: r) = none := by
  simp [Toml.readBreak, h.feed, h.carriage]

theorem IsToken.skipTrivia (fuel : Nat) : skipTrivia fuel (c :: r) = c :: r := by
  cases fuel with
  | zero => rfl
  | succ fuel =>
    rw [Toml.skipTrivia, h.skipSpace]
    split
    · exact absurd (List.cons.inj ‹_›).1 h.comment
    · rw [h.readBreak]

end Token

/-- The text of a value: it begins with a token other than a closing bracket,
    and in front of whatever may follow it is read as the value. -/
structure Scans (nesting : Nat) (text : List Char) (w : Value) : Prop where
  begins : ∃ c r, text = c :: r ∧ IsToken c ∧ c ≠ ']'
  read : ∀ {fuel depth : Nat} {r : List Char}, text.length < fuel → nesting ≤ depth → Stops r →
    readValue fuel depth (text ++ r) = some (w, r)

/-! ## Scalars -/

/-- What a value on one line is read as. -/
inductive Scalar : Json → Value → Prop where
  | string (s : String) : Scalar (.string s) (.string s)
  | bool (b : Bool) : Scalar (.bool b) (.bool b)
  | int {n : Int} (h : fitsInt64 n = true) : Scalar (.number (.int n)) (.integer n)

theorem exists_stringText (s : String) :
    ∃ c r, (stringText s).toList = c :: r ∧ (c = '"' ∨ c = '\'') := by
  rw [stringText, String.toList_ofList]
  cases (traits s.toList).form with
  | basic => exact ⟨_, _, rfl, .inl rfl⟩
  | literal => exact ⟨_, _, rfl, .inr rfl⟩
  | basicLines => exact ⟨_, _, rfl, .inl rfl⟩
  | literalLines => exact ⟨_, _, rfl, .inr rfl⟩

theorem scans_string (s : String) : Scans 0 (stringText s).toList (.string s) := by
  obtain ⟨c, t, htext, hc⟩ := exists_stringText s
  refine ⟨⟨c, t, htext, ?_, ?_⟩, ?_⟩
  · rcases hc with rfl | rfl <;> exact ⟨rfl, by decide, by decide, by decide⟩
  · rcases hc with rfl | rfl <;> decide
  · intro fuel depth r hfuel _ hr
    obtain ⟨fuel, rfl⟩ := Nat.exists_eq_add_one.mpr (Nat.zero_lt_of_lt hfuel)
    have hnoQuote : ∀ quote : Char, quote = '"' ∨ quote = '\'' → r.head? ≠ some quote := by
      intro quote hquote hhead
      have hstop := hr.head? (p := fun c => c = ',' ∨ c = '\n' ∨ c = ']') (fun _ h => h) quote hhead
      rcases hquote with rfl | rfl <;> rcases hstop with h | h | h <;> cases h
    have hread := readString_stringText s (hnoQuote _ (.inl rfl)) (hnoQuote _ (.inr rfl))
    rw [htext, List.cons_append] at hread ⊢
    rcases hc with rfl | rfl
    · show (readString ('"' :: (t ++ r))).map _ = _
      rw [hread]
      rfl
    · show (readString ('\'' :: (t ++ r))).map _ = _
      rw [hread]
      rfl

theorem scans_bool (b : Bool) : Scans 0 (if b then "true" else "false").toList (.bool b) := by
  refine ⟨?_, ?_⟩
  · cases b with
    | true => exact ⟨_, _, rfl, ⟨rfl, by decide, by decide, by decide⟩, by decide⟩
    | false => exact ⟨_, _, rfl, ⟨rfl, by decide, by decide, by decide⟩, by decide⟩
  · intro fuel depth r hfuel _ _
    obtain ⟨fuel, rfl⟩ := Nat.exists_eq_add_one.mpr (Nat.zero_lt_of_lt hfuel)
    cases b with
    | true => rfl
    | false => rfl

theorem scans_int {n : Int} (hn : fitsInt64 n = true) : Scans 0 (intText n).toList (.integer n) := by
  obtain ⟨c, t, htext, hc⟩ : ∃ c t, (intText n).toList = c :: t ∧ (c = '-' ∨ c.isDigit = true) := by
    rw [Document.intText_eq]
    cases decide (n < 0) with
    | true => exact ⟨_, _, rfl, .inl rfl⟩
    | false =>
      obtain ⟨d, ds, hdigits, hd⟩ := exists_digitsOf n.natAbs
      exact ⟨d, ds, hdigits, .inr hd⟩
  have hother : ∀ a : Char, a ≠ '-' → a.isDigit = false → c ≠ a := by
    rintro a ha hdigit rfl
    rcases hc with rfl | hc
    · exact ha rfl
    · rw [hdigit] at hc
      cases hc
  refine ⟨⟨c, t, htext, ?_, hother ']' (by decide) rfl⟩, ?_⟩
  · rcases hc with rfl | hc
    · exact ⟨rfl, by decide, by decide, by decide⟩
    · exact .of_isDigit hc
  · intro fuel depth r hfuel _ hr
    obtain ⟨fuel, rfl⟩ := Nat.exists_eq_add_one.mpr (Nat.zero_lt_of_lt hfuel)
    have hread := readNumeric_intText hn hr
    rw [htext, List.cons_append] at hread ⊢
    rw [readValue]
    · exact hread
    · exact fun r heq => hother '[' (by decide) rfl (List.cons.inj heq).1
    · exact fun r heq => hother '\x7b' (by decide) rfl (List.cons.inj heq).1
    · exact fun r heq => hother 't' (by decide) rfl (List.cons.inj heq).1
    · exact fun r heq => hother 'f' (by decide) rfl (List.cons.inj heq).1
    · exact fun r heq => hother '"' (by decide) rfl (List.cons.inj heq).1
    · exact fun r heq => hother '\'' (by decide) rfl (List.cons.inj heq).1

/-- A value on one line is written as a text that is read as it. -/
theorem Scalar.exists_text {v : Json} {w : Value} (h : Scalar v w) :
    ∃ t, scalarText? v = some t ∧ Scans 0 t.toList w := by
  cases h with
  | string s => exact ⟨_, rfl, scans_string s⟩
  | bool b =>
    refine ⟨_, ?_, scans_bool b⟩
    cases b <;> rfl
  | int h => exact ⟨_, if_pos h, scans_int h⟩

/-! ## Arrays -/

/-- An item on a line of its own. -/
def itemLine (text : List Char) : List Char := ' ' :: ' ' :: ' ' :: ' ' :: (text ++ [',', '\n'])

/-- The break and the blanks before an item on its own line do not count. -/
theorem skipTrivia_itemLine {c : Char} (h : IsToken c) (fuel : Nat) (r : List Char) :
    skipTrivia (fuel + 2) ('\n' :: ' ' :: ' ' :: ' ' :: ' ' :: c :: r) = c :: r := by
  have hblanks : skipSpace (' ' :: ' ' :: ' ' :: ' ' :: c :: r) = c :: r := h.skipSpace r
  show skipTrivia (fuel + 1) (' ' :: ' ' :: ' ' :: ' ' :: c :: r) = c :: r
  rw [skipTrivia, hblanks]
  split
  · exact absurd (List.cons.inj ‹_›).1 h.comment
  · rw [h.readBreak]

/-- The first item, with what stands after it up to the next. -/
theorem readItems_first {fuel depth : Nat} {cs r rest : List Char} {c : Char} {w : Value}
    (hbracket : c ≠ ']') (hskip : skipTrivia cs.length cs = c :: r)
    (hvalue : readValue fuel depth (c :: r) = some (w, rest)) :
    readItems (fuel + 1) depth cs = match skipTrivia rest.length rest with
      | ']' :: r => some ([w], r)
      | ',' :: r => (readItems fuel depth r).map fun (vs, r) => (w :: vs, r)
      | _ => none := by
  rw [readItems, hskip]
  split
  · exact absurd (List.cons.inj ‹_›).1 hbracket
  · rw [hvalue]
    show (match skipTrivia rest.length rest with
      | ']' :: r => some ([w], r)
      | ',' :: r => (readItems fuel depth r).bind fun x => some (w :: x.1, x.2)
      | _ => none) = _
    split
    · rfl
    · cases readItems fuel depth _ <;> rfl
    · rfl

/-- Items on lines of their own are read up to the closing bracket. -/
theorem readItems_lines {texts : List (List Char)} {ws : List Value}
    (h : List.Forall₂ (Scans 0) texts ws) (depth : Nat) (r : List Char) :
    ∀ fuel, (texts.flatMap itemLine).length + 1 < fuel →
      readItems fuel depth ('\n' :: (texts.flatMap itemLine ++ ']' :: r)) = some (ws, r) := by
  induction h with
  | nil =>
    intro fuel hfuel
    obtain ⟨fuel, rfl⟩ := Nat.exists_eq_add_one.mpr (Nat.zero_lt_of_lt hfuel)
    have hskip : skipTrivia ('\n' :: ']' :: r).length ('\n' :: ']' :: r) = ']' :: r :=
      isToken_bracket.skipTrivia r _
    show readItems (fuel + 1) depth ('\n' :: ']' :: r) = _
    rw [readItems, hskip]
    rfl
  | @cons text w texts ws hfirst _ ih =>
    intro fuel hfuel
    obtain ⟨fuel, rfl⟩ := Nat.exists_eq_add_one.mpr (Nat.zero_lt_of_lt hfuel)
    obtain ⟨c, t, rfl, htoken, hbracket⟩ := hfirst.begins
    rw [List.flatMap_cons, List.length_append, itemLine] at hfuel
    simp only [List.length_cons, List.length_append, List.length_nil] at hfuel
    have htext : '\n' :: ((c :: t) :: texts).flatMap itemLine ++ ']' :: r
        = '\n' :: ' ' :: ' ' :: ' ' :: ' ' :: c :: (t ++ ',' :: '\n' ::
          (texts.flatMap itemLine ++ ']' :: r)) := by
      simp [itemLine]
    have hvalue : readValue fuel depth (c :: (t ++ ',' :: '\n' ::
        (texts.flatMap itemLine ++ ']' :: r))) = some (w, ',' :: '\n' ::
          (texts.flatMap itemLine ++ ']' :: r)) :=
      hfirst.read (by simp; omega) (Nat.zero_le _) ⟨_, _, rfl, .inl rfl⟩
    have hskip : skipTrivia ('\n' :: ' ' :: ' ' :: ' ' :: ' ' :: c :: (t ++ ',' :: '\n' ::
          (texts.flatMap itemLine ++ ']' :: r))).length
        ('\n' :: ' ' :: ' ' :: ' ' :: ' ' :: c :: (t ++ ',' :: '\n' ::
          (texts.flatMap itemLine ++ ']' :: r)))
        = c :: (t ++ ',' :: '\n' :: (texts.flatMap itemLine ++ ']' :: r)) := by
      rw [List.length_cons, List.length_cons]
      exact skipTrivia_itemLine htoken _ _
    rw [← List.cons_append, htext, readItems_first hbracket hskip hvalue, isToken_comma.skipTrivia]
    show (readItems fuel depth ('\n' :: (texts.flatMap itemLine ++ ']' :: r))).map _ = _
    rw [ih fuel (by omega)]
    rfl

/-- Before a token there is nothing to pass over. -/
theorem Scans.skipTrivia {nesting : Nat} {text : List Char} {w : Value}
    (h : Scans nesting text w) (r : List Char) (fuel : Nat) :
    skipTrivia fuel (text ++ r) = text ++ r := by
  obtain ⟨c, t, rfl, htoken, -⟩ := h.begins
  exact htoken.skipTrivia _ _

/-- What a value after a key is read as. -/
inductive Line : Json → Value → Prop where
  | scalar {v : Json} {w : Value} (h : Scalar v w) : Line v w
  | array {items : List Json} {ws : List Value} (h : List.Forall₂ Scalar items ws) :
    Line (.array items) (.array ws)

theorem exists_itemTexts {items : List Json} {ws : List Value} (h : List.Forall₂ Scalar items ws) :
    ∃ texts, itemTexts? items = some texts ∧
      List.Forall₂ (fun t w => Scans 0 t.toList w) texts ws := by
  induction h with
  | nil => exact ⟨[], rfl, .nil⟩
  | cons hfirst _ ih =>
    obtain ⟨t, htext, hscans⟩ := hfirst.exists_text
    obtain ⟨ts, htexts, hrest⟩ := ih
    refine ⟨t :: ts, ?_, .cons hscans hrest⟩
    rw [itemTexts?, htext, htexts]
    rfl

theorem toList_join_itemLines (texts : List String) :
    (String.join (texts.map fun t => "    " ++ t ++ ",\n")).toList
      = (texts.map String.toList).flatMap itemLine := by
  rw [String.toList_join, List.flatMap_map, List.flatMap_map]
  refine List.flatMap_congr fun t _ => ?_
  rw [String.toList_append, String.toList_append]
  rfl

/-- An array is read item by item. -/
theorem scans_array (text : List Char) {ws : List Value}
    (h : ∀ {fuel depth : Nat} {r : List Char}, text.length < fuel →
      readItems fuel depth (text ++ r) = some (ws, r)) : Scans 1 ('[' :: text) (.array ws) := by
  refine ⟨⟨_, _, rfl, ⟨rfl, by decide, by decide, by decide⟩, by decide⟩, ?_⟩
  intro fuel depth r hfuel hdepth _
  obtain ⟨fuel, rfl⟩ := Nat.exists_eq_add_one.mpr (Nat.zero_lt_of_lt hfuel)
  obtain ⟨depth, rfl⟩ := Nat.exists_eq_add_one.mpr hdepth
  rw [List.length_cons] at hfuel
  show (readItems fuel depth (text ++ r)).map _ = _
  rw [h (by omega)]
  rfl

theorem scans_empty : Scans 1 ['[', ']'] (.array []) := by
  refine scans_array [']'] ?_
  intro fuel depth r hfuel
  obtain ⟨fuel, rfl⟩ := Nat.exists_eq_add_one.mpr (Nat.zero_lt_of_lt hfuel)
  show readItems (fuel + 1) depth (']' :: r) = _
  rw [readItems, isToken_bracket.skipTrivia]
  rfl

/-- One item stands between the brackets. -/
theorem scans_single {text : List Char} {w : Value} (h : Scans 0 text w) :
    Scans 1 ('[' :: (text ++ [']'])) (.array [w]) := by
  refine scans_array _ ?_
  intro fuel depth r hfuel
  obtain ⟨fuel, rfl⟩ := Nat.exists_eq_add_one.mpr (Nat.zero_lt_of_lt hfuel)
  rw [List.length_append] at hfuel
  obtain ⟨c, r', htext, -, hbracket⟩ := h.begins
  have hskip := h.skipTrivia (']' :: r) (text ++ ']' :: r).length
  have hread : readValue fuel depth (text ++ ']' :: r) = some (w, ']' :: r) :=
    h.read (by simpa using hfuel) (Nat.zero_le _) ⟨_, _, rfl, .inr (.inr rfl)⟩
  rw [List.append_assoc, List.singleton_append]
  rw [htext, List.cons_append] at hskip hread ⊢
  rw [readItems_first hbracket hskip hread, isToken_bracket.skipTrivia]
  rfl

/-- More items stand on lines of their own. -/
theorem scans_lines {texts : List (List Char)} {ws : List Value}
    (h : List.Forall₂ (Scans 0) texts ws) :
    Scans 1 ('[' :: '\n' :: (texts.flatMap itemLine ++ [']'])) (.array ws) := by
  refine scans_array _ ?_
  intro fuel depth r hfuel
  rw [List.length_cons, List.length_append] at hfuel
  rw [List.cons_append, List.append_assoc]
  exact readItems_lines h depth r fuel (by omega)

/-- A value after a key is written as a text that is read as it. -/
theorem Line.exists_text {v : Json} {w : Value} (h : Line v w) :
    ∃ t, valueText? v = some t ∧ Scans 1 t.toList w := by
  cases h with
  | scalar h =>
    obtain ⟨t, htext, hscans⟩ := h.exists_text
    refine ⟨t, ?_, hscans.begins, fun hfuel _ hr => hscans.read hfuel (Nat.zero_le _) hr⟩
    cases h <;> exact htext
  | @array items ws h =>
    obtain ⟨texts, htexts, hscans⟩ := exists_itemTexts h
    match texts, ws, hscans with
    | [], _, .nil => exact ⟨"[]", by rw [valueText?, htexts]; rfl, scans_empty⟩
    | [t], _, .cons hfirst .nil =>
      refine ⟨"[" ++ t ++ "]", by rw [valueText?, htexts]; rfl, ?_⟩
      rw [String.toList_append, String.toList_append]
      exact scans_single hfirst
    | t :: t' :: texts, ws, hscans =>
      refine ⟨_, by rw [valueText?, htexts]; rfl, ?_⟩
      rw [String.toList_append, String.toList_append, toList_join_itemLines]
      exact scans_lines (List.forall₂_map_left_iff.mpr hscans)

end ServingPlane.Toml
