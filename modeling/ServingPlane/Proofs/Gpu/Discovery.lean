import ServingPlane.Gpu.Discovery
import ServingPlane.Proofs.Json.Number
import ServingPlane.Proofs.Text.Blank

/-! # What a listing of GPUs says

    A line states an index when its digits stand alone on it, with a plus
    sign or without, between any white space, and the index has a place
    among the four-byte naturals.  A listing is read line by line, so what
    the other lines say never changes what one of them states: listings
    put one after the other are read one after the other, and indices
    written one a line are read back. -/

namespace ServingPlane.GpuDiscovery

open Numeric Text

/-! ## Lines that state an index -/

/-- ASCII digits and what they are worth in base ten. -/
structure Denotes (digits : List Char) (n : Nat) : Prop where
  some : digits ≠ []
  ascii : Digits digits
  value : Nat.ofDigitChars 10 digits 0 = n

/-- A line states an index. -/
inductive States : List Char → UInt32 → Prop
  | intro {before sign digits after : List Char} {index : UInt32} (hbefore : Blank before)
      (hsign : sign = [] ∨ sign = ['+']) (hdigits : Denotes digits index.toNat)
      (hafter : Blank after) : States (before ++ (sign ++ digits) ++ after) index

theorem isBlank_of_isDigit {c : Char} (h : c.isDigit = true) : isBlank c = false := by
  have hrange : 48 ≤ c.toNat ∧ c.toNat ≤ 57 := by
    simp only [Char.isDigit, Bool.and_eq_true, decide_eq_true_eq] at h
    exact ⟨h.1, h.2⟩
  simp only [isBlank]
  simp only [Bool.or_eq_false_iff, Bool.and_eq_false_iff, decide_eq_false_iff_not, beq_eq_false_iff_ne]
  omega

/-- The sign and the digits of a number have no white space among them. -/
theorem Denotes.solid {sign digits : List Char} {n : Nat} (hsign : sign = [] ∨ sign = ['+'])
    (h : Denotes digits n) : Solid (sign ++ digits) := by
  intro c hc
  rcases List.mem_append.mp hc with hc | hc
  · rcases hsign with rfl | rfl
    · exact absurd hc List.not_mem_nil
    · rw [List.mem_singleton.mp hc]
      decide
  · exact isBlank_of_isDigit (h.ascii c hc)

theorem isDigits_eq_true_iff (cs : List Char) : isDigits cs = true ↔ cs ≠ [] ∧ Digits cs := by
  simp only [isDigits, Bool.and_eq_true, Bool.not_eq_true', List.isEmpty_eq_false_iff, List.all_eq_true]

theorem readNatural?_eq_some_iff {bound n : Nat} {cs : List Char} :
    readNatural? bound cs = some n ↔
      n < bound ∧ ∃ sign digits, (sign = [] ∨ sign = ['+']) ∧ Denotes digits n ∧
        cs = sign ++ digits := by
  -- what is left once the sign is off is read as digits
  have hread : ∀ ds : List Char, (if isDigits ds then
      if valueOfDigits ds < bound then some (valueOfDigits ds) else none else none) = some n ↔
        n < bound ∧ Denotes ds n := by
    intro ds
    rw [Option.ite_none_right_eq_some, Option.ite_none_right_eq_some, isDigits_eq_true_iff,
      Option.some_inj, valueOfDigits_eq]
    constructor
    · rintro ⟨⟨hsome, hascii⟩, hlt, rfl⟩
      exact ⟨hlt, hsome, hascii, rfl⟩
    · rintro ⟨hlt, hsome, hascii, rfl⟩
      exact ⟨⟨hsome, hascii⟩, hlt, rfl⟩
  by_cases hplus : ∃ r, cs = '+' :: r
  · obtain ⟨r, rfl⟩ := hplus
    simp only [readNatural?]
    rw [hread]
    refine and_congr_right fun _ => ⟨fun h => ⟨['+'], r, .inr rfl, h, rfl⟩, ?_⟩
    rintro ⟨sign, digits, rfl | rfl, h, hcs⟩
    · -- a plus sign is no digit
      rw [List.nil_append] at hcs
      have hdigit := h.ascii '+' (hcs ▸ List.mem_cons_self)
      exact absurd hdigit (by decide)
    · obtain rfl : r = digits := (List.cons.inj hcs).2
      exact h
  · have hdigits : readNatural? bound cs = (if isDigits cs then
        if valueOfDigits cs < bound then some (valueOfDigits cs) else none else none) := by
      simp only [readNatural?]
      split
      · exact absurd ⟨_, rfl⟩ hplus
      · rfl
    rw [hdigits, hread]
    refine and_congr_right fun _ => ⟨fun h => ⟨[], cs, .inl rfl, h, rfl⟩, ?_⟩
    rintro ⟨sign, digits, rfl | rfl, h, rfl⟩
    · exact h
    · exact absurd ⟨digits, rfl⟩ hplus

theorem indexOfLine?_eq_some_iff {line : List Char} {index : UInt32} :
    indexOfLine? line = some index ↔ States line index := by
  simp only [indexOfLine?]
  rw [Option.map_eq_some_iff]
  constructor
  · rintro ⟨n, hn, rfl⟩
    obtain ⟨hlt, sign, digits, hsign, hdigits, htrim⟩ := readNatural?_eq_some_iff.mp hn
    obtain ⟨before, after, hbefore, hafter, rfl⟩ :=
      (trimBlanks_eq_iff (hdigits.solid hsign)).mp htrim
    rw [← UInt32.toNat_ofNat_of_lt' hlt] at hdigits
    exact ⟨hbefore, hsign, hdigits, hafter⟩
  · rintro ⟨hbefore, hsign, hdigits, hafter⟩
    refine ⟨index.toNat, ?_, UInt32.ofNat_toNat⟩
    rw [trimBlanks_around hbefore hafter, trimBlanks_of_solid (hdigits.solid hsign)]
    exact readNatural?_eq_some_iff.mpr ⟨index.toNat_lt, _, _, hsign, hdigits, rfl⟩

/-! ## Listings -/

/-- What ends a line. -/
inductive LineBreak where
  | lineFeed
  | returnAndLineFeed
  deriving DecidableEq, Repr

def LineBreak.text : LineBreak → String
  | .lineFeed => "\n"
  | .returnAndLineFeed => "\r\n"

/-- An index on a line of its own, between white space. -/
structure Written where
  before : List Char
  index : UInt32
  after : List Char
  blank_before : Blank before
  blank_after : Blank after
  one_line : '\n' ∉ before ++ after

def Written.text (w : Written) : String :=
  String.ofList (w.before ++ digitsOf w.index.toNat ++ w.after)

theorem indexOfLine?_nil : indexOfLine? [] = none := rfl

theorem indexOfLine?_return (l : List Char) : indexOfLine? (l ++ ['\r']) = indexOfLine? l := by
  have hreturn : Blank ['\r'] := by
    intro c hc
    rw [List.mem_singleton.mp hc]
    decide
  have hnil : Blank [] := fun _ hc => absurd hc List.not_mem_nil
  simp only [indexOfLine?]
  rw [← List.nil_append l, trimBlanks_around hnil hreturn, List.nil_append]

/-- A listing says what its lines say, one after the other. -/
theorem indicesOf_eq (text : String) :
    indicesOf text = (text.toList.splitOn '\n').filterMap indexOfLine? :=
  filterMap_lines indexOfLine?_return indexOfLine?_nil text.toList

theorem indicesOf_append (brk : LineBreak) (a b : String) :
    indicesOf (a ++ brk.text ++ b) = indicesOf a ++ indicesOf b := by
  have hjoin : ∀ cs : List Char, ((cs ++ '\n' :: b.toList).splitOn '\n').filterMap indexOfLine?
      = (cs.splitOn '\n').filterMap indexOfLine? ++ indicesOf b := by
    intro cs
    rw [List.splitOn_append_cons_self, List.filterMap_append, indicesOf_eq b]
  rw [indicesOf_eq a, indicesOf_eq, String.toList_append, String.toList_append]
  cases brk with
  | lineFeed =>
    rw [List.append_assoc]
    exact hjoin a.toList
  | returnAndLineFeed =>
    -- the return stays on the last line of the first listing, where it is white space
    rw [← filterMap_splitOn_return indexOfLine?_return a.toList, ← hjoin, List.append_assoc,
      List.append_assoc]
    rfl

theorem denotes_digitsOf (n : Nat) : Denotes (digitsOf n) n where
  some := Nat.toDigits_ne_nil
  ascii := digits_digitsOf n
  value := by rw [← valueOfDigits_eq, valueOfDigits_digitsOf]

theorem indicesOf_written (w : Written) : indicesOf w.text = [w.index] := by
  have hdigits : '\n' ∉ digitsOf w.index.toNat := fun h =>
    absurd (digits_digitsOf w.index.toNat _ h) (by decide)
  have hline : '\n' ∉ w.before ++ digitsOf w.index.toNat ++ w.after := by
    have hone := w.one_line
    rw [List.mem_append, not_or] at hone
    rw [List.mem_append, List.mem_append, not_or, not_or]
    exact ⟨⟨hone.1, hdigits⟩, hone.2⟩
  have hstates : States (w.before ++ ([] ++ digitsOf w.index.toNat) ++ w.after) w.index :=
    ⟨w.blank_before, .inl rfl, denotes_digitsOf _, w.blank_after⟩
  rw [List.nil_append] at hstates
  rw [indicesOf_eq, Written.text, String.toList_ofList, List.splitOn_eq_singleton hline,
    List.filterMap_cons, indexOfLine?_eq_some_iff.mpr hstates, List.filterMap_nil]

/-- Indices that are written one a line, with breaks between the lines, are read back. -/
theorem indicesOf_intercalate (brk : LineBreak) (ws : List Written) :
    indicesOf (brk.text.intercalate (ws.map Written.text)) = ws.map Written.index := by
  induction ws with
  | nil =>
    rw [List.map_nil, List.map_nil, String.intercalate_nil]
    rfl
  | cons w ws ih =>
    cases ws with
    | nil => rw [List.map_singleton, String.intercalate_singleton, indicesOf_written]; rfl
    | cons w' ws =>
      rw [List.map_cons, List.map_cons, String.intercalate_cons_cons, indicesOf_append,
        indicesOf_written, ← List.map_cons, ih]
      rfl

/-- A line says an index if and only if that stands on it as an optional
    plus sign and digits between white space, with a value below `2 ^ 32`;
    a listing says what its lines say, in their order; and so two listings
    with a line break between them say what the first says and then what
    the second does, and indices written one a line, with a break after
    the last or without, are read back. -/
theorem listings_say_what_their_lines_state :
    (∀ line index, indexOfLine? line = some index ↔ States line index) ∧
    (∀ text, indicesOf text = (text.toList.splitOn '\n').filterMap indexOfLine?) ∧
    (∀ (brk : LineBreak) (a b : String),
      indicesOf (a ++ brk.text ++ b) = indicesOf a ++ indicesOf b) ∧
    ∀ (brk : LineBreak) (ws : List Written),
      indicesOf (brk.text.intercalate (ws.map Written.text)) = ws.map Written.index ∧
      indicesOf (brk.text.intercalate (ws.map Written.text) ++ brk.text) = ws.map Written.index := by
  refine ⟨fun _ _ => indexOfLine?_eq_some_iff, indicesOf_eq, indicesOf_append, fun brk ws =>
    ⟨indicesOf_intercalate brk ws, ?_⟩⟩
  have hend := indicesOf_append brk (brk.text.intercalate (ws.map Written.text)) ""
  rw [String.append_empty, indicesOf_intercalate] at hend
  exact hend.trans (List.append_nil _)

/-- The largest index has a place, and what has none is passed over. -/
example : indicesOf "0\r\n +4294967295 \n4294967296\n-1\n\n2" = [0, 4294967295, 2] := by decide

end ServingPlane.GpuDiscovery
