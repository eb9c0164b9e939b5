import Mathlib.Tactic.IntervalCases
import ServingPlane.Proofs.Json.Number
import ServingPlane.Proofs.Json.Roundtrip

/-! # Reading back written texts

    A string escapes one character at a time, and the reader undoes one
    escape at a time; hence a written string reads back as itself.  A
    written value of any shape, on one line or spread out, reads back part
    by part, numbers as their texts are read, and takes no character of
    what follows.  So a codec that returns what was written does so through
    a text. -/

namespace ServingPlane

open Document Json Numeric

/-! ## Strings -/

/-- The digits of a control character are those that a reader expects. -/
theorem readHex4_hex4 {n : Nat} (h : n < 0x20) (r : List Char) :
    readHex4 (hex4 n ++ r) = .ok (n, r) := by
  interval_cases n <;> rfl

private theorem ofUnit_toNat {c : Char} (h : c.toNat < 0x20) : Piece.ofUnit c.toNat = .char c := by
  simp only [Piece.ofUnit]
  rw [if_neg (by omega), Char.ofNat_toNat]

/-- The reader undoes the escape of one character. -/
theorem readPieces_escapeChar (fuel : Nat) (c : Char) (r : List Char) (acc : List Piece) :
    readPieces (fuel + 1) (escapeChar c ++ r) acc = readPieces fuel r (.char c :: acc) := by
  simp only [escapeChar]
  by_cases hq : c = '"'
  · subst hq
    rfl
  by_cases hb : c = '\\'
  · subst hb
    rfl
  by_cases hn : c = '\n'
  · subst hn
    rfl
  by_cases ht : c = '\t'
  · subst ht
    rfl
  by_cases hr : c = '\r'
  · subst hr
    rfl
  by_cases h8 : c = '\x08'
  · subst h8
    rfl
  by_cases hc : c = '\x0c'
  · subst hc
    rfl
  rw [if_neg hq, if_neg hb, if_neg hn, if_neg ht, if_neg hr, if_neg h8, if_neg hc]
  by_cases hlow : c.toNat < 0x20
  · rw [if_pos hlow]
    show readPieces (fuel + 1) ('\\' :: 'u' :: (hex4 c.toNat ++ r)) acc = _
    rw [readPieces, readHex4_hex4 hlow]
    show readPieces fuel r (Piece.ofUnit c.toNat :: acc) = _
    rw [ofUnit_toNat hlow]
  · rw [if_neg hlow]
    show readPieces (fuel + 1) (c :: r) acc = _
    rw [readPieces]
    · rw [if_neg hlow]
    all_goals simp_all

theorem readPieces_flatMap (cs : List Char) :
    ∀ (fuel : Nat) (r : List Char) (acc : List Piece), cs.length < fuel →
      readPieces fuel (cs.flatMap escapeChar ++ '"' :: r) acc
        = .ok (acc.reverse ++ cs.map .char, r) := by
  induction cs with
  | nil =>
    intro fuel r acc h
    obtain ⟨fuel, rfl⟩ := Nat.exists_eq_add_one.mpr h
    rw [List.map_nil, List.append_nil]
    rfl
  | cons c cs ih =>
    intro fuel r acc h
    rw [List.length_cons] at h
    obtain ⟨fuel, rfl⟩ := Nat.exists_eq_add_one.mpr (Nat.zero_lt_of_lt h)
    rw [List.flatMap_cons, List.append_assoc, readPieces_escapeChar,
      ih fuel r (.char c :: acc) (by omega), List.reverse_cons, List.append_assoc]
    rfl

private theorem joinPieces_map_char (cs : List Char) : joinPieces (cs.map .char) = some cs := by
  induction cs with
  | nil => rfl
  | cons c cs ih =>
    rw [List.map_cons, joinPieces, ih]
    rfl

private theorem length_le_flatMap_escapeChar (cs : List Char) :
    cs.length ≤ (cs.flatMap escapeChar).length := by
  induction cs with
  | nil => exact Nat.le_refl 0
  | cons c cs ih =>
    have hc : 0 < (escapeChar c).length := by
      simp only [escapeChar]
      repeat' split
      all_goals simp
    rw [List.flatMap_cons, List.length_append, List.length_cons]
    omega

/-- A written string reads back after its opening quote. -/
theorem readString_flatMap (s : String) (r : List Char) :
    readString (s.toList.flatMap escapeChar ++ '"' :: r) = .ok (some s, r) := by
  have hlen : s.toList.length < (s.toList.flatMap escapeChar ++ '"' :: r).length + 1 := by
    have := length_le_flatMap_escapeChar s.toList
    rw [List.length_append]
    omega
  simp only [readString]
  rw [readPieces_flatMap _ _ _ _ hlen]
  show Except.ok ((joinPieces (s.toList.map .char)).map String.ofList, r) = _
  rw [joinPieces_map_char, Option.map_some, String.ofList_toList]

/-- A written string reads back as a value. -/
theorem readValue_stringText (fuel depth : Nat) (s : String) (r : List Char) :
    readValue (fuel + 1) depth (stringText s ++ r) = ⟨.string s, some r⟩ := by
  have hskip : skipSpace (stringText s ++ r)
      = '"' :: (s.toList.flatMap escapeChar ++ '"' :: r) := by
    show List.dropWhile isSpace ('"' :: (s.toList.flatMap escapeChar ++ ['"'] ++ r)) = _
    rw [List.append_assoc]
    rfl
  rw [readValue, hskip]
  simp only [readString_flatMap]

/-! ## Values -/

namespace Json

mutual

/-- The document that the text of a value is read as. -/
def asText : Json → Document
  | null => .null
  | bool b => .bool b
  | number n => n.asText
  | string s => .string (some s)
  | array items => .array (itemsAsText items) none
  | object ms => .object (membersAsText ms) none

/-- `asText` on every item. -/
def itemsAsText : List Json → List Document
  | [] => []
  | v :: r => asText v :: itemsAsText r

/-- `asText` on every member. -/
def membersAsText : List (String × Json) → List (Option String × Document)
  | [] => []
  | (k, v) :: r => (some k, asText v) :: membersAsText r

end

mutual

/-- How many brackets are open at once in the text of a value. -/
def nesting : Json → Nat
  | array items => itemsNesting items + 1
  | object ms => membersNesting ms + 1
  | _ => 0

/-- `nesting` of the deepest item. -/
def itemsNesting : List Json → Nat
  | [] => 0
  | v :: r => max (nesting v) (itemsNesting r)

/-- `nesting` of the deepest member. -/
def membersNesting : List (String × Json) → Nat
  | [] => 0
  | (_, v) :: r => max (nesting v) (membersNesting r)

end

end Json

/-! ## Layouts -/

/-- How a text is spread out: the blanks in front of items and closing
    brackets at a level, and those between a colon and its value. -/
structure Layout where
  gap : Nat → List Char
  pad : List Char
  gap_blank : ∀ level, ∀ c ∈ gap level, isSpace c = true
  /-- What stands behind a value is seen to be none of it. -/
  gap_head : ∀ level, ∀ c ∈ (gap level).head?, c = '\n'
  pad_blank : ∀ c ∈ pad, isSpace c = true

namespace Layout

/-- All on one line. -/
def oneLine : Layout := ⟨fun _ => [], [], by simp, by simp, by simp⟩

/-- Every item on a line of its own, two blanks further in. -/
def lines : Layout where
  gap := newline
  pad := [' ']
  gap_blank := by
    intro level c hc
    rcases List.mem_cons.mp hc with rfl | hc
    · rfl
    · rw [(List.mem_replicate.mp hc).2]
      rfl
  gap_head := fun _ _ hc => (Option.some.inj hc).symm
  pad_blank := by
    intro c hc
    rw [List.mem_singleton.mp hc]
    rfl

variable (l : Layout)

mutual

/-- The text of a value whose brackets stand at a level. -/
def chars (level : Nat) : Json → List Char
  | .null => "null".toList
  | .bool true => "true".toList
  | .bool false => "false".toList
  | .number n => numberText n
  | .string s => stringText s
  | .array [] => ['[', ']']
  | .array (v :: r) => '[' :: (l.gap (level + 1) ++ (chars (level + 1) v ++ itemChars level r))
  | .object [] => ['\x7b', '\x7d']
  | .object ((k, v) :: r) =>
    '\x7b' :: (l.gap (level + 1) ++ (stringText k ++ ':' ::
      (l.pad ++ (chars (level + 1) v ++ memberChars level r))))

/-- The items after the first, and the closing bracket. -/
def itemChars (level : Nat) : List Json → List Char
  | [] => l.gap level ++ [']']
  | v :: r => ',' :: (l.gap (level + 1) ++ (chars (level + 1) v ++ itemChars level r))

/-- The members after the first, and the closing brace. -/
def memberChars (level : Nat) : List (String × Json) → List Char
  | [] => l.gap level ++ ['\x7d']
  | (k, v) :: r =>
    ',' :: (l.gap (level + 1) ++ (stringText k ++ ':' ::
      (l.pad ++ (chars (level + 1) v ++ memberChars level r))))

end

mutual

theorem chars_oneLine : ∀ (level : Nat) (v : Json), oneLine.chars level v = compactChars v
  | _, .null | _, .bool true | _, .bool false | _, .number _ | _, .string _ => rfl
  | _, .array [] | _, .object [] => rfl
  | level, .array (v :: r) => by
    rw [chars, compactChars, chars_oneLine (level + 1) v, itemChars_oneLine level r]
    rfl
  | level, .object ((k, v) :: r) => by
    rw [chars, compactChars, chars_oneLine (level + 1) v, memberChars_oneLine level r]
    rfl

theorem itemChars_oneLine : ∀ (level : Nat) (items : List Json),
    oneLine.itemChars level items = compactItems items
  | _, [] => rfl
  | level, v :: r => by
    rw [itemChars, compactItems, chars_oneLine (level + 1) v, itemChars_oneLine level r]
    rfl

theorem memberChars_oneLine : ∀ (level : Nat) (ms : List (String × Json)),
    oneLine.memberChars level ms = compactMembers ms
  | _, [] => rfl
  | level, (k, v) :: r => by
    rw [memberChars, compactMembers, chars_oneLine (level + 1) v, memberChars_oneLine level r]
    rfl

end

mutual

theorem chars_lines : ∀ (level : Nat) (v : Json), lines.chars level v = prettyChars level v
  | _, .null | _, .bool true | _, .bool false | _, .number _ | _, .string _ => rfl
  | _, .array [] | _, .object [] => rfl
  | level, .array (v :: r) => by
    rw [chars, prettyChars, chars_lines (level + 1) v, itemChars_lines level r, List.append_assoc]
    rfl
  | level, .object ((k, v) :: r) => by
    rw [chars, prettyChars, chars_lines (level + 1) v, memberChars_lines level r, List.append_assoc]
    rfl

theorem itemChars_lines : ∀ (level : Nat) (items : List Json),
    lines.itemChars level items = prettyItems level items
  | _, [] => rfl
  | level, v :: r => by
    rw [itemChars, prettyItems, chars_lines (level + 1) v, itemChars_lines level r,
      List.append_assoc]
    rfl

theorem memberChars_lines : ∀ (level : Nat) (ms : List (String × Json)),
    lines.memberChars level ms = prettyMembers level ms
  | _, [] => rfl
  | level, (k, v) :: r => by
    rw [memberChars, prettyMembers, chars_lines (level + 1) v, memberChars_lines level r,
      List.append_assoc]
    rfl

end

/-- The text of a value begins with a token, and not with one that ends a sequence. -/
theorem head_chars (level : Nat) (v : Json) :
    ∃ c r, l.chars level v = c :: r ∧ isSpace c = false ∧ c ≠ ']' := by
  cases v with
  | null => exact ⟨'n', _, rfl, rfl, by decide⟩
  | bool b =>
    cases b with
    | true => exact ⟨'t', _, rfl, rfl, by decide⟩
    | false => exact ⟨'f', _, rfl, rfl, by decide⟩
  | number n =>
    show ∃ c r, numberText n = c :: r ∧ _
    rcases n.numberText_cases with htext | ⟨negative, p, hp, htext⟩
    · exact ⟨'n', _, htext, rfl, by decide⟩
    · rw [htext]
      cases negative with
      | true => exact ⟨'-', _, rfl, rfl, by decide⟩
      | false =>
        obtain ⟨d, ds, hwhole⟩ := List.exists_cons_of_ne_nil hp.some
        have hdigit : d.isDigit = true := hp.whole d (hwhole ▸ List.mem_cons_self)
        refine ⟨d, _, by rw [Parts.text, hwhole]; rfl, ?_, ?_⟩
        · exact isSpace_of_isDigit hdigit
        · rintro rfl
          cases hdigit
  | string s => exact ⟨'"', _, rfl, rfl, by decide⟩
  | array items =>
    cases items with
    | nil => exact ⟨'[', _, rfl, rfl, by decide⟩
    | cons v r => exact ⟨'[', _, rfl, rfl, by decide⟩
  | object ms =>
    cases ms with
    | nil => exact ⟨'\x7b', _, rfl, rfl, by decide⟩
    | cons p r => exact ⟨'\x7b', _, rfl, rfl, by decide⟩

/-- Blanks in front of a token are skipped. -/
theorem skipSpace_append {blanks r : List Char} (hblanks : ∀ c ∈ blanks, isSpace c = true)
    (hr : ∀ c ∈ r.head?, isSpace c = false) : skipSpace (blanks ++ r) = r := by
  rw [skipSpace, List.dropWhile_append_of_pos hblanks]
  cases r with
  | nil => rfl
  | cons c r => exact List.dropWhile_cons_of_neg (by simp [hr c rfl])

theorem skipSpace_gap (level : Nat) {c : Char} (hc : isSpace c = false) (r : List Char) :
    skipSpace (l.gap level ++ c :: r) = c :: r :=
  skipSpace_append (l.gap_blank level) fun _ h => Option.some.inj h ▸ hc

theorem skipSpace_chars {blanks : List Char} (hblanks : ∀ c ∈ blanks, isSpace c = true)
    (level : Nat) (v : Json) (r : List Char) :
    skipSpace (blanks ++ (l.chars level v ++ r)) = l.chars level v ++ r := by
  obtain ⟨c, t, htext, hc, -⟩ := l.head_chars level v
  rw [htext]
  exact skipSpace_append hblanks fun _ h => Option.some.inj h ▸ hc

theorem ends_gap (level : Nat) {r : List Char} (hr : Ends r) : Ends (l.gap level ++ r) := by
  cases hgap : l.gap level with
  | nil => exact hr
  | cons c cs =>
    have hhead := l.gap_head level c (by rw [hgap]; rfl)
    exact fun d hd => .inr (.inr (.inr (Option.some.inj hd ▸ hhead)))

theorem ends_itemChars (level : Nat) (items : List Json) (r : List Char) :
    Ends (l.itemChars level items ++ r) := by
  cases items with
  | nil =>
    rw [itemChars, List.append_assoc]
    exact l.ends_gap level fun c hc => .inr (.inl (Option.some.inj hc).symm)
  | cons v items => exact fun c hc => .inl (Option.some.inj hc).symm

theorem ends_memberChars (level : Nat) (ms : List (String × Json)) (r : List Char) :
    Ends (l.memberChars level ms ++ r) := by
  cases ms with
  | nil =>
    rw [memberChars, List.append_assoc]
    exact l.ends_gap level fun c hc => .inr (.inr (.inl (Option.some.inj hc).symm))
  | cons p ms => exact fun c hc => .inl (Option.some.inj hc).symm

end Layout

/-! ## Reading what is laid out -/

/-- Blanks in front of a value are skipped. -/
theorem readValue_append {blanks : List Char} (hblanks : ∀ c ∈ blanks, isSpace c = true)
    (fuel depth : Nat) (cs : List Char) :
    readValue fuel depth (blanks ++ cs) = readValue fuel depth cs := by
  have hskip : skipSpace (blanks ++ cs) = skipSpace cs := List.dropWhile_append_of_pos hblanks
  cases fuel with
  | zero => rfl
  | succ fuel => rw [readValue, readValue, hskip]

/-- What an opening bracket leads to. -/
theorem readValue_open (fuel depth : Nat) (cs : List Char) :
    readValue (fuel + 1) (depth + 1) ('[' :: cs) =
      match skipSpace cs with
      | [] => ⟨.array [] (some .truncated), none⟩
      | ']' :: r => ⟨.array [] none, some r⟩
      | r => readItems fuel depth r [] := rfl

/-- What an opening brace leads to, where a key follows. -/
theorem readValue_brace {fuel depth : Nat} {k : String} {cs r : List Char}
    (h : skipSpace cs = stringText k ++ r) :
    readValue (fuel + 1) (depth + 1) ('\x7b' :: cs)
      = readMembers fuel depth (stringText k ++ r) [] := by
  have hbrace : skipSpace ('\x7b' :: cs) = '\x7b' :: cs := rfl
  rw [readValue, hbrace]
  simp only [h]
  rfl

/-- What a comma after an item leads to. -/
theorem readItems_of_comma {fuel depth : Nat} {cs r : List Char} {first : Document}
    {acc : List Document} (h : readValue fuel depth cs = ⟨first, some (',' :: r)⟩) :
    readItems (fuel + 1) depth cs acc =
      match skipSpace r with
      | ']' :: _ => ⟨.array (first :: acc).reverse (some .malformed), none⟩
      | r => readItems fuel depth r (first :: acc) := by
  rw [readItems, h]
  rfl

/-- What a key and a colon lead to. -/
theorem readMembers_colon (fuel depth : Nat) (k : String) (cs : List Char)
    (acc : List (Option String × Document)) :
    readMembers (fuel + 1) depth (stringText k ++ ':' :: cs) acc =
      match readValue fuel depth cs with
      | ⟨d, none⟩ => ⟨.object ((some k, d) :: acc).reverse (some (.plain .malformed)), none⟩
      | ⟨d, some r⟩ =>
        match skipSpace r with
        | [] => ⟨.object ((some k, d) :: acc).reverse (some (.plain .truncated)), none⟩
        | '\x7d' :: r => ⟨.object ((some k, d) :: acc).reverse none, some r⟩
        | ',' :: r => readMembers fuel depth (skipSpace r) ((some k, d) :: acc)
        | _ => ⟨.object ((some k, d) :: acc).reverse (some (.plain .malformed)), none⟩ := by
  have hstring : stringText k ++ ':' :: cs
      = '"' :: (k.toList.flatMap escapeChar ++ '"' :: ':' :: cs) := by
    simp [stringText]
  have hread := readString_flatMap k (':' :: cs)
  rw [hstring, readMembers]
  simp only [hread]
  rfl

namespace Layout

variable {l : Layout}

/-- A sequence that does not end at once has a first item. -/
theorem readValue_bracket {fuel depth level : Nat} {v : Json} {r : List Char} :
    readValue (fuel + 1) (depth + 1) ('[' :: (l.gap level ++ (l.chars level v ++ r)))
      = readItems fuel depth (l.chars level v ++ r) [] := by
  have hskip := l.skipSpace_chars (l.gap_blank level) level v r
  obtain ⟨c, t, htext, -, hc⟩ := l.head_chars level v
  rw [readValue_open]
  rw [htext, List.cons_append] at hskip ⊢
  rw [hskip]
  split
  · cases ‹_ :: _ = []›
  · exact absurd (List.cons.inj ‹_›).1 hc
  · rfl

/-- A sequence that goes on after an item has another one. -/
theorem readItems_comma {fuel depth level : Nat} {cs r : List Char} {first : Document} {v : Json}
    {acc : List Document}
    (h : readValue fuel depth cs
      = ⟨first, some (',' :: (l.gap level ++ (l.chars level v ++ r)))⟩) :
    readItems (fuel + 1) depth cs acc
      = readItems fuel depth (l.chars level v ++ r) (first :: acc) := by
  have hskip := l.skipSpace_chars (l.gap_blank level) level v r
  obtain ⟨c, t, htext, -, hc⟩ := l.head_chars level v
  rw [readItems_of_comma h]
  rw [htext, List.cons_append] at hskip ⊢
  rw [hskip]
  split
  · exact absurd (List.cons.inj ‹_›).1 hc
  · rfl

/-- A sequence ends behind its last item. -/
theorem readItems_last {fuel depth level : Nat} {cs r : List Char} {last : Document}
    {acc : List Document}
    (h : readValue fuel depth cs = ⟨last, some (l.itemChars level [] ++ r)⟩) :
    readItems (fuel + 1) depth cs acc = ⟨.array (last :: acc).reverse none, some r⟩ := by
  rw [itemChars, List.append_assoc] at h
  have hskip : skipSpace (l.gap level ++ (']' :: r)) = ']' :: r := l.skipSpace_gap level rfl r
  rw [readItems, h]
  simp only [List.cons_append, List.nil_append]
  rw [hskip]
  rfl

/-- A member is its key and its value; what follows is a comma or a brace. -/
theorem readMembers_key {fuel depth : Nat} {k : String} {cs r : List Char} {first : Document}
    {acc : List (Option String × Document)} (h : readValue fuel depth cs = ⟨first, some r⟩) :
    (∀ r', skipSpace r = '\x7d' :: r' →
      readMembers (fuel + 1) depth (stringText k ++ ':' :: (l.pad ++ cs)) acc
        = ⟨.object ((some k, first) :: acc).reverse none, some r'⟩) ∧
    (∀ r', skipSpace r = ',' :: r' →
      readMembers (fuel + 1) depth (stringText k ++ ':' :: (l.pad ++ cs)) acc
        = readMembers fuel depth (skipSpace r') ((some k, first) :: acc)) := by
  rw [readMembers_colon, readValue_append l.pad_blank, h]
  constructor
  · intro r' hr
    simp only [hr]
  · intro r' hr
    simp only [hr]

/-- What stands in front of a key is skipped. -/
theorem skipSpace_key (level : Nat) (k : String) (r : List Char) :
    skipSpace (l.gap level ++ (stringText k ++ r)) = stringText k ++ r :=
  skipSpace_append (l.gap_blank level) fun _ h => Option.some.inj h ▸ rfl

mutual

/-- A value that is laid out is read back up to where something else begins. -/
theorem readValue_chars : ∀ (v : Json) (fuel depth level : Nat) (r : List Char),
    (l.chars level v).length ≤ fuel → v.nesting ≤ depth → Ends r →
      readValue fuel depth (l.chars level v ++ r) = ⟨v.asText, some r⟩
  | .null, fuel + 1, depth, level, r, _, _, _ => rfl
  | .bool true, fuel + 1, depth, level, r, _, _, _ => rfl
  | .bool false, fuel + 1, depth, level, r, _, _, _ => rfl
  | .number n, fuel + 1, depth, level, r, _, _, h => n.readValue_numberText fuel depth h
  | .string s, fuel + 1, depth, level, r, _, _, _ => readValue_stringText fuel depth s r
  | .array [], fuel + 1, depth + 1, level, r, _, _, _ => rfl
  | .array (v :: items), fuel + 1, depth + 1, level, r, hfuel, hdepth, _ => by
    rw [chars, List.length_cons, List.length_append, List.length_append] at hfuel
    rw [nesting, itemsNesting] at hdepth
    rw [chars, List.cons_append, List.append_assoc, List.append_assoc, readValue_bracket,
      readItems_chars v items fuel depth level r [] (by omega) (by omega) (by omega)]
    rfl
  | .object [], fuel + 1, depth + 1, level, r, _, _, _ => rfl
  | .object ((k, v) :: ms), fuel + 1, depth + 1, level, r, hfuel, hdepth, _ => by
    rw [chars, List.length_cons, List.length_append, List.length_append, List.length_cons,
      List.length_append, List.length_append] at hfuel
    rw [nesting, membersNesting] at hdepth
    rw [chars, List.cons_append, List.append_assoc, List.append_assoc, List.cons_append,
      List.append_assoc, List.append_assoc, readValue_brace (skipSpace_key (level + 1) k _)]
    exact readMembers_chars k v ms fuel depth level r [] (by omega) (by omega) (by omega)
  | v, 0, depth, level, r, hfuel, _, _ => by
    obtain ⟨c, t, htext, -⟩ := l.head_chars level v
    rw [htext] at hfuel
    cases hfuel
termination_by structural _ fuel => fuel

theorem readItems_chars : ∀ (v : Json) (items : List Json) (fuel depth level : Nat)
    (r : List Char) (acc : List Document),
    (l.chars (level + 1) v).length + (l.itemChars level items).length ≤ fuel →
      v.nesting ≤ depth → itemsNesting items ≤ depth →
      readItems fuel depth (l.chars (level + 1) v ++ (l.itemChars level items ++ r)) acc
        = ⟨.array (acc.reverse ++ v.asText :: itemsAsText items) none, some r⟩
  | v, [], fuel + 1, depth, level, r, acc, hfuel, hv, _ => by
    rw [itemChars, List.length_append, List.length_singleton] at hfuel
    rw [readItems_last (readValue_chars v fuel depth (level + 1) _ (by omega) hv
      (l.ends_itemChars level [] r)), List.reverse_cons]
    rfl
  | v, w :: items, fuel + 1, depth, level, r, acc, hfuel, hv, hitems => by
    rw [itemChars, List.length_cons, List.length_append, List.length_append] at hfuel
    rw [itemsNesting] at hitems
    have hfirst := readValue_chars v fuel depth (level + 1) _ (by omega) hv
      (l.ends_itemChars level (w :: items) r)
    rw [itemChars, List.cons_append, List.append_assoc, List.append_assoc] at hfirst ⊢
    rw [readItems_comma hfirst, readItems_chars w items fuel depth level r _ (by omega)
      (by omega) (by omega), List.reverse_cons, List.append_assoc]
    rfl
  | v, items, 0, depth, level, r, acc, hfuel, _, _ => by
    obtain ⟨c, t, htext, -⟩ := l.head_chars (level + 1) v
    rw [htext, List.length_cons] at hfuel
    omega
termination_by structural _ _ fuel => fuel

theorem readMembers_chars : ∀ (k : String) (v : Json) (ms : List (String × Json))
    (fuel depth level : Nat) (r : List Char) (acc : List (Option String × Document)),
    (l.chars (level + 1) v).length + (l.memberChars level ms).length ≤ fuel →
      v.nesting ≤ depth → membersNesting ms ≤ depth →
      readMembers fuel depth (stringText k ++ ':' ::
          (l.pad ++ (l.chars (level + 1) v ++ (l.memberChars level ms ++ r)))) acc
        = ⟨.object (acc.reverse ++ (some k, v.asText) :: membersAsText ms) none, some r⟩
  | k, v, [], fuel + 1, depth, level, r, acc, hfuel, hv, _ => by
    rw [memberChars, List.length_append, List.length_singleton] at hfuel
    have hfirst := readValue_chars v fuel depth (level + 1) _ (by omega) hv
      (l.ends_memberChars level [] r)
    have hend : skipSpace (l.memberChars level [] ++ r) = '\x7d' :: r := by
      rw [memberChars, List.append_assoc]
      exact l.skipSpace_gap level rfl r
    rw [(readMembers_key hfirst).1 r hend, List.reverse_cons]
    rfl
  | k, v, (m, w) :: ms, fuel + 1, depth, level, r, acc, hfuel, hv, hms => by
    rw [memberChars, List.length_cons, List.length_append, List.length_append, List.length_cons,
      List.length_append, List.length_append] at hfuel
    rw [membersNesting] at hms
    have hfirst := readValue_chars v fuel depth (level + 1) _ (by omega) hv
      (l.ends_memberChars level ((m, w) :: ms) r)
    have hnext := readMembers_chars m w ms fuel depth level r ((some k, v.asText) :: acc)
      (by omega) (by omega) (by omega)
    rw [memberChars, List.cons_append, List.append_assoc, List.append_assoc, List.cons_append,
      List.append_assoc, List.append_assoc] at hfirst ⊢
    rw [(readMembers_key hfirst).2 _ rfl, skipSpace_key]
    refine hnext.trans ?_
    rw [List.reverse_cons, List.append_assoc]
    rfl
  | k, v, ms, 0, depth, level, r, acc, hfuel, _, _ => by
    obtain ⟨c, t, htext, -⟩ := l.head_chars (level + 1) v
    rw [htext, List.length_cons] at hfuel
    omega
termination_by structural _ _ _ fuel => fuel

end

/-- A value that is laid out and not nested too deeply reads back as a document. -/
theorem ofText_chars {v : Json} (h : v.nesting ≤ maxDepth) :
    Document.ofText (String.ofList (l.chars 0 v)) = ⟨v.asText, none⟩ := by
  have hfuel : (l.chars 0 v).length ≤ 2 * (l.chars 0 v).length + 2 := by omega
  have hread := readValue_chars v _ maxDepth 0 [] hfuel h fun _ hc => by cases hc
  rw [List.append_nil] at hread
  unfold Document.ofText
  rw [String.toList_ofList]
  dsimp only
  rw [hread]
  rfl

end Layout

/-- A value written on one line reads back as a document. -/
theorem ofText_compact {v : Json} (h : v.nesting ≤ maxDepth) :
    Document.ofText v.compact = ⟨v.asText, none⟩ := by
  rw [Json.compact, ← Layout.chars_oneLine 0 v, Layout.ofText_chars h]

/-- A value spread out over lines reads back as a document. -/
theorem ofText_pretty {v : Json} (h : v.nesting ≤ maxDepth) :
    Document.ofText v.pretty = ⟨v.asText, none⟩ := by
  rw [Json.pretty, ← Layout.chars_lines 0 v, Layout.ofText_chars h]

/-! ## Values through texts -/

namespace Json

mutual

/-- The numbers in a value. -/
def numbers : Json → List Number
  | number n => [n]
  | array items => itemsNumbers items
  | object ms => membersNumbers ms
  | _ => []

/-- The numbers in items. -/
def itemsNumbers : List Json → List Number
  | [] => []
  | v :: r => numbers v ++ itemsNumbers r

/-- The numbers in members. -/
def membersNumbers : List (String × Json) → List Number
  | [] => []
  | (_, v) :: r => numbers v ++ membersNumbers r

end

mutual

/-- A value all of whose numbers are read as what they are is read as what it is. -/
theorem asText_eq_ofJson : ∀ v : Json, (∀ n ∈ v.numbers, n.asText = .number (some n)) →
    v.asText = ofJson v
  | .null, _ | .bool _, _ | .string _, _ => rfl
  | .number n, h => h n (List.mem_singleton_self n)
  | .array items, h => by
    rw [asText, ofJson, itemsAsText_eq_ofItems items h]
  | .object ms, h => by
    rw [asText, ofJson, membersAsText_eq_ofMembers ms h]

theorem itemsAsText_eq_ofItems : ∀ items : List Json,
    (∀ n ∈ itemsNumbers items, n.asText = .number (some n)) → itemsAsText items = ofItems items
  | [], _ => rfl
  | v :: r, h => by
    rw [itemsAsText, ofItems, asText_eq_ofJson v fun n hn => h n (List.mem_append_left _ hn),
      itemsAsText_eq_ofItems r fun n hn => h n (List.mem_append_right _ hn)]

theorem membersAsText_eq_ofMembers : ∀ ms : List (String × Json),
    (∀ n ∈ membersNumbers ms, n.asText = .number (some n)) → membersAsText ms = ofMembers ms
  | [], _ => rfl
  | (k, v) :: r, h => by
    rw [membersAsText, ofMembers, asText_eq_ofJson v fun n hn => h n (List.mem_append_left _ hn),
      membersAsText_eq_ofMembers r fun n hn => h n (List.mem_append_right _ hn)]

end

/-- The text of a value spread out over lines is read as that value, its
    members in key order. -/
theorem parse_pretty {v : Json} (hnumbers : ∀ n ∈ v.numbers, n.asText = .number (some n))
    (hnesting : v.nesting ≤ maxDepth) : parse v.pretty = .ok v.canonical := by
  rw [parse, ofText_pretty hnesting, asText_eq_ofJson v hnumbers]
  show ((ofJson v).toJson >>= fun w => pure w) = _
  rw [toJson_ofJson]
  rfl

end Json

/-! ## Codecs through texts -/

theorem Json.itemsAsText_eq_map (items : List Json) : itemsAsText items = items.map asText := by
  induction items with
  | nil => rfl
  | cons v r ih => rw [itemsAsText, ih, List.map_cons]

theorem Json.membersAsText_eq_map (ms : List (String × Json)) :
    membersAsText ms = ms.map fun p => (some p.1, p.2.asText) := by
  induction ms with
  | nil => rfl
  | cons p r ih => rw [membersAsText, ih, List.map_cons]

theorem Json.itemsNesting_le {items : List Json} {n : Nat} (h : ∀ v ∈ items, v.nesting ≤ n) :
    itemsNesting items ≤ n := by
  induction items with
  | nil => exact Nat.zero_le n
  | cons v r ih =>
    refine max_le (h v List.mem_cons_self) ?_
    exact ih fun w hw => h w (List.mem_cons_of_mem _ hw)

theorem Json.faithful_asText : Faithful asText where
  bool _ := rfl
  string _ := rfl
  int _ := Number.asText_int
  array items := by rw [asText, itemsAsText_eq_map]

namespace Codec

variable {α : Type} {c : Codec α} {a : α}

/-- A text is read as the document that it is read as. -/
theorem ofText_compact (h : (c.write a).nesting ≤ maxDepth) :
    c.ofText (c.write a).compact = c.read (c.write a).asText := by
  rw [ofText, ServingPlane.ofText_compact h]
  show (c.read (c.write a).asText >>= fun b => pure b) = _
  exact bind_pure _

/-- The codec of string lists reads what it wrote. -/
theorem ofText_strings (l : List String) :
    (Codec.list Codec.string).ofText ((Codec.list Codec.string).write l).compact = .ok l := by
  have hreturns : (Codec.list Codec.string).Returns asText l l := by
    refine returns_list faithful_asText ?_
    exact List.forall₂_same.mpr fun s _ => returns_string faithful_asText s
  rw [ofText_compact, show (Codec.list Codec.string).read _ = _ from hreturns]
  have hitems : itemsNesting (l.map Codec.string.write) ≤ 0 :=
    itemsNesting_le fun v hv => by
      obtain ⟨s, -, rfl⟩ := List.mem_map.mp hv
      exact Nat.le_refl 0
  show itemsNesting (l.map Codec.string.write) + 1 ≤ maxDepth
  have hdepth : maxDepth = 127 := rfl
  omega

end Codec

namespace RecordShape.WellNamed

variable {σ : Type} {shape : RecordShape σ}

/-- The text of a record is read field by field. -/
theorem read_text (h : shape.WellNamed) (s : σ) :
    shape.codec.read (shape.codec.write s).asText
      = filling asText s shape.fields shape.initial := by
  show shape.read (asText (.object (shape.writeMembers s))) = _
  rw [asText, membersAsText_eq_map, writeMembers, List.map_map]
  exact h.read_all_fields (List.Perm.refl _)

end RecordShape.WellNamed

end ServingPlane
