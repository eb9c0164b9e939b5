import Mathlib.Tactic.IntervalCases
import ServingPlane.Toml.Printer
import ServingPlane.Toml.Reader

/-! # Reading back written strings

    A string is written in one of four forms, and each is read back in its
    own way.  Inside a basic string every character stands for itself or
    is spelled by an escape that the reader undoes.  Over several lines
    quotes stand for themselves too, but never more than two in a row, so
    that the run of quotes at the end is told apart from the delimiter.
    Which form is chosen only has to make sure that the characters of a
    literal string are ones that may stand in it. -/

namespace ServingPlane.Toml

/-- What is taken of a text stops where the text after it begins otherwise. -/
theorem takeWhile_append {p : Char → Bool} {cs rest : List Char} (h : ∀ c ∈ cs, p c = true)
    (hrest : ∀ c ∈ rest.head?, p c = false) : (cs ++ rest).takeWhile p = cs := by
  have hstop : rest.takeWhile p = [] := by
    cases rest with
    | nil => rfl
    | cons c r => exact List.takeWhile_cons_of_neg (Bool.not_eq_true _ ▸ hrest c rfl)
  rw [List.takeWhile_append_of_pos h, hstop, List.append_nil]

/-! ## Escapes -/

/-- After a backslash these letters stand for a character. -/
def Escapes (letters : List Char) (c : Char) : Prop :=
  ∀ r, readEscape (letters ++ r) = some (c, r) ∧ skipEscapedBreak (letters ++ r) = none

/-- The digits of a control character are those that a reader expects. -/
theorem readHex_hex4 {n : Nat} (h : n < 0x80) (r : List Char) :
    readHex 4 0 (hex4 n ++ r) = some (n, r) := by
  interval_cases n <;> rfl

theorem escapes_quote : Escapes ['"'] '"' := fun _ => ⟨rfl, rfl⟩

theorem escapes_hex4 {c : Char} (h : c.toNat < 0x80) : Escapes ('u' :: hex4 c.toNat) c := by
  intro r
  refine ⟨?_, rfl⟩
  rw [List.cons_append, readEscape, readHex_hex4 h]
  have hcode : charOfCode? c.toNat = some c := by
    rw [charOfCode?, if_pos (.inl (by omega)), Char.ofNat_toNat]
  show (charOfCode? c.toNat).bind (fun d => some (d, r)) = some (c, r)
  rw [hcode]
  rfl

theorem isPlain_of_not_isControl {c : Char} (h : isControl c = false) (hbreak : c ≠ '\n') :
    isPlain c = true := by
  by_cases htab : c = '\t'
  · rw [htab]
    rfl
  · have hlow : ¬ c.toNat < 0x20 := fun hlow => by simp [isControl, hlow, htab, hbreak] at h
    have hdelete : c.toNat ≠ 0x7f := fun hdelete => by simp [isControl, hdelete] at h
    simp [isPlain, Nat.not_lt.mp hlow, hdelete]

theorem toNat_lt_of_isControl {c : Char} (h : isControl c = true) : c.toNat < 0x80 := by
  simp only [isControl, Bool.or_eq_true, Bool.and_eq_true, decide_eq_true_eq, beq_iff_eq] at h
  omega

/-- A character other than a quote is spelled by an escape, or it is a break
    over several lines, or it stands for itself. -/
theorem escapedChars_cons {c : Char} (hc : c ≠ '"') (lines : Bool) (r : List Char) (run : Nat) :
    (∃ letters, Escapes letters c ∧
      escapedChars lines (c :: r) run = '\\' :: (letters ++ escapedChars lines r 0)) ∨
    (c = '\n' ∧ lines = true ∧ escapedChars lines (c :: r) run = '\n' :: escapedChars lines r 0) ∨
    (isPlain c = true ∧ c ≠ '\\' ∧
      escapedChars lines (c :: r) run = c :: escapedChars lines r 0) := by
  rw [escapedChars, if_neg hc]
  by_cases hback : c = '\\'
  · subst hback
    exact .inl ⟨['\\'], fun _ => ⟨rfl, rfl⟩, rfl⟩
  rw [if_neg hback]
  by_cases h8 : c = '\x08'
  · subst h8
    exact .inl ⟨['b'], fun _ => ⟨rfl, rfl⟩, rfl⟩
  rw [if_neg h8]
  by_cases htab : c = '\t'
  · subst htab
    exact .inl ⟨['t'], fun _ => ⟨rfl, rfl⟩, rfl⟩
  rw [if_neg htab]
  by_cases hbreak : c = '\n'
  · subst hbreak
    rw [if_pos rfl]
    cases lines with
    | true => exact .inr (.inl ⟨rfl, rfl, rfl⟩)
    | false => exact .inl ⟨['n'], fun _ => ⟨rfl, rfl⟩, rfl⟩
  rw [if_neg hbreak]
  by_cases hfeed : c = '\x0c'
  · subst hfeed
    exact .inl ⟨['f'], fun _ => ⟨rfl, rfl⟩, rfl⟩
  rw [if_neg hfeed]
  by_cases hreturn : c = '\r'
  · subst hreturn
    exact .inl ⟨['r'], fun _ => ⟨rfl, rfl⟩, rfl⟩
  rw [if_neg hreturn]
  cases hcontrol : isControl c with
  | true => exact .inl ⟨_, escapes_hex4 (toNat_lt_of_isControl hcontrol), rfl⟩
  | false => exact .inr (.inr ⟨isPlain_of_not_isControl hcontrol hbreak, hback, rfl⟩)

/-! ## One line -/

/-- What was escaped for one line is read up to the closing quote. -/
theorem readBasic_escapedChars (cs : List Char) :
    ∀ (run fuel : Nat) (acc rest : List Char), (escapedChars false cs run).length < fuel →
      readBasic fuel (escapedChars false cs run ++ '"' :: rest) acc
        = some (String.ofList (acc.reverse ++ cs), rest) := by
  induction cs with
  | nil =>
    intro run fuel acc rest hfuel
    obtain ⟨fuel, rfl⟩ := Nat.exists_eq_add_one.mpr hfuel
    rw [List.append_nil]
    rfl
  | cons c cs ih =>
    intro run fuel acc rest hfuel
    obtain ⟨fuel, rfl⟩ := Nat.exists_eq_add_one.mpr (Nat.zero_lt_of_lt hfuel)
    have hlast : (c :: acc).reverse ++ cs = acc.reverse ++ c :: cs := by simp
    -- an escape is undone, whatever it stands for
    have hescape : ∀ {letters}, Escapes letters c →
        escapedChars false (c :: cs) run = '\\' :: (letters ++ escapedChars false cs 0) →
        readBasic (fuel + 1) (escapedChars false (c :: cs) run ++ '"' :: rest) acc
          = some (String.ofList (acc.reverse ++ c :: cs), rest) := by
      intro letters hletters htext
      rw [htext, List.length_cons, List.length_append] at hfuel
      rw [htext, List.cons_append, List.append_assoc, readBasic, if_neg (by decide), if_pos rfl,
        (hletters _).1]
      show readBasic fuel (escapedChars false cs 0 ++ '"' :: rest) (c :: acc) = _
      rw [ih 0 fuel (c :: acc) rest (by omega), hlast]
    by_cases hc : c = '"'
    · subst hc
      exact hescape escapes_quote rfl
    rcases escapedChars_cons hc false cs run with
      ⟨letters, hletters, htext⟩ | ⟨-, hlines, -⟩ | ⟨hplain, hback, htext⟩
    · exact hescape hletters htext
    · cases hlines
    · rw [htext, List.length_cons] at hfuel
      rw [htext, List.cons_append, readBasic, if_neg hc, if_neg hback, if_pos hplain,
        ih 0 fuel (c :: acc) rest (by omega), hlast]

/-- Plain characters other than the quote are a literal string as they are. -/
theorem readLiteral_append {cs : List Char} (h : ∀ c ∈ cs, isPlain c = true ∧ c ≠ '\'')
    (rest : List Char) : readLiteral (cs ++ '\'' :: rest) = some (String.ofList cs, rest) := by
  have hbody : (cs ++ '\'' :: rest).takeWhile (fun c => isPlain c && c != '\'') = cs := by
    rw [List.takeWhile_append_of_pos fun c hc => by simp [h c hc]]
    simp
  simp only [readLiteral]
  rw [hbody, List.drop_left]
  rfl

/-! ## Several lines -/

/-- How the text between the delimiters of a string over several lines
    spells what it holds: at most two quotes stand in a row. -/
inductive Spells (quote : Char) (escapes : Bool) : List Char → List Char → Prop where
  | done : Spells quote escapes [] []
  | plain {c : Char} {text content : List Char} (hplain : isPlain c = true) (hquote : c ≠ quote)
    (hback : escapes = true → c ≠ '\\') (hrest : Spells quote escapes text content) :
    Spells quote escapes (c :: text) (c :: content)
  | newline {text content : List Char} (hrest : Spells quote escapes text content) :
    Spells quote escapes ('\n' :: text) ('\n' :: content)
  | escape {letters : List Char} {c : Char} {text content : List Char} (hescapes : escapes = true)
    (hletters : Escapes letters c) (hrest : Spells quote escapes text content) :
    Spells quote escapes ('\\' :: (letters ++ text)) (c :: content)
  | quotes {n : Nat} {text content : List Char} (hn : n < 2) (hnext : text.head? ≠ some quote)
    (hrest : Spells quote escapes text content) :
    Spells quote escapes (List.replicate (n + 1) quote ++ text)
      (List.replicate (n + 1) quote ++ content)

section Multiline

variable {quote : Char} {escapes : Bool}

/-- A run of quotes is as long as it looks. -/
theorem takeWhile_quotes (n : Nat) {rest : List Char} (h : rest.head? ≠ some quote) :
    (List.replicate n quote ++ rest).takeWhile (· == quote) = List.replicate n quote := by
  refine takeWhile_append (fun c hc => beq_iff_eq.mpr (List.eq_of_mem_replicate hc)) ?_
  intro c hc
  refine beq_false_of_ne fun heq => h ?_
  rw [← heq]
  exact hc

/-- The delimiter ends the string, and up to two quotes before it belong to it. -/
theorem readMultiline_end {k : Nat} (hk : k ≤ 2) {rest : List Char} (hrest : rest.head? ≠ some quote)
    (fuel : Nat) (acc : List Char) :
    readMultiline quote escapes (fuel + 1)
        (List.replicate k quote ++ (List.replicate 3 quote ++ rest)) acc
      = some (String.ofList (acc.reverse ++ List.replicate k quote), rest) := by
  have hrun : List.replicate k quote ++ (List.replicate 3 quote ++ rest)
      = quote :: (List.replicate (k + 2) quote ++ rest) := by
    rw [← List.append_assoc, List.replicate_append_replicate]
    rfl
  have hquotes : quoteRun (1 + (k + 2)) = (k, true) := by
    have hkept : min (1 + (k + 2) - 3) 2 = k := by omega
    rw [quoteRun, if_neg (by omega), hkept]
  have hdrop : (quote :: (List.replicate (k + 2) quote ++ rest)).drop (k + 3) = rest := by
    rw [List.drop_succ_cons]
    exact List.drop_left' List.length_replicate
  rw [hrun, readMultiline, if_pos rfl, takeWhile_quotes _ hrest, List.length_replicate]
  dsimp only
  rw [hquotes]
  dsimp only
  rw [if_pos rfl, hdrop, List.reverse_append, List.reverse_replicate]

/-- One or two quotes before anything else stand for themselves. -/
theorem readMultiline_quotes {n : Nat} (hn : n < 2) {r : List Char} (hr : r.head? ≠ some quote)
    (fuel : Nat) (acc : List Char) :
    readMultiline quote escapes (fuel + 1) (List.replicate (n + 1) quote ++ r) acc
      = readMultiline quote escapes fuel r (List.replicate (n + 1) quote ++ acc) := by
  have hquotes : quoteRun (1 + n) = (1 + n, false) := by rw [quoteRun, if_pos (by omega)]
  have hdrop : (quote :: (List.replicate n quote ++ r)).drop (1 + n) = r := by
    rw [Nat.add_comm, List.drop_succ_cons]
    exact List.drop_left' List.length_replicate
  rw [List.replicate_succ, List.cons_append, readMultiline, if_pos rfl, takeWhile_quotes _ hr,
    List.length_replicate]
  dsimp only
  rw [hquotes]
  dsimp only
  rw [if_neg Bool.false_ne_true, hdrop, Nat.add_comm]
  rfl

/-- A plain character stands for itself. -/
theorem readMultiline_plain {c : Char} (hplain : isPlain c = true) (hc : c ≠ quote)
    (hback : escapes = true → c ≠ '\\') (fuel : Nat) (r acc : List Char) :
    readMultiline quote escapes (fuel + 1) (c :: r) acc
      = readMultiline quote escapes fuel r (c :: acc) := by
  have hnoEscape : ¬ (escapes && c == '\\') = true := by
    simpa using hback
  have hnoBreak : readBreak (c :: r) = none := by
    have hfeed : c ≠ '\n' := by rintro rfl; cases hplain
    have hreturn : c ≠ '\r' := by rintro rfl; cases hplain
    simp [readBreak, hfeed, hreturn]
  rw [readMultiline, if_neg hc, if_neg hnoEscape, hnoBreak]
  dsimp only
  rw [if_pos hplain]

/-- So does a break. -/
theorem readMultiline_break (hquote : '\n' ≠ quote) (fuel : Nat) (r acc : List Char) :
    readMultiline quote escapes (fuel + 1) ('\n' :: r) acc
      = readMultiline quote escapes fuel r ('\n' :: acc) := by
  rw [readMultiline, if_neg hquote, if_neg (by simp)]
  rfl

/-- An escape stands for its character. -/
theorem readMultiline_escape {letters : List Char} {c : Char} (hescapes : escapes = true)
    (hquote : '\\' ≠ quote) (hletters : Escapes letters c) (fuel : Nat) (r acc : List Char) :
    readMultiline quote escapes (fuel + 1) ('\\' :: (letters ++ r)) acc
      = readMultiline quote escapes fuel r (c :: acc) := by
  obtain ⟨hread, hskip⟩ := hletters r
  rw [readMultiline, if_neg hquote, if_pos (by simp [hescapes]), hskip]
  dsimp only
  rw [hread]
  rfl

/-- A text that spells something is read as that, up to the delimiter. -/
theorem readMultiline_of_spells {text content : List Char} (hquote : quote = '"' ∨ quote = '\'')
    (h : Spells quote escapes text content) {rest : List Char} (hrest : rest.head? ≠ some quote) :
    ∀ (fuel : Nat) (acc : List Char), text.length < fuel →
      readMultiline quote escapes fuel (text ++ (List.replicate 3 quote ++ rest)) acc
        = some (String.ofList (acc.reverse ++ content), rest) := by
  have hbreak : '\n' ≠ quote := by rcases hquote with rfl | rfl <;> decide
  have hslash : '\\' ≠ quote := by rcases hquote with rfl | rfl <;> decide
  have hlast : ∀ (c : Char) (acc content : List Char),
      (c :: acc).reverse ++ content = acc.reverse ++ c :: content := by simp
  induction h with
  | done =>
    intro fuel acc hfuel
    obtain ⟨fuel, rfl⟩ := Nat.exists_eq_add_one.mpr hfuel
    exact readMultiline_end (k := 0) (Nat.zero_le 2) hrest fuel acc
  | plain hplain hc hback _ ih =>
    intro fuel acc hfuel
    obtain ⟨fuel, rfl⟩ := Nat.exists_eq_add_one.mpr (Nat.zero_lt_of_lt hfuel)
    rw [List.cons_append, readMultiline_plain hplain hc hback, ih fuel _ (by simpa using hfuel),
      hlast]
  | newline _ ih =>
    intro fuel acc hfuel
    obtain ⟨fuel, rfl⟩ := Nat.exists_eq_add_one.mpr (Nat.zero_lt_of_lt hfuel)
    rw [List.cons_append, readMultiline_break hbreak, ih fuel _ (by simpa using hfuel), hlast]
  | escape hescapes hletters _ ih =>
    intro fuel acc hfuel
    obtain ⟨fuel, rfl⟩ := Nat.exists_eq_add_one.mpr (Nat.zero_lt_of_lt hfuel)
    rw [List.length_cons, List.length_append] at hfuel
    rw [List.cons_append, List.append_assoc, readMultiline_escape hescapes hslash hletters,
      ih fuel _ (by omega), hlast]
  | @quotes n text content hn hnext hspells ih =>
    intro fuel acc hfuel
    obtain ⟨fuel, rfl⟩ := Nat.exists_eq_add_one.mpr (Nat.zero_lt_of_lt hfuel)
    rw [List.length_append, List.length_replicate] at hfuel
    cases text with
    | nil =>
      -- the run goes on into the delimiter
      cases hspells
      rw [List.append_nil]
      exact readMultiline_end hn hrest fuel acc
    | cons d text =>
      rw [List.append_assoc, readMultiline_quotes hn (by exact hnext), ih fuel _ (by omega),
        List.reverse_append, List.reverse_replicate, List.append_assoc]

/-- A run of up to two quotes, or of none. -/
theorem Spells.run {text content : List Char} (h : Spells quote escapes text content)
    (hnext : text.head? ≠ some quote) {run : Nat} (hrun : run ≤ 2) :
    Spells quote escapes (List.replicate run quote ++ text)
      (List.replicate run quote ++ content) := by
  cases run with
  | zero => exact h
  | succ n => exact .quotes hrun hnext h

end Multiline

theorem head?_escapedChars {c : Char} (hc : c ≠ '"') (lines : Bool) (r : List Char) (run : Nat) :
    (escapedChars lines (c :: r) run).head? ≠ some '"' := by
  rcases escapedChars_cons hc lines r run with ⟨_, -, htext⟩ | ⟨-, -, htext⟩ | ⟨-, -, htext⟩
  · simp [htext]
  · simp [htext]
  · simpa [htext] using hc

/-- What was escaped over several lines spells the string; `run` quotes stand before it. -/
theorem spells_escapedChars (cs : List Char) {run : Nat} (hrun : run ≤ 2) :
    Spells '"' true (List.replicate run '"' ++ escapedChars true cs run)
      (List.replicate run '"' ++ cs) := by
  induction cs generalizing run with
  | nil => exact Spells.done.run (by simp) hrun
  | cons c cs ih =>
    by_cases hc : c = '"'
    · subst hc
      by_cases hlast : run < 2
      · have hmore := ih (show run + 1 ≤ 2 from hlast)
        rw [List.replicate_succ', List.append_assoc, List.append_assoc] at hmore
        rw [escapedChars, if_pos rfl, if_pos (by simp [hlast])]
        exact hmore
      · rw [escapedChars, if_pos rfl, if_neg (by simp [hlast])]
        exact (Spells.escape rfl escapes_quote (ih (Nat.zero_le 2))).run (by simp) hrun
    · refine Spells.run ?_ (head?_escapedChars hc true cs run) hrun
      have hrest : Spells '"' true (escapedChars true cs 0) cs := ih (Nat.zero_le 2)
      rcases escapedChars_cons hc true cs run with
        ⟨letters, hletters, htext⟩ | ⟨rfl, -, htext⟩ | ⟨hplain, hback, htext⟩
      · exact htext ▸ .escape rfl hletters hrest
      · exact htext ▸ .newline hrest
      · exact htext ▸ .plain hplain hc (fun _ => hback) hrest

theorem le_longestRun (c : Char) (cs : List Char) (run : Nat) : run ≤ longestRun c cs run := by
  induction cs generalizing run with
  | nil => exact Nat.le_refl run
  | cons d cs ih =>
    rw [longestRun]
    split
    · exact Nat.le_trans (Nat.le_succ run) (ih _)
    · exact Nat.le_max_left ..

/-- Characters that may stand in a literal string spell themselves. -/
theorem spells_literal {cs : List Char} (h : ∀ c ∈ cs, isControl c = false) {run : Nat}
    (hrun : run ≤ 2) (hlongest : longestRun '\'' cs run ≤ 2) :
    Spells '\'' false (List.replicate run '\'' ++ cs) (List.replicate run '\'' ++ cs) := by
  induction cs generalizing run with
  | nil => exact Spells.done.run (by simp) hrun
  | cons c cs ih =>
    have hcs : ∀ d ∈ cs, isControl d = false := fun d hd => h d (List.mem_cons_of_mem _ hd)
    rw [longestRun] at hlongest
    by_cases hc : c = '\''
    · subst hc
      rw [if_pos rfl] at hlongest
      by_cases hlast : run < 2
      · have hmore := ih hcs (show run + 1 ≤ 2 from hlast) hlongest
        rw [List.replicate_succ', List.append_assoc] at hmore
        exact hmore
      · have hle := le_longestRun '\'' cs (run + 1)
        omega
    · rw [if_neg hc] at hlongest
      refine Spells.run ?_ (by simpa using hc) hrun
      have hrest : Spells '\'' false cs cs := ih hcs (Nat.zero_le 2) (by omega)
      by_cases hbreak : c = '\n'
      · subst hbreak
        exact .newline hrest
      · refine .plain (isPlain_of_not_isControl (h c List.mem_cons_self) hbreak) hc ?_ hrest
        rintro ⟨⟩

/-! ## The form that is chosen -/

theorem not_mem_of_longestRun {c : Char} {cs : List Char} (h : longestRun c cs 0 = 0) : c ∉ cs := by
  induction cs with
  | nil => exact List.not_mem_nil
  | cons d cs ih =>
    rw [longestRun] at h
    by_cases hd : d = c
    · rw [if_pos hd] at h
      have hle := le_longestRun c cs (0 + 1)
      omega
    · rw [if_neg hd] at h
      exact List.not_mem_cons_of_ne_of_not_mem (Ne.symm hd) (ih (by omega))

theorem traits_of_break {cs : List Char} (h : (traits cs).break_ = false) : '\n' ∉ cs := by
  simpa [traits] using h

theorem traits_of_controls {cs : List Char} (h : (traits cs).controls = false) :
    ∀ c ∈ cs, isControl c = false := by
  simpa [traits] using h

/-- A literal string has no quotes, and neither breaks nor other controls. -/
theorem literal_of_form {t : StringTraits} (h : t.form = .literal) :
    t.controls = false ∧ t.singleQuotes = 0 ∧ t.break_ = false := by
  simp only [StringTraits.form] at h
  grind

/-- Over several lines it has no controls but breaks, and no three quotes in a row. -/
theorem literalLines_of_form {t : StringTraits} (h : t.form = .literalLines) :
    t.controls = false ∧ t.singleQuotes ≤ 2 := by
  simp only [StringTraits.form] at h
  grind

/-- Neither a break nor half of one begins the text. -/
theorem skipFirstBreak_of_head? {cs : List Char} (h : ∀ c ∈ cs.head?, c ≠ '\n' ∧ c ≠ '\r') :
    skipFirstBreak cs = cs := by
  cases cs with
  | nil => rfl
  | cons c r =>
    obtain ⟨hfeed, hreturn⟩ := h c rfl
    simp [skipFirstBreak, readBreak, hfeed, hreturn]

theorem readString_basic {r : List Char} (h : ∀ t, r ≠ '"' :: '"' :: t) :
    readString ('"' :: r) = readBasic (r.length + 1) r [] := by
  unfold readString
  split
  · rename_i t heq
    exact absurd (List.cons.inj heq).2 (h t)
  · rename_i heq
    exact absurd (List.cons.inj heq).1 (by decide)
  · rename_i heq
    rw [(List.cons.inj heq).2]
  · rename_i heq
    exact absurd (List.cons.inj heq).1 (by decide)
  · rename_i hnone _
    exact absurd rfl (hnone r)

theorem readString_literal {r : List Char} (h : r.head? ≠ some '\'') :
    readString ('\'' :: r) = readLiteral r := by
  unfold readString
  split
  · rename_i heq
    exact absurd (List.cons.inj heq).1 (by decide)
  · rename_i heq
    rw [(List.cons.inj heq).2] at h
    exact absurd rfl h
  · rename_i heq
    exact absurd (List.cons.inj heq).1 (by decide)
  · rename_i heq
    rw [(List.cons.inj heq).2]
  · rename_i hnone
    exact absurd rfl (hnone r)

/-- The break after an opening delimiter is dropped, and no other is. -/
theorem skipFirstBreak_opening (quote : Char) {cs body : List Char}
    (h : (traits cs).break_ = false → ∀ c ∈ body.head?, c ≠ '\n' ∧ c ≠ '\r') :
    ∃ r, opening quote (traits cs) ++ body = quote :: quote :: quote :: r ∧
      skipFirstBreak r = body := by
  cases hbreak : (traits cs).break_ with
  | true =>
    refine ⟨'\n' :: body, ?_, rfl⟩
    rw [opening, hbreak]
    rfl
  | false =>
    refine ⟨body, ?_, skipFirstBreak_of_head? (h hbreak)⟩
    rw [opening, hbreak]
    rfl

theorem readString_lines {quote : Char} {cs text : List Char}
    (hquote : quote = '"' ∨ quote = '\'') (hspells : Spells quote (quote == '"') text cs)
    (hopening : (traits cs).break_ = false → ∀ c ∈ text.head?, c ≠ '\n' ∧ c ≠ '\r')
    {rest : List Char} (hrest : rest.head? ≠ some quote) :
    readString (opening quote (traits cs) ++ (text ++ (List.replicate 3 quote ++ rest)))
      = some (String.ofList cs, rest) := by
  have hbody : (traits cs).break_ = false →
      ∀ c ∈ (text ++ (List.replicate 3 quote ++ rest)).head?, c ≠ '\n' ∧ c ≠ '\r' := by
    intro hbreak c hc
    cases text with
    | nil =>
      obtain rfl : quote = c := Option.some.inj hc
      rcases hquote with rfl | rfl <;> decide
    | cons d text => exact hopening hbreak c hc
  obtain ⟨r, htext, hskip⟩ := skipFirstBreak_opening quote hbody
  have hread := readMultiline_of_spells hquote hspells hrest
    ((text ++ (List.replicate 3 quote ++ rest)).length + 1) []
    (by rw [List.length_append]; omega)
  rw [htext]
  rcases hquote with rfl | rfl
  · show readMultiline '"' true ((skipFirstBreak r).length + 1) (skipFirstBreak r) [] = _
    rw [hskip]
    exact hread
  · show readMultiline '\'' false ((skipFirstBreak r).length + 1) (skipFirstBreak r) [] = _
    rw [hskip]
    exact hread

theorem head?_escapedChars_lines {cs : List Char} (h : '\n' ∉ cs) :
    ∀ c ∈ (escapedChars true cs 0).head?, c ≠ '\n' ∧ c ≠ '\r' := by
  cases cs with
  | nil => rintro c ⟨⟩
  | cons d r =>
    intro c hc
    by_cases hd : d = '"'
    · subst hd
      obtain rfl : '"' = c := Option.some.inj hc
      decide
    · rcases escapedChars_cons hd true r 0 with
        ⟨_, -, htext⟩ | ⟨rfl, -, -⟩ | ⟨hplain, -, htext⟩
      · rw [htext] at hc
        obtain rfl : '\\' = c := Option.some.inj hc
        decide
      · exact absurd List.mem_cons_self h
      · rw [htext] at hc
        obtain rfl : d = c := Option.some.inj hc
        constructor
        · rintro rfl
          cases hplain
        · rintro rfl
          cases hplain

/-- A string between single double quotes. -/
theorem readString_escapedChars (cs : List Char) {rest : List Char} (hrest : rest.head? ≠ some '"') :
    readString ('"' :: (escapedChars false cs 0 ++ '"' :: rest)) = some (String.ofList cs, rest) := by
  rw [readString_basic, readBasic_escapedChars]
  · rfl
  · rw [List.length_append]
    omega
  · -- no second quote follows the first unless the string is empty
    intro t htext
    cases cs with
    | nil => exact hrest (congrArg List.head? (List.cons.inj htext).2)
    | cons c cs =>
      by_cases hc : c = '"'
      · subst hc
        cases htext
      · rcases escapedChars_cons hc false cs 0 with
          ⟨_, -, hfirst⟩ | ⟨-, hlines, -⟩ | ⟨-, -, hfirst⟩
        · rw [hfirst] at htext
          cases htext
        · cases hlines
        · rw [hfirst] at htext
          exact hc (List.cons.inj htext).1

/-- A string between single quotes. -/
theorem readString_literalChars {cs : List Char} (hcs : cs ≠ [])
    (hplain : ∀ c ∈ cs, isPlain c = true ∧ c ≠ '\'') (rest : List Char) :
    readString ('\'' :: (cs ++ '\'' :: rest)) = some (String.ofList cs, rest) := by
  obtain ⟨c, r, rfl⟩ := List.exists_cons_of_ne_nil hcs
  have hhead : (c :: r ++ '\'' :: rest).head? ≠ some '\'' := by
    simpa using (hplain c List.mem_cons_self).2
  rw [readString_literal hhead, readLiteral_append hplain]

/-- A written string is read back in front of whatever is no quote. -/
theorem readString_stringText (s : String) {rest : List Char} (hdouble : rest.head? ≠ some '"')
    (hsingle : rest.head? ≠ some '\'') :
    readString ((stringText s).toList ++ rest) = some (s, rest) := by
  rw [stringText, String.toList_ofList]
  generalize hcs : s.toList = cs
  obtain rfl : s = String.ofList cs := by rw [← hcs, String.ofList_toList]
  cases hform : (traits cs).form with
  | basic =>
    show readString ('"' :: (escapedChars false cs 0 ++ ['"'] ++ rest)) = _
    rw [List.append_assoc, List.singleton_append, readString_escapedChars cs hdouble]
  | literal =>
    obtain ⟨hcontrols, hquotes, hbreak⟩ := literal_of_form hform
    have hplain : ∀ c ∈ cs, isPlain c = true ∧ c ≠ '\'' := by
      refine fun c hc => ⟨isPlain_of_not_isControl (traits_of_controls hcontrols c hc) ?_, ?_⟩
      · rintro rfl
        exact traits_of_break hbreak hc
      · rintro rfl
        exact not_mem_of_longestRun hquotes hc
    have hsome : cs ≠ [] := by
      rintro rfl
      cases hform
    show readString ('\'' :: (cs ++ ['\''] ++ rest)) = _
    rw [List.append_assoc, List.singleton_append, readString_literalChars hsome hplain]
  | basicLines =>
    dsimp only
    rw [List.append_assoc, List.append_assoc]
    exact readString_lines (.inl rfl) (spells_escapedChars cs (Nat.zero_le 2))
      (fun hbreak => head?_escapedChars_lines (traits_of_break hbreak)) hdouble
  | literalLines =>
    obtain ⟨hcontrols, hquotes⟩ := literalLines_of_form hform
    have hall := traits_of_controls hcontrols
    dsimp only
    rw [List.append_assoc, List.append_assoc]
    refine readString_lines (.inr rfl) (spells_literal hall (Nat.zero_le 2) hquotes) ?_ hsingle
    intro hbreak c hc
    have hmem := List.mem_of_mem_head? hc
    constructor
    · rintro rfl
      exact traits_of_break hbreak hmem
    · rintro rfl
      cases hall _ hmem

end ServingPlane.Toml
