import Mathlib.Data.List.SplitBy
import Mathlib.Data.List.TakeWhile
import ServingPlane.Text.Blank

/-! # White space around and between

    Trimming takes off all white space at both ends and nothing else, so
    whatever blanks stand around a text without any, it is the text that
    is left.  Lines are what stands between two line feeds, for whoever
    does not look at empty lines and at a carriage return at the end. -/

namespace ServingPlane.Text

/-- Nothing but white space. -/
def Blank (cs : List Char) : Prop := ∀ c ∈ cs, isBlank c = true

/-- No white space at all. -/
def Solid (cs : List Char) : Prop := ∀ c ∈ cs, isBlank c = false

instance : DecidablePred Blank := fun cs => List.decidableBAll (isBlank · = true) cs

/-! ## Trimming -/

theorem trimStart_append {before : List Char} (h : Blank before) (cs : List Char) :
    trimStart (before ++ cs) = trimStart cs :=
  List.dropWhile_append_of_pos h

theorem trimStart_of_blank {cs : List Char} (h : Blank cs) : trimStart cs = [] :=
  List.dropWhile_eq_nil_iff.mpr h

/-- Nothing is left of a blank text. -/
theorem trimBlanks_of_blank {cs : List Char} (h : Blank cs) : trimBlanks cs = [] := by
  simp only [trimBlanks]
  rw [trimStart_of_blank h]
  rfl

theorem dropEndWhile_append {after : List Char} (h : Blank after) (cs : List Char) :
    dropEndWhile isBlank (cs ++ after) = dropEndWhile isBlank cs := by
  have hafter : ∀ c ∈ after.reverse, isBlank c = true := fun c hc => h c (List.mem_reverse.mp hc)
  simp only [dropEndWhile]
  rw [List.reverse_append, List.dropWhile_append_of_pos hafter]

/-- Blanks around a text do not count. -/
theorem trimBlanks_around {before after : List Char} (hbefore : Blank before) (hafter : Blank after)
    (cs : List Char) : trimBlanks (before ++ cs ++ after) = trimBlanks cs := by
  simp only [trimBlanks]
  rw [List.append_assoc, trimStart_append hbefore]
  -- either all of the text is blank, or what starts it is not
  have hsplit : (cs ++ after).dropWhile isBlank = if (cs.dropWhile isBlank).isEmpty
      then after.dropWhile isBlank else cs.dropWhile isBlank ++ after := List.dropWhile_append
  cases hcs : trimStart cs with
  | nil =>
    rw [show List.dropWhile isBlank cs = [] from hcs, List.isEmpty_nil, if_pos rfl] at hsplit
    have hall : trimStart (cs ++ after) = [] := hsplit.trans (trimStart_of_blank hafter)
    rw [hall]
  | cons c r =>
    rw [show List.dropWhile isBlank cs = c :: r from hcs, List.isEmpty_cons,
      if_neg Bool.false_ne_true] at hsplit
    have hrest : trimStart (cs ++ after) = c :: r ++ after := hsplit
    rw [hrest, dropEndWhile_append hafter]

theorem trimBlanks_of_solid {cs : List Char} (h : Solid cs) : trimBlanks cs = cs := by
  have hself : ∀ {l : List Char}, Solid l → l.dropWhile isBlank = l := by
    intro l hl
    cases l with
    | nil => rfl
    | cons c r => exact List.dropWhile_cons_of_neg (by simp [hl c List.mem_cons_self])
  have hreverse : Solid cs.reverse := fun c hc => h c (List.mem_reverse.mp hc)
  simp only [trimBlanks, trimStart, dropEndWhile]
  rw [hself h, hself hreverse, List.reverse_reverse]

/-- What is trimmed off is white space. -/
theorem exists_trimBlanks (cs : List Char) :
    ∃ before after, Blank before ∧ Blank after ∧ cs = before ++ trimBlanks cs ++ after := by
  refine ⟨cs.takeWhile isBlank, ((trimStart cs).reverse.takeWhile isBlank).reverse, ?_, ?_, ?_⟩
  · exact fun c hc => List.mem_takeWhile_imp hc
  · exact fun c hc => List.mem_takeWhile_imp (List.mem_reverse.mp hc)
  · have hend : trimBlanks cs ++ ((trimStart cs).reverse.takeWhile isBlank).reverse
        = trimStart cs := by
      simp only [trimBlanks, dropEndWhile]
      rw [← List.reverse_append, List.takeWhile_append_dropWhile, List.reverse_reverse]
    rw [List.append_assoc, hend]
    exact (List.takeWhile_append_dropWhile ..).symm

/-- A text without white space is what is left of another by trimming if
    and only if it stands there between blanks. -/
theorem trimBlanks_eq_iff {cs core : List Char} (h : Solid core) :
    trimBlanks cs = core ↔
      ∃ before after, Blank before ∧ Blank after ∧ cs = before ++ core ++ after := by
  constructor
  · rintro rfl
    exact exists_trimBlanks cs
  · rintro ⟨before, after, hbefore, hafter, rfl⟩
    rw [trimBlanks_around hbefore hafter, trimBlanks_of_solid h]

theorem trim_eq_iff {given s : String} : trim given = s ↔ trimBlanks given.toList = s.toList := by
  simp only [trim]
  constructor
  · rintro rfl
    exact String.toList_ofList.symm
  · intro h
    rw [h]
    exact String.ofList_toList

theorem allBlank_iff {s : String} : allBlank s = true ↔ Blank s.toList := List.all_eq_true

/-- A text without white space is blank only if it is empty. -/
theorem eq_empty_of_blank {s : String} (hsolid : Solid s.toList) (hblank : Blank s.toList) :
    s = "" := by
  refine String.toList_eq_nil_iff.mp (List.eq_nil_iff_forall_not_mem.mpr fun c hc => ?_)
  exact absurd (hblank c hc) (Bool.eq_false_iff.mp (hsolid c hc))

/-! ## Lines -/

/-- The first line ends at the first line feed, and has no carriage return before it. -/
theorem lines_append {l : List Char} (h : '\n' ∉ l) (rest : List Char) :
    ∃ line, (l = line ∨ l = line ++ ['\r']) ∧ lines (l ++ '\n' :: rest) = line :: lines rest := by
  have hchain : (l ++ ['\n']).IsChain fun a _ => a != '\n' := by
    refine List.Pairwise.isChain (List.pairwise_append.mpr ⟨?_, List.pairwise_singleton .., ?_⟩)
    · refine List.pairwise_of_forall_mem_list fun a ha _ _ => ?_
      exact bne_iff_ne.mpr (ne_of_mem_of_not_mem ha h)
    · exact fun a ha _ _ => bne_iff_ne.mpr (ne_of_mem_of_not_mem ha h)
  have hpieces : (l ++ '\n' :: rest).splitBy (fun a _ => a != '\n')
      = (l ++ ['\n']) :: rest.splitBy fun a _ => a != '\n' := by
    rw [List.append_cons, List.splitBy_append fun a ha _ _ => ?_,
      List.splitBy_of_isChain (List.append_ne_nil_of_right_ne_nil _ (List.cons_ne_nil _ _)) hchain]
    · rfl
    · rw [List.getLast?_concat] at ha
      cases ha
      rfl
  simp only [lines]
  rw [hpieces, List.map_cons, List.reverse_append, List.reverse_singleton]
  cases hl : l.reverse with
  | nil =>
    obtain rfl := List.reverse_eq_nil_iff.mp hl
    exact ⟨[], .inl rfl, rfl⟩
  | cons c r =>
    obtain rfl : l = r.reverse ++ [c] := by rw [← List.reverse_cons, ← hl, List.reverse_reverse]
    by_cases hc : c = '\r'
    · subst hc
      exact ⟨r.reverse, .inr rfl, rfl⟩
    · refine ⟨r.reverse ++ [c], .inl rfl, ?_⟩
      rw [← List.reverse_cons]
      congr 1
      simp only [List.singleton_append]
      split
      · rename_i heq
        cases heq
        exact absurd rfl hc
      · rename_i heq
        cases heq
        rfl
      · rename_i hnot
        exact absurd rfl (hnot _)

/-- A text without a line feed is one line, if it is not empty. -/
theorem lines_of_not_mem {l : List Char} (h : '\n' ∉ l) :
    lines l = if l = [] then [] else [l] := by
  by_cases hl : l = []
  · rw [if_pos hl, hl]
    rfl
  · have hchain : l.IsChain fun a _ => a != '\n' := by
      refine List.Pairwise.isChain (List.pairwise_of_forall_mem_list fun a ha _ _ => ?_)
      exact bne_iff_ne.mpr (ne_of_mem_of_not_mem ha h)
    simp only [lines]
    rw [if_neg hl, List.splitBy_of_isChain hl hchain, List.map_singleton]
    congr 1
    split
    · rename_i heq
      exact absurd (List.mem_reverse.mp (heq ▸ List.mem_cons_self)) h
    · rename_i heq
      exact absurd (List.mem_reverse.mp (heq ▸ List.mem_cons_self)) h
    · rfl

/-- What holds of a text without a line feed, and of a line before a text
    that it holds of, holds of every text. -/
theorem line_induction {motive : List Char → Prop} (last : ∀ l, '\n' ∉ l → motive l)
    (line : ∀ l rest, '\n' ∉ l → motive rest → motive (l ++ '\n' :: rest)) (cs : List Char) :
    motive cs := by
  induction hn : cs.length using Nat.strongRecOn generalizing cs with
  | ind n ih =>
    by_cases hmem : '\n' ∈ cs
    · obtain ⟨l, rest, rfl, hl⟩ := List.eq_append_cons_of_mem hmem
      have hlt : rest.length < n := by
        rw [← hn, List.length_append, List.length_cons]
        omega
      exact line l rest hl (ih rest.length hlt rest rfl)
    · exact last cs hmem

/-! For whoever reads the same from a line with a carriage return at its
    end, and nothing from an empty one, the lines are what stands between
    line feeds, and a carriage return before a line feed does not count. -/

variable {α : Type} {read : List Char → Option α} (hreturn : ∀ l, read (l ++ ['\r']) = read l)

include hreturn

theorem filterMap_lines (hempty : read [] = none) (cs : List Char) :
    (lines cs).filterMap read = (cs.splitOn '\n').filterMap read := by
  induction cs using line_induction with
  | last l hl =>
    rw [lines_of_not_mem hl, List.splitOn_eq_singleton hl]
    by_cases hnil : l = []
    · rw [if_pos hnil, hnil, List.filterMap_cons, hempty]
    · rw [if_neg hnil]
  | line l rest hl ih =>
    obtain ⟨line, hline, hlines⟩ := lines_append hl rest
    have hread : read line = read l := by
      rcases hline with rfl | rfl
      · rfl
      · exact (hreturn line).symm
    rw [hlines, List.splitOn_append_cons_self, List.filterMap_append, List.splitOn_eq_singleton hl,
      ← ih, List.filterMap_cons, List.filterMap_cons, hread]
    cases read l with
    | _ => rfl

theorem filterMap_splitOn_return (cs : List Char) :
    ((cs ++ ['\r']).splitOn '\n').filterMap read = (cs.splitOn '\n').filterMap read := by
  induction cs using line_induction with
  | last l hl =>
    have hl' : '\n' ∉ l ++ ['\r'] := by
      rw [List.mem_append, not_or]
      exact ⟨hl, by decide⟩
    rw [List.splitOn_eq_singleton hl, List.splitOn_eq_singleton hl', List.filterMap_cons,
      List.filterMap_cons, hreturn]
  | line l rest _ ih =>
    rw [List.append_assoc, List.cons_append, List.splitOn_append_cons_self,
      List.splitOn_append_cons_self, List.filterMap_append, List.filterMap_append, ih]

end ServingPlane.Text
