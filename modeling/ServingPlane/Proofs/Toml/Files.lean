import ServingPlane.Proofs.Toml.Values

/-! # Reading back written files

    A file is read line by line into a tree whose last table is open.  A
    header opens a new table, a line with a key puts a value at its end,
    and a blank line leaves the tree alone.  So a written file, in which
    no name stands twice, is read as the tables that were written, less
    the values that were left out.  So a reader sees the document of each
    section without the members that hold nothing. -/

namespace ServingPlane.Toml

/-! ## Keys -/

/-- A key that is written without quotes. -/
structure Bare (key : String) : Prop where
  some : key.toList ≠ []
  bare : ∀ c ∈ key.toList, isBare c = true

theorem bare_iff {key : String} :
    (!key.toList.isEmpty && key.toList.all isBare) = true ↔ Bare key := by
  rw [Bool.and_eq_true, Bool.not_eq_true', List.isEmpty_eq_false_iff, List.all_eq_true]
  exact ⟨fun h => ⟨h.1, h.2⟩, fun h => ⟨h.some, h.bare⟩⟩

instance (key : String) : Decidable (Bare key) := decidable_of_iff _ bare_iff

theorem ne_of_isBare {c a : Char} (h : isBare c = true) (ha : isBare a = false) : c ≠ a := by
  rintro rfl
  rw [h] at ha
  cases ha

theorem isToken_of_isBare {c : Char} (h : isBare c = true) : IsToken c where
  space := by
    simp only [isSpace, Bool.or_eq_false_iff, beq_eq_false_iff_ne]
    exact ⟨ne_of_isBare h rfl, ne_of_isBare h rfl⟩
  feed := ne_of_isBare h rfl
  carriage := ne_of_isBare h rfl
  comment := ne_of_isBare h rfl

theorem Bare.begins {key : String} (h : Bare key) :
    ∃ c r, key.toList = c :: r ∧ isBare c = true := by
  obtain ⟨c, r, hkey⟩ := List.exists_cons_of_ne_nil h.some
  exact ⟨c, r, hkey, h.bare c (hkey ▸ List.mem_cons_self)⟩

/-- A bare key is a path of one part; the blanks after it are passed over. -/
theorem readKey_bare {key : String} (hkey : Bare key) {r : List Char}
    (hr : ∀ c ∈ r.head?, isBare c = false) (hdot : (skipSpace r).head? ≠ some '.') :
    readKey (key.toList ++ r) = some (([], key), skipSpace r) := by
  obtain ⟨c, t, htext, hc⟩ := hkey.begins
  have hskip : skipSpace (key.toList ++ r) = key.toList ++ r := by
    rw [htext]
    exact (isToken_of_isBare hc).skipSpace _
  have hpart : readKeyPart (key.toList ++ r) = some (key, r) := by
    have htake := takeWhile_append hkey.bare hr
    have hdrop : (key.toList ++ r).drop key.toList.length = r := List.drop_left
    rw [htext, List.cons_append] at htake hdrop ⊢
    rw [readKeyPart]
    · rw [htake, if_neg (by exact Bool.false_ne_true), hdrop, ← htext, String.ofList_toList]
    · exact fun r heq => ne_of_isBare hc (a := '"') rfl (List.cons.inj heq).1
    · exact fun r heq => ne_of_isBare hc (a := '\'') rfl (List.cons.inj heq).1
  have hparts : readKeyParts ((key.toList ++ r).length + 1) (key.toList ++ r)
      = some ([key], skipSpace r) := by
    simp only [readKeyParts, hskip, hpart, Option.bind_eq_bind, Option.bind_some]
    split
    · exact absurd (congrArg List.head? ‹_›) hdot
    · rfl
  rw [readKey, hparts]
  rfl

/-! ## The open table -/

/-- A table with these entries. -/
def tableNode (entries : List (String × Value)) : Node :=
  .table .header (entries.map fun e => (e.1, .leaf e.2))

/-- Tables that were read, the last one open. -/
structure File.Holds (f : File) (tables : List (String × List (String × Value))) (name : String)
    (entries : List (String × Value)) : Prop where
  entries : f.entries
    = tables.map (fun t => (t.1, tableNode t.2)) ++ [(name, tableNode entries)]
  current : f.current = [name]
  fresh : name ∉ tables.map (·.1)

theorem lookup_eq_none {β : Type} {l : List (String × β)} {name : String}
    (h : name ∉ l.map (·.1)) : l.lookup name = none := by
  refine List.lookup_eq_none_iff.mpr fun p hp => ?_
  have hne : name ≠ p.1 := fun heq => h (List.mem_map.mpr ⟨p, hp, heq.symm⟩)
  simpa using hne

/-- Entries under other names stay before the one that is put. -/
theorem putEntry_append {l : List (String × Node)} {name : String} (h : name ∉ l.map (·.1))
    (n : Node) (r : List (String × Node)) :
    Node.putEntry name n (l ++ r) = l ++ Node.putEntry name n r := by
  induction l with
  | nil => rfl
  | cons p l ih =>
    obtain ⟨k, v⟩ := p
    rw [List.map_cons, List.mem_cons, not_or] at h
    rw [List.cons_append, Node.putEntry, if_neg (Ne.symm h.1), ih h.2]
    rfl

section File

variable {f : File} {tables : List (String × List (String × Value))} {name key : String}
  {entries : List (String × Value)}

/-- A value with a new key goes to the end of the open table. -/
theorem File.Holds.put (h : f.Holds tables name entries) (hkey : key ∉ entries.map (·.1))
    (v : Value) : ∃ g, f.put [] key v = some g ∧ g.Holds tables name (entries ++ [(key, v)]) := by
  have hfresh : name ∉ (tables.map fun t => (t.1, tableNode t.2)).map (·.1) := by
    rw [List.map_map]
    exact h.fresh
  have hopen : f.entries.lookup name
      = some (.table .header (entries.map fun e => (e.1, .leaf e.2))) := by
    rw [h.entries, List.lookup_append, lookup_eq_none hfresh]
    simp [tableNode]
  have hnew : (entries.map fun e => (e.1, Node.leaf e.2)).lookup key = none := by
    refine lookup_eq_none ?_
    rw [List.map_map]
    exact hkey
  have hinsert : Node.insert [] key v .header (entries.map fun e => (e.1, Node.leaf e.2))
      = some (.header, (entries ++ [(key, v)]).map fun e => (e.1, Node.leaf e.2)) := by
    rw [Node.insert, Node.change, if_neg (by decide), hnew, List.map_append]
    rfl
  refine ⟨⟨tables.map (fun t => (t.1, tableNode t.2)) ++
    [(name, tableNode (entries ++ [(key, v)]))], f.current⟩, ?_, rfl, h.current, h.fresh⟩
  rw [File.put, File.update, h.current, Node.change, hopen]
  dsimp only
  rw [if_neg (by simp), Node.change, hinsert, h.entries]
  show some (File.mk (Node.putEntry name _ _) _) = _
  rw [putEntry_append hfresh, Node.putEntry, if_pos rfl]
  rfl

/-- The header of a new table opens it at the end of the file. -/
theorem openHeader_eq (hname : name ∉ f.entries.map (·.1)) :
    f.openHeader false [] name = some ⟨f.entries ++ [(name, tableNode [])], [name]⟩ := by
  rw [File.openHeader, File.update, if_neg Bool.false_ne_true, Node.change, Node.openTable,
    lookup_eq_none hname]
  show some (File.mk (Node.putEntry name _ f.entries) _) = _
  have hput := putEntry_append hname (.table .header []) []
  rw [List.append_nil] at hput
  rw [hput]
  rfl

/-! ## Lines -/

/-- Reading this text takes a file to another, whatever follows. -/
def Leads (text : List Char) (f g : File) : Prop :=
  ∀ (rest : List Char) (fuel : Nat), (text ++ rest).length < fuel →
    ∃ fuel', rest.length < fuel' ∧ readLines fuel f (text ++ rest) = readLines fuel' g rest

variable {g e : File} {text text' : List Char}

theorem Leads.refl (f : File) : Leads [] f f := fun _ fuel h => ⟨fuel, h, rfl⟩

theorem Leads.trans (h : Leads text f g) (h' : Leads text' g e) : Leads (text ++ text') f e := by
  intro rest fuel hfuel
  rw [List.append_assoc] at hfuel ⊢
  obtain ⟨fuel', hfuel', hfirst⟩ := h (text' ++ rest) fuel hfuel
  obtain ⟨fuel'', hfuel'', hrest⟩ := h' rest fuel' hfuel'
  exact ⟨fuel'', hfuel'', hfirst.trans hrest⟩

/-- One line. -/
theorem leads_of_readLine (htext : text ≠ [])
    (h : ∀ rest, readLine f (text ++ rest) = some (g, rest)) : Leads text f g := by
  intro rest fuel hfuel
  obtain ⟨fuel, rfl⟩ := Nat.exists_eq_add_one.mpr (Nat.zero_lt_of_lt hfuel)
  obtain ⟨c, t, rfl⟩ := List.exists_cons_of_ne_nil htext
  have hline := h rest
  rw [List.length_append, List.length_cons] at hfuel
  refine ⟨fuel, by omega, ?_⟩
  rw [List.cons_append] at hline ⊢
  rw [readLines, hline]
  · rfl
  · exact List.cons_ne_nil _ _

theorem leads_blank (f : File) : Leads ['\n'] f f :=
  leads_of_readLine (List.cons_ne_nil _ _) fun _ => rfl

theorem leads_header (hbare : Bare name) (hname : name ∉ f.entries.map (·.1)) :
    Leads ('[' :: (name.toList ++ [']', '\n'])) f
      ⟨f.entries ++ [(name, tableNode [])], [name]⟩ := by
  refine leads_of_readLine (List.cons_ne_nil _ _) fun rest => ?_
  have hkey : readKey (name.toList ++ ']' :: '\n' :: rest)
      = some (([], name), ']' :: '\n' :: rest) :=
    readKey_bare hbare (by simp [isBare]) (by simp [skipSpace, isSpace])
  have hheader : readHeader (name.toList ++ ']' :: '\n' :: rest)
      = some ((false, [], name), '\n' :: rest) := by
    obtain ⟨c, t, htext, hc⟩ := hbare.begins
    rw [htext, List.cons_append] at hkey ⊢
    rw [readHeader]
    · rw [hkey]
      rfl
    · exact fun r heq => ne_of_isBare hc (a := '[') rfl (List.cons.inj heq).1
  have hskip : skipSpace ('[' :: (name.toList ++ ']' :: '\n' :: rest))
      = '[' :: (name.toList ++ ']' :: '\n' :: rest) := rfl
  have hbreak : readLineEnd ('\n' :: rest) = some rest := rfl
  rw [List.cons_append, List.append_assoc]
  show readLine f ('[' :: (name.toList ++ ']' :: '\n' :: rest)) = _
  simp only [readLine, hskip, hheader, hbreak, openHeader_eq hname, Option.bind_eq_bind,
    Option.bind_some, Option.pure_def]

/-- A line that begins with a token other than a bracket has a key. -/
theorem readLine_key {c : Char} {cs r : List Char} {key : String} {w : Value}
    (hc : IsToken c) (hbracket : c ≠ '[')
    (hkey : readKey (c :: cs) = some (([], key), '=' :: r))
    (hvalue : readValue (r.length + 1) (depthBound - 1) (skipSpace r) = some (w, '\n' :: text))
    (hput : f.put [] key w = some g) : readLine f (c :: cs) = some (g, text) := by
  have hend : readLineEnd (c :: cs) = none := by
    rw [readLineEnd, hc.skipSpace]
    have hcomment : skipComment (c :: cs) = c :: cs := by
      rw [skipComment]
      exact fun r heq => hc.comment (List.cons.inj heq).1
    rw [hcomment]
    exact hc.readBreak cs
  rw [readLine, hc.skipSpace]
  split
  · exact absurd (List.cons.inj ‹_›).1 hbracket
  · have hequals : readChar '=' ('=' :: r) = some r := rfl
    have hbreak : readLineEnd ('\n' :: text) = some text := rfl
    simp only [hend, hkey, hequals, hvalue, hbreak, hput, Option.bind_eq_bind, Option.bind_some,
      Option.pure_def]

/-- A key and its value on a line. -/
theorem leads_entry {w : Value} (hbare : Bare key) (hscans : Scans 1 text w)
    (hput : f.put [] key w = some g) :
    Leads (key.toList ++ ' ' :: '=' :: ' ' :: (text ++ ['\n'])) f g := by
  refine leads_of_readLine (by simp) fun rest => ?_
  have hkey : readKey (key.toList ++ ' ' :: '=' :: ' ' :: (text ++ '\n' :: rest))
      = some (([], key), '=' :: ' ' :: (text ++ '\n' :: rest)) :=
    readKey_bare hbare (by simp [isBare]) (by simp [skipSpace, isSpace])
  have hskip : skipSpace (' ' :: (text ++ '\n' :: rest)) = text ++ '\n' :: rest := by
    obtain ⟨c, t, rfl, hc, -⟩ := hscans.begins
    exact hc.skipSpace _
  have hvalue : readValue ((' ' :: (text ++ '\n' :: rest)).length + 1) (depthBound - 1)
      (skipSpace (' ' :: (text ++ '\n' :: rest))) = some (w, '\n' :: rest) := by
    rw [hskip]
    refine hscans.read ?_ (by decide) ⟨_, _, rfl, .inr (.inl rfl)⟩
    rw [List.length_cons, List.length_append]
    omega
  have htext : key.toList ++ ' ' :: '=' :: ' ' :: (text ++ ['\n']) ++ rest
      = key.toList ++ ' ' :: '=' :: ' ' :: (text ++ '\n' :: rest) := by
    simp
  obtain ⟨c, t, hchars, hc⟩ := hbare.begins
  rw [htext]
  rw [hchars, List.cons_append] at hkey ⊢
  exact readLine_key (isToken_of_isBare hc) (ne_of_isBare hc rfl) hkey hvalue hput

/-! ## Sections -/

/-- What the members of a section are read as: those that hold nothing are left out. -/
inductive Entries : List (String × Json) → List (String × Value) → Prop where
  | nil : Entries [] []
  | absent {key : String} {ms : List (String × Json)} {es : List (String × Value)}
    (hrest : Entries ms es) : Entries ((key, .null) :: ms) es
  | line {key : String} {v : Json} {w : Value} {ms : List (String × Json)}
    {es : List (String × Value)} (h : Line v w) (hrest : Entries ms es) :
    Entries ((key, v) :: ms) ((key, w) :: es)

/-- The lines of a section put its entries into the open table. -/
theorem Entries.exists_text {ms : List (String × Json)} {es : List (String × Value)}
    (h : Entries ms es) (hbare : ∀ p ∈ ms, Bare p.1) (hdistinct : (ms.map (·.1)).Nodup) :
    ∃ t, entryLines? ms = some t ∧ ∀ {f tables name entries}, f.Holds tables name entries →
      (∀ p ∈ ms, p.1 ∉ entries.map (·.1)) →
      ∃ g, Leads t.toList f g ∧ g.Holds tables name (entries ++ es) := by
  induction h with
  | nil =>
    refine ⟨"", rfl, fun {f _ _ entries} hf _ => ⟨f, .refl f, ?_⟩⟩
    rw [List.append_nil]
    exact hf
  | @absent key ms es _ ih =>
    obtain ⟨t, htext, hleads⟩ := ih (fun p hp => hbare p (List.mem_cons_of_mem _ hp))
      (List.nodup_cons.mp hdistinct).2
    exact ⟨t, htext, fun hf hnew => hleads hf fun p hp => hnew p (List.mem_cons_of_mem _ hp)⟩
  | @line key v w ms es h _ ih =>
    obtain ⟨hkey, hdistinct⟩ := List.nodup_cons.mp hdistinct
    obtain ⟨value, hvalue, hscans⟩ := h.exists_text
    obtain ⟨t, htext, hleads⟩ := ih (fun p hp => hbare p (List.mem_cons_of_mem _ hp)) hdistinct
    refine ⟨key ++ " = " ++ value ++ "\n" ++ t, ?_, ?_⟩
    · rw [entryLines?]
      · rw [hvalue, htext]
        rfl
      · rintro rfl
        cases h with
        | scalar h => cases h
    · intro f tables name entries hf hnew
      obtain ⟨g, hput, hg⟩ := hf.put (hnew _ List.mem_cons_self) w
      have hnew' : ∀ p ∈ ms, p.1 ∉ (entries ++ [(key, w)]).map (·.1) := by
        intro p hp hmem
        rw [List.map_append, List.mem_append] at hmem
        rcases hmem with hold | hlast
        · exact hnew p (List.mem_cons_of_mem _ hp) hold
        · exact hkey (List.mem_map.mpr ⟨p, hp, List.mem_singleton.mp hlast⟩)
      obtain ⟨e, hrest, he⟩ := hleads hg hnew'
      refine ⟨e, ?_, ?_⟩
      · have hchars : (key ++ " = " ++ value ++ "\n" ++ t).toList
            = key.toList ++ ' ' :: '=' :: ' ' :: (value.toList ++ ['\n']) ++ t.toList := by
          simp [String.toList_append]
        rw [hchars]
        exact (leads_entry (hbare _ List.mem_cons_self) hscans hput).trans hrest
      · rw [List.append_assoc] at he
        exact he

end File

/-- A section and the table that it is read as. -/
structure IsSection (p : String × Json) (table : String × List (String × Value)) : Prop where
  same : table.1 = p.1
  bare : Bare p.1
  entries : ∃ ms, p.2 = .object ms ∧ Entries ms table.2 ∧ (∀ m ∈ ms, Bare m.1) ∧
    (ms.map (·.1)).Nodup

/-- A file that holds these tables. -/
def File.HoldsAll (f : File) (tables : List (String × List (String × Value))) : Prop :=
  f.entries = tables.map fun t => (t.1, tableNode t.2)

/-- A section is read as one more table. -/
theorem IsSection.exists_text {p : String × Json} {q : String × List (String × Value)}
    (h : IsSection p q) : ∃ t, sectionText? p.1 p.2 = some t ∧ (∃ r, t.toList = '[' :: r) ∧
      ∀ {f tables}, f.HoldsAll tables → p.1 ∉ tables.map (·.1) →
        ∃ g, Leads t.toList f g ∧ g.HoldsAll (tables ++ [q]) := by
  obtain ⟨_, v⟩ := p
  obtain ⟨name, es⟩ := q
  obtain rfl : name = _ := h.same
  obtain ⟨ms, rfl, hentries, hbare, hdistinct⟩ := h.entries
  obtain ⟨t, htext, hleads⟩ := hentries.exists_text hbare hdistinct
  have hchars : ("[" ++ name ++ "]\n" ++ t).toList
      = '[' :: (name.toList ++ [']', '\n']) ++ t.toList := by
    simp [String.toList_append]
  refine ⟨"[" ++ name ++ "]\n" ++ t, ?_, ⟨_, hchars⟩, ?_⟩
  · rw [sectionText?, htext]
    rfl
  · intro f tables hf hname
    have hfresh : name ∉ f.entries.map (·.1) := by
      rw [hf, List.map_map]
      exact hname
    have hopened : File.Holds ⟨f.entries ++ [(name, tableNode [])], [name]⟩ tables name [] :=
      ⟨by rw [hf], rfl, hname⟩
    obtain ⟨g, hg, hholds⟩ := hleads hopened fun _ _ => List.not_mem_nil
    refine ⟨g, ?_, ?_⟩
    · rw [hchars]
      exact (leads_header h.bare hfresh).trans hg
    · rw [File.HoldsAll, List.map_append]
      exact hholds.entries

/-- Sections are read as their tables, with a blank line between two of them. -/
theorem exists_sectionTexts {sections : List (String × Json)}
    {tables : List (String × List (String × Value))} (h : List.Forall₂ IsSection sections tables)
    (hdistinct : (sections.map (·.1)).Nodup) :
    ∃ texts, sectionTexts? sections = some texts ∧
      (∀ c ∈ ("\n".intercalate texts).toList.head?, c = '[') ∧
      ∀ {f earlier}, f.HoldsAll earlier → (∀ p ∈ sections, p.1 ∉ earlier.map (·.1)) →
        ∃ g, Leads ("\n".intercalate texts).toList f g ∧ g.HoldsAll (earlier ++ tables) := by
  induction h with
  | nil =>
    refine ⟨[], rfl, by simp, fun {f earlier} hf _ => ⟨f, .refl f, ?_⟩⟩
    rw [List.append_nil]
    exact hf
  | @cons p q sections tables hfirst _ ih =>
    obtain ⟨hname, hdistinct⟩ := List.nodup_cons.mp hdistinct
    obtain ⟨t, htext, ⟨r, hbracket⟩, hsection⟩ := hfirst.exists_text
    obtain ⟨texts, htexts, -, hsections⟩ := ih hdistinct
    -- the break that joins the section to the next is a blank line
    have hjoined : ∃ between, ("\n".intercalate (t :: texts)).toList
        = t.toList ++ (between ++ ("\n".intercalate texts).toList) ∧
        ∀ f, Leads between f f := by
      cases texts with
      | nil => exact ⟨[], by simp, .refl⟩
      | cons t' texts => exact ⟨['\n'], by simp [String.intercalate_cons_cons], leads_blank⟩
    obtain ⟨between, hchars, hbetween⟩ := hjoined
    refine ⟨t :: texts, ?_, ?_, ?_⟩
    · rw [sectionTexts?, htext, htexts]
      rfl
    · rw [hchars, hbracket]
      exact fun c hc => (Option.some.inj hc).symm
    · intro f earlier hf hnew
      obtain ⟨g, hg, hholds⟩ := hsection hf (hnew _ List.mem_cons_self)
      have hnew' : ∀ p' ∈ sections, p'.1 ∉ (earlier ++ [q]).map (·.1) := by
        intro p' hp' hmem
        rw [List.map_append, List.mem_append] at hmem
        rcases hmem with hold | hlast
        · exact hnew p' (List.mem_cons_of_mem _ hp') hold
        · have hsame : p'.1 = p.1 := (List.mem_singleton.mp hlast).trans hfirst.same
          exact hname (List.mem_map.mpr ⟨p', hp', hsame⟩)
      obtain ⟨e, he, hall⟩ := hsections hholds hnew'
      refine ⟨e, ?_, ?_⟩
      · rw [hchars]
        exact hg.trans ((hbetween g).trans he)
      · rw [List.append_assoc] at hall
        exact hall

theorem entryValues_leaves (entries : List (String × Value)) :
    Node.entryValues (entries.map fun e => (e.1, .leaf e.2)) = entries := by
  induction entries with
  | nil => rfl
  | cons e entries ih =>
    rw [List.map_cons, Node.entryValues, ih]
    rfl

theorem entryValues_tableNodes (tables : List (String × List (String × Value))) :
    Node.entryValues (tables.map fun t => (t.1, tableNode t.2))
      = tables.map fun t => (t.1, .table t.2) := by
  induction tables with
  | nil => rfl
  | cons t tables ih =>
    rw [List.map_cons, Node.entryValues, ih, tableNode, Node.value, entryValues_leaves, List.map_cons]

/-- A text that does not begin with a byte order mark is read from its first character. -/
theorem parse_of_readLines {text : String} {f : File} (hmark : text.toList.head? ≠ some '\ufeff')
    (hlines : readLines (text.toList.length + 1) ⟨[], []⟩ text.toList = some f) :
    parse text = some (.table (Node.entryValues f.entries)) := by
  rw [parse]
  split
  · exact absurd (congrArg List.head? ‹_›) hmark
  · rw [hlines]
    rfl

/-- A file of sections under different bare names, whose values have texts,
    is read as the tables that they are. -/
theorem exists_print {sections : List (String × Json)}
    {tables : List (String × List (String × Value))} (h : List.Forall₂ IsSection sections tables)
    (hdistinct : (sections.map (·.1)).Nodup) :
    ∃ text, print? (.object sections) = some text ∧
      parse text = some (.table (tables.map fun t => (t.1, .table t.2))) := by
  obtain ⟨texts, htexts, hhead, hread⟩ := exists_sectionTexts h hdistinct
  refine ⟨"\n".intercalate texts, ?_, ?_⟩
  · rw [print?, htexts]
    rfl
  · have hempty : File.HoldsAll ⟨[], []⟩ [] := rfl
    obtain ⟨g, hleads, hg⟩ := hread hempty fun _ _ => List.not_mem_nil
    have hlines : readLines (("\n".intercalate texts).toList.length + 1) ⟨[], []⟩
        ("\n".intercalate texts).toList = some g := by
      obtain ⟨fuel, -, hlines⟩ := hleads [] _ (by rw [List.append_nil]; exact Nat.lt_succ_self _)
      rw [List.append_nil] at hlines
      rw [hlines]
      cases fuel <;> rfl
    have hmark : ("\n".intercalate texts).toList.head? ≠ some '\ufeff' :=
      fun heq => absurd (hhead _ heq) (by decide)
    rw [parse_of_readLines hmark hlines, hg, entryValues_tableNodes]
    rfl

/-! ## Documents -/

/-- Whether a member holds anything. -/
def holds : Json → Bool
  | .null => false
  | _ => true

/-- The document that a written section is read as. -/
def sectionDocument : Json → Document
  | .object ms =>
    .object ((ms.filter fun p => holds p.2).map fun p => (some p.1, .ofJson p.2)) none
  | v => .ofJson v

theorem Scalar.document {v : Json} {w : Value} (h : Scalar v w) : w.document = .ofJson v := by
  cases h <;> rfl

theorem itemDocuments_of_scalars {items : List Json} {ws : List Value}
    (h : List.Forall₂ Scalar items ws) : Value.itemDocuments ws = Document.ofItems items := by
  induction h with
  | nil => rfl
  | cons hfirst _ ih => rw [Value.itemDocuments, Document.ofItems, hfirst.document, ih]

theorem Line.document {v : Json} {w : Value} (h : Line v w) : w.document = .ofJson v := by
  cases h with
  | scalar h => exact h.document
  | array h => rw [Value.document, Document.ofJson, itemDocuments_of_scalars h]

theorem Line.holds {v : Json} {w : Value} (h : Line v w) : Toml.holds v = true := by
  cases h with
  | scalar h => cases h <;> rfl
  | array h => rfl

theorem Entries.document {ms : List (String × Json)} {es : List (String × Value)}
    (h : Entries ms es) : (Value.table es).document = sectionDocument (.object ms) := by
  rw [Value.document, sectionDocument]
  refine congrArg (Document.object · none) ?_
  induction h with
  | nil => rfl
  | absent hrest ih => exact ih
  | line h _ ih =>
    rw [Value.entryDocuments, List.filter_cons_of_pos (by exact h.holds), List.map_cons, h.document, ih]

/-- The tables of a written file are read as the documents of its sections. -/
theorem document_of_sections {sections : List (String × Json)}
    {tables : List (String × List (String × Value))} (h : List.Forall₂ IsSection sections tables) :
    (Value.table (tables.map fun t => (t.1, .table t.2))).document
      = .object (sections.map fun p => (some p.1, sectionDocument p.2)) none := by
  rw [Value.document]
  refine congrArg (Document.object · none) ?_
  induction h with
  | nil => rfl
  | @cons p t sections tables hfirst _ ih =>
    obtain ⟨ms, hobject, hentries, -⟩ := hfirst.entries
    rw [List.map_cons, List.map_cons, Value.entryDocuments, ih, hfirst.same, hentries.document,
      ← hobject]

end ServingPlane.Toml
