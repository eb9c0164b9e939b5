import ServingPlane.Proofs.Json.Roundtrip

/-! # What a record takes from a document

    Each part of a record is set by one field.  A document states a field
    under its name, or at its place in a sequence.  A record that was read
    has from the document what it states, and of the rest what it had
    before any field was read. -/

namespace ServingPlane

/-- The part of a record that one field sets: the field is known by its
    name and has its place among the others, and no other field touches
    the part. -/
structure RecordShape.Sets {σ β : Type} (shape : RecordShape σ) (name : String) (place : Nat)
    (c : Codec β) (get : σ → β) : Prop where
  wellNamed : shape.WellNamed
  placed : (shape.fields.map (·.name))[place]? = some name
  reads : ∀ f ∈ shape.fields, ∀ d s s', f.read d s = .ok s' →
    if f.name = name then c.read d = .ok (get s') else get s' = get s

/-- A document states a field of a record. -/
def Document.States (d : Document) (name : String) (place : Nat) (part : Document) : Prop :=
  match d with
  | .object members _ => (some name, part) ∈ members
  | .array items _ => items[place]? = some part
  | _ => False

/-- A structured value states a field of a record. -/
def Json.States (v : Json) (name : String) (place : Nat) (part : Json) : Prop :=
  match v with
  | .object members => (name, part) ∈ members
  | .array items => items[place]? = some part
  | _ => False

theorem Document.states_ofJson {v : Json} {name : String} {place : Nat} {d : Document} :
    (ofJson v).States name place d ↔ ∃ part, v.States name place part ∧ ofJson part = d := by
  cases v with
  | object members =>
    show (some name, d) ∈ ofMembers members ↔ _
    rw [ofMembers_eq_map, List.mem_map]
    constructor
    · rintro ⟨⟨key, part⟩, hmem, heq⟩
      cases heq
      exact ⟨part, hmem, rfl⟩
    · rintro ⟨part, hmem, rfl⟩
      exact ⟨(name, part), hmem, rfl⟩
  | array items =>
    show (ofItems items)[place]? = some d ↔ _
    rw [ofItems_eq_map, List.getElem?_map, Option.map_eq_some_iff]
    rfl
  | _ => exact ⟨False.elim, fun ⟨_, hpart, _⟩ => hpart⟩

namespace RecordShape.Sets

variable {σ τ β : Type} {shape : RecordShape σ} {name : String} {place : Nat} {c : Codec β}
  {get : σ → β} (h : shape.Sets name place c get)
include h

theorem own {f : Field σ} (hf : f ∈ shape.fields) (hname : f.name = name) {d : Document} {s s' : σ}
    (hread : f.read d s = .ok s') : c.read d = .ok (get s') := by
  have hreads := h.reads f hf d s s' hread
  rwa [if_pos hname] at hreads

theorem others {f : Field σ} (hf : f ∈ shape.fields) (hname : f.name ≠ name) {d : Document}
    {s s' : σ} (hread : f.read d s = .ok s') : get s' = get s := by
  have hreads := h.reads f hf d s s' hread
  rwa [if_neg hname] at hreads

/-- The field that a key names has it for its name. -/
theorem name_of_find? {key : String} {f : Field σ}
    (hfind : shape.fields.find? (·.answersTo key) = some f) : f ∈ shape.fields ∧ f.name = key := by
  have hf : f ∈ shape.fields := List.mem_of_find?_eq_some hfind
  have hanswers : f.answersTo key = true :=
    List.find?_some (p := fun f : Field σ => f.answersTo key) hfind
  exact ⟨hf, by simpa [Field.answersTo, h.wellNamed.single f hf] using hanswers⟩

/-- Some field has the name. -/
theorem find?_ne_none : shape.fields.find? (·.answersTo name) ≠ none := by
  obtain ⟨f, hf, rfl⟩ := List.mem_map.mp (List.mem_of_getElem? h.placed)
  rw [h.wellNamed.find?_answersTo hf]
  exact Option.some_ne_none f

/-- A member sets the part if it has the name, and leaves it alone if not;
    the name comes once. -/
theorem readMembers {other : String → Document → τ → Except Fault τ}
    {members : List (Option String × Document)} {seen seen' : List String} {s s' : σ} {t t' : τ}
    (hread : shape.readMembers other members seen s t = .ok (seen', s', t')) :
    (name ∈ seen → ∀ d, (some name, d) ∉ members) ∧
    (∀ d, (some name, d) ∈ members → c.read d = .ok (get s')) ∧
    ((∀ d, (some name, d) ∉ members) → get s' = get s) := by
  induction members generalizing seen s t with
  | nil =>
    cases hread
    exact ⟨fun _ _ => List.not_mem_nil, fun _ hd => absurd hd List.not_mem_nil, fun _ => rfl⟩
  | cons p members ih =>
    obtain ⟨key, d⟩ := p
    cases key with
    | none => cases hread
    | some key =>
      replace hread := RecordShape.readMembers_cons.mp hread
      by_cases hkey : key = name
      · subst hkey
        obtain ⟨f, s₁, hfind, hnew, hfield, hrest⟩ | ⟨_, hfind, -, -⟩ := hread
        · obtain ⟨hf, hname⟩ := h.name_of_find? hfind
          rw [hname] at hnew hrest
          obtain ⟨honce, -, hkept⟩ := ih hrest
          have hlater := honce List.mem_cons_self
          refine ⟨fun hseen => absurd hseen hnew, fun d' hd' => ?_,
            fun hnone => absurd List.mem_cons_self (hnone d)⟩
          rcases List.mem_cons.mp hd' with heq | hd'
          · cases heq
            rw [hkept hlater]
            exact h.own hf hname hfield
          · exact absurd hd' (hlater d')
        · exact absurd hfind h.find?_ne_none
      · have hbehind : ∀ d', (some name, d') ∈ (some key, d) :: members →
            (some name, d') ∈ members := fun d' hd' =>
          (List.mem_cons.mp hd').resolve_left fun heq =>
            hkey (Option.some.inj (congrArg Prod.fst heq)).symm
        -- whatever the member is, it leaves the part alone
        obtain ⟨seen₁, s₁, t₁, hseen, hsame, hrest⟩ : ∃ seen₁ s₁ t₁,
            (name ∈ seen → name ∈ seen₁) ∧ get s₁ = get s ∧
            shape.readMembers other members seen₁ s₁ t₁ = .ok (seen', s', t') := by
          obtain ⟨f, s₁, hfind, -, hfield, hrest⟩ | ⟨t₁, -, -, hrest⟩ := hread
          · obtain ⟨hf, hname⟩ := h.name_of_find? hfind
            exact ⟨_, s₁, t, List.mem_cons_of_mem _,
              h.others hf (hname.trans_ne hkey) hfield, hrest⟩
          · exact ⟨_, s, t₁, id, rfl, hrest⟩
        obtain ⟨honce, hstated, hkept⟩ := ih hrest
        refine ⟨fun hmem d' hd' => honce (hseen hmem) d' (hbehind d' hd'),
          fun d' hd' => hstated d' (hbehind d' hd'), fun hnone => ?_⟩
        exact (hkept fun d' hd' => hnone d' (List.mem_cons_of_mem _ hd')).trans hsame

/-- An item sets the part if it has the place, and leaves it alone if not. -/
theorem readPositions {ending : Option Breakage} {fs : List (Field σ)}
    (hsub : ∀ f ∈ fs, f ∈ shape.fields) (hdistinct : (fs.map (·.name)).Nodup) {i : Nat}
    {items : List Document} {s s' : σ}
    (hread : shape.readPositions ending i fs items s = .ok s') :
    (name ∉ fs.map (·.name) → get s' = get s) ∧
    ∀ j : Nat, (fs.map (·.name))[j]? = some name →
      (∀ d, items[j]? = some d → c.read d = .ok (get s')) ∧
      (items[j]? = none → get s' = get s) := by
  induction fs generalizing i items s with
  | nil =>
    cases hread
    exact ⟨fun _ => rfl, fun j hj => by cases hj⟩
  | cons f fs ih =>
    obtain ⟨hf, hsub⟩ := List.forall_mem_cons.mp hsub
    rw [List.map_cons, List.nodup_cons] at hdistinct
    obtain ⟨hnew, hdistinct⟩ := hdistinct
    -- the field is read from the first item, and those behind from the items behind
    obtain ⟨s₁, hread₁, hnone₁, hrest⟩ : ∃ s₁,
        (∀ d, items.head? = some d → f.read d s = .ok s₁) ∧ (items.head? = none → s₁ = s) ∧
        shape.readPositions ending (i + 1) fs items.tail s₁ = .ok s' := by
      cases items with
      | nil =>
        obtain ⟨-, -, hread⟩ := bind_eq_ok.mp hread
        split at hread
        · cases hread
        · exact ⟨s, fun d hd => (nomatch hd), fun _ => rfl, hread⟩
      | cons d items =>
        obtain ⟨s₁, hfield, hrest⟩ := bind_eq_ok.mp hread
        refine ⟨s₁, fun d' hd' => ?_, fun hd' => (nomatch hd'), hrest⟩
        cases hd'
        exact hfield
    obtain ⟨hkept, hplaced⟩ := ih hsub hdistinct hrest
    by_cases hname : f.name = name
    · subst hname
      have hbehind : get s' = get s₁ := hkept hnew
      refine ⟨fun hnot => absurd List.mem_cons_self hnot, fun j hj => ?_⟩
      cases j with
      | zero =>
        rw [← List.head?_eq_getElem?, hbehind]
        exact ⟨fun d hd => h.own hf rfl (hread₁ d hd), fun hd => congrArg get (hnone₁ hd)⟩
      | succ j =>
        rw [List.map_cons, List.getElem?_cons_succ] at hj
        exact absurd (List.mem_of_getElem? hj) hnew
    · have hsame : get s₁ = get s := by
        cases hhead : items.head? with
        | none => exact congrArg get (hnone₁ hhead)
        | some d => exact h.others hf hname (hread₁ d hhead)
      refine ⟨fun hnot => (hkept fun hmem => hnot (List.mem_cons_of_mem _ hmem)).trans hsame,
        fun j hj => ?_⟩
      cases j with
      | zero => exact absurd (Option.some.inj hj) hname
      | succ j =>
        obtain ⟨hstated, habsent⟩ := hplaced j hj
        rw [List.getElem?_tail] at hstated habsent
        exact ⟨hstated, fun hnone => (habsent hnone).trans hsame⟩

/-- A part is what the document states of it, and what it was at first if
    the document states nothing. -/
theorem read {d : Document} {s : σ} (hread : shape.read d = .ok s) :
    (∀ part, d.States name place part → c.read part = .ok (get s)) ∧
    ((∀ part, ¬ d.States name place part) → get s = get shape.initial) := by
  unfold RecordShape.read at hread
  split at hread
  · obtain ⟨⟨seen, s₁, t⟩, hmembers, hread⟩ := bind_eq_ok.mp hread
    obtain ⟨-, -, hread⟩ := bind_eq_ok.mp hread
    simp only [RecordShape.close] at hread
    split at hread
    · cases hread
    · cases hread
      exact (h.readMembers hmembers).2
  · obtain ⟨s₁, hpositions, hread⟩ := bind_eq_ok.mp hread
    split at hread
    · cases hread
    · obtain ⟨-, -, hread⟩ := bind_eq_ok.mp hread
      cases hread
      obtain ⟨hstated, habsent⟩ := (h.readPositions (fun _ hf => hf) h.wellNamed.distinct
        hpositions).2 place h.placed
      refine ⟨hstated, fun hnone => habsent ?_⟩
      exact Option.eq_none_iff_forall_ne_some.mpr hnone
  · cases hread

/-- The same for a record that is read from a structured value. -/
theorem ofJson {v : Json} {s : σ} (hread : shape.codec.ofJson v = .ok s) :
    (∀ part, v.States name place part → c.ofJson part = .ok (get s)) ∧
    ((∀ part, ¬ v.States name place part) → get s = get shape.initial) := by
  obtain ⟨hstated, habsent⟩ := h.read hread
  refine ⟨fun part hpart => hstated _ (Document.states_ofJson.mpr ⟨part, hpart, rfl⟩),
    fun hnone => habsent fun d hd => ?_⟩
  obtain ⟨part, hpart, -⟩ := Document.states_ofJson.mp hd
  exact hnone part hpart

end RecordShape.Sets

/-- A natural number is read from the whole number that it is. -/
theorem Codec.ofJson_uint32 {v : Json} {n : UInt32} (h : uint32.ofJson v = .ok n) :
    v = .ofNat n.toNat := by
  cases v with
  | number x =>
    cases x with
    | int m =>
      have h : (if 0 ≤ m ∧ m < UInt32.size then Except.ok (UInt32.ofNat m.toNat)
        else .error (.wrongValue (.number (.int m)) "u32") : Except Fault UInt32) = .ok n := h
      split at h
      · rename_i hbounds
        cases h
        have hsmall : m.toNat < UInt32.size := by omega
        rw [UInt32.toNat_ofNat_of_lt' hsmall, Json.ofNat, Int.toNat_of_nonneg hbounds.1]
      · cases h
    | float x => cases h
  | _ => cases h

end ServingPlane
