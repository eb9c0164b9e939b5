import Mathlib.Algebra.Group.Int.Defs
import ServingPlane.Json.Codec
import ServingPlane.Proofs.Dict

/-! # Reading what a codec wrote

    A written value comes back as a document: scalars as they are,
    sequences item by item, maps member by member in some order.  From
    that alone sequences, choices and records read back what was written
    if their parts do.  A record is followed field by field, each of
    which puts one part into the record read so far. -/

namespace ServingPlane

open Json

/-- Two steps in a row succeed if the first does, and the second goes on from there. -/
theorem bind_eq_ok {ε α β : Type} {x : Except ε α} {f : α → Except ε β} {b : β} :
    x >>= f = .ok b ↔ ∃ a, x = .ok a ∧ f a = .ok b := by
  cases x with
  | error e => exact ⟨by rintro ⟨⟩, by rintro ⟨_, ⟨⟩, -⟩⟩
  | ok a => exact ⟨fun h => ⟨a, rfl, h⟩, by rintro ⟨_, ⟨⟩, h⟩; exact h⟩

/-- A result is turned into another if there is one. -/
theorem map_eq_ok {ε α β : Type} {x : Except ε α} {f : α → β} {b : β} :
    x.map f = .ok b ↔ ∃ a, x = .ok a ∧ f a = b := by
  cases x with
  | error e => exact ⟨by rintro ⟨⟩, by rintro ⟨_, ⟨⟩, -⟩⟩
  | ok a => exact ⟨fun h => ⟨a, rfl, Except.ok.inj h⟩, by rintro ⟨_, ⟨⟩, rfl⟩; rfl⟩

/-! ## Values in key order -/

namespace Json

/-- Member lists in strictly increasing key order. -/
abbrev Sorted (ms : List (String × Json)) : Prop := ms.Pairwise fun a b => a.1 < b.1

theorem sorted_canonicalMembers (ms : List (String × Json)) {acc : List (String × Json)}
    (h : Sorted acc) : Sorted (canonicalMembers ms acc) := by
  induction ms generalizing acc with
  | nil => exact h
  | cons p ms ih => exact ih (Dict.sorted_place _ _ h)

/-- Members in key order stay where they are. -/
theorem canonicalMembers_append (ms acc : List (String × Json)) (h : Sorted (acc ++ ms)) :
    canonicalMembers ms acc = acc ++ ms.map fun p => (p.1, p.2.canonical) := by
  induction ms generalizing acc with
  | nil => exact (List.append_nil acc).symm
  | cons p ms ih =>
    obtain ⟨k, v⟩ := p
    have hbefore : ∀ q ∈ acc, q.1 < k := fun q hq =>
      (List.pairwise_append.mp h).2.2 q hq _ List.mem_cons_self
    have hrest : Sorted (acc ++ [(k, v.canonical)] ++ ms) := by
      rw [List.append_assoc]
      rw [Sorted, ← List.pairwise_map (f := Prod.fst) (R := (· < ·))] at h ⊢
      simpa using h
    rw [canonicalMembers, Dict.place_of_forall_lt hbefore, ih _ hrest, List.append_assoc]
    rfl

theorem canonicalMembers_of_sorted {ms : List (String × Json)} (h : Sorted ms) :
    canonicalMembers ms [] = ms.map fun p => (p.1, p.2.canonical) :=
  canonicalMembers_append ms [] h

/-- Dropping keys and putting the rest in order may be done in either order. -/
theorem filter_canonicalMembers (keep : String → Bool) (ms : List (String × Json))
    {acc : List (String × Json)} (h : Sorted acc) :
    (canonicalMembers ms acc).filter (fun p => keep p.1)
      = canonicalMembers (ms.filter fun p => keep p.1) (acc.filter fun p => keep p.1) := by
  induction ms generalizing acc with
  | nil => rfl
  | cons p ms ih =>
    obtain ⟨k, v⟩ := p
    rw [canonicalMembers, ih (Dict.sorted_place _ _ h)]
    cases hk : keep k with
    | true =>
      rw [List.filter_cons_of_pos (by exact hk), canonicalMembers, Dict.filter_place_of_pos hk _ h]
    | false =>
      rw [List.filter_cons_of_neg (by simp [hk]), Dict.filter_place_of_neg hk]

mutual

/-- Values in key order stay as they are. -/
theorem canonical_canonical : ∀ v : Json, v.canonical.canonical = v.canonical
  | .null | .bool _ | .number _ | .string _ => rfl
  | .array items => by
    rw [canonical, canonical, canonicalItems_canonicalItems items]
  | .object ms => by
    have hnone : ∀ p ∈ ([] : List (String × Json)), p.2.canonical = p.2 := fun p hp =>
      absurd hp List.not_mem_nil
    rw [canonical, canonical,
      canonicalMembers_of_sorted (sorted_canonicalMembers ms List.Pairwise.nil),
      map_canonicalMembers ms hnone]

theorem canonicalItems_canonicalItems :
    ∀ items : List Json, canonicalItems (canonicalItems items) = canonicalItems items
  | [] => rfl
  | v :: r => by
    rw [canonicalItems, canonicalItems, canonical_canonical v, canonicalItems_canonicalItems r]

theorem map_canonicalMembers : ∀ (ms : List (String × Json)) {acc : List (String × Json)},
    (∀ p ∈ acc, p.2.canonical = p.2) →
      (canonicalMembers ms acc).map (fun p => (p.1, p.2.canonical)) = canonicalMembers ms acc
  | [], acc, h => by
    refine (List.map_congr_left fun p hp => ?_).trans (List.map_id acc)
    exact Prod.ext rfl (h p hp)
  | (k, v) :: r, acc, h => by
    refine map_canonicalMembers r fun p hp => ?_
    rcases Dict.mem_place hp with rfl | hp
    · exact canonical_canonical v
    · exact h p hp

end

end Json

/-! ## Documents of values -/

namespace Document

theorem ofItems_eq_map (items : List Json) : ofItems items = items.map ofJson := by
  induction items with
  | nil => rfl
  | cons v r ih => rw [ofItems, ih, List.map_cons]

theorem ofMembers_eq_map (ms : List (String × Json)) :
    ofMembers ms = ms.map fun p => (some p.1, ofJson p.2) := by
  induction ms with
  | nil => rfl
  | cons p r ih => rw [ofMembers, ih, List.map_cons]

mutual

/-- The document of a value has that value, members in key order. -/
theorem toJson_ofJson : ∀ v : Json, (ofJson v).toJson = .ok v.canonical
  | .null | .bool _ | .number _ | .string _ => rfl
  | .array items => by
    rw [ofJson, toJson, itemsToJson_ofItems items]
    rfl
  | .object ms => by
    rw [ofJson, toJson, membersToJson_ofMembers ms]
    rfl

theorem itemsToJson_ofItems :
    ∀ items : List Json, itemsToJson (ofItems items) = .ok (canonicalItems items)
  | [] => rfl
  | v :: r => by
    rw [ofItems, itemsToJson, toJson_ofJson v, itemsToJson_ofItems r]
    rfl

theorem membersToJson_ofMembers : ∀ (ms acc : List (String × Json)),
    membersToJson (ofMembers ms) acc = .ok (canonicalMembers ms acc)
  | [], _ => rfl
  | (k, v) :: r, acc => by
    rw [ofMembers, membersToJson, toJson_ofJson v]
    exact membersToJson_ofMembers r _

end

end Document

/-- A way in which written values come back as documents: scalars as they
    are, sequences item by item. -/
structure Faithful (doc : Json → Document) : Prop where
  bool (b : Bool) : doc (.bool b) = .bool b
  string (s : String) : doc (.string s) = .string (some s)
  int (n : Int) (hlow : -2 ^ 63 ≤ n) (hhigh : n < 2 ^ 64) : doc (.ofInt n) = .number (some (.int n))
  array (items : List Json) : doc (.array items) = .array (items.map doc) none

theorem Document.faithful_ofJson : Faithful ofJson where
  bool _ := rfl
  string _ := rfl
  int _ _ _ := rfl
  array items := by rw [ofJson, ofItems_eq_map]

/-- The document of a structured value, members in key order. -/
def Json.asValue (v : Json) : Document := .ofJson v.canonical

theorem Json.faithful_asValue : Faithful asValue where
  bool _ := rfl
  string _ := rfl
  int _ _ _ := rfl
  array items := by
    have hitems : ∀ items : List Json, canonicalItems items = items.map canonical := by
      intro items
      induction items with
      | nil => rfl
      | cons v r ih => rw [canonicalItems, ih, List.map_cons]
    rw [asValue, canonical, Document.ofJson, Document.ofItems_eq_map, hitems, List.map_map]
    rfl

/-! ## Scalars and sequences -/

namespace Codec

variable {α : Type} {doc : Json → Document}

/-- What was written from one value is read as another. -/
def Returns (c : Codec α) (doc : Json → Document) (a b : α) : Prop :=
  c.read (doc (c.write a)) = .ok b

theorem returns_string (h : Faithful doc) (s : String) : string.Returns doc s s := by
  show string.read (doc (.string s)) = .ok s
  rw [h.string]
  rfl

theorem returns_bool (h : Faithful doc) (b : Bool) : bool.Returns doc b b := by
  show bool.read (doc (.bool b)) = .ok b
  rw [h.bool]
  rfl

theorem returns_bounded (h : Faithful doc) {name : String} {low high : Int} {ofInt : Int → α}
    {toInt : α → Int} {a : α} (hlow : low ≤ toInt a) (hhigh : toInt a < high)
    (hmin : -2 ^ 63 ≤ low) (hmax : high ≤ 2 ^ 64) (hback : ofInt (toInt a) = a) :
    (bounded name low high ofInt toInt).Returns doc a a := by
  show (bounded name low high ofInt toInt).read (doc (.ofInt (toInt a))) = .ok a
  rw [h.int _ (Int.le_trans hmin hlow) (Int.lt_of_lt_of_le hhigh hmax)]
  show (if low ≤ toInt a ∧ toInt a < high then _ else _) = _
  rw [if_pos ⟨hlow, hhigh⟩, hback]

theorem returns_uint16 (h : Faithful doc) (n : UInt16) : uint16.Returns doc n n := by
  have hsize := n.toNat_lt
  refine returns_bounded h (by omega) ?_ (by decide) (by decide) (by simp)
  show (n.toNat : Int) < 65536
  omega

theorem returns_uint32 (h : Faithful doc) (n : UInt32) : uint32.Returns doc n n := by
  have hsize := n.toNat_lt
  refine returns_bounded h (by omega) ?_ (by decide) (by decide) (by simp)
  show (n.toNat : Int) < 4294967296
  omega

theorem returns_int32 (h : Faithful doc) (n : Int32) : int32.Returns doc n n := by
  refine returns_bounded h n.minValue_le_toInt ?_ (by decide) (by decide) n.ofInt_toInt
  exact Int.lt_add_one_iff.mpr n.toInt_le

theorem returns_int64 (h : Faithful doc) (n : Int64) : int64.Returns doc n n := by
  refine returns_bounded h n.minValue_le_toInt ?_ (by decide) (by decide) n.ofInt_toInt
  exact Int.lt_add_one_iff.mpr n.toInt_le

theorem returns_list {c : Codec α} (h : Faithful doc) {as bs : List α}
    (hitems : List.Forall₂ (c.Returns doc) as bs) : (list c).Returns doc as bs := by
  have hread : readItems c.read ((as.map c.write).map doc) = .ok bs := by
    induction hitems with
    | nil => rfl
    | cons hfirst _ ih =>
      rw [List.map_cons, List.map_cons, readItems, ih, hfirst]
      rfl
  show (list c).read (doc (.array (as.map c.write))) = .ok bs
  rw [h.array]
  show (readItems c.read _ >>= fun as => _) = _
  rw [hread]
  rfl

theorem returns_choice (h : Faithful doc) {variants : List (String × α)} {nameOf : α → String}
    {a : α} (hname : variants.lookup (nameOf a) = some a) :
    (choice variants nameOf).Returns doc a a := by
  show (choice variants nameOf).read (doc (.string (nameOf a))) = .ok a
  rw [h.string]
  show variantNamed variants (nameOf a) = .ok a
  rw [variantNamed, hname]

theorem returns_json (v : Json) : json.Returns asValue v v.canonical := by
  show liftBreakage (Document.ofJson v.canonical).toJson = _
  rw [Document.toJson_ofJson, canonical_canonical]
  rfl

end Codec

/-! ## Records -/

namespace RecordShape

variable {σ : Type} {shape : RecordShape σ} {doc : Json → Document}

/-- No two fields share a name, and none has a second one. -/
structure WellNamed (shape : RecordShape σ) : Prop where
  distinct : (shape.fields.map (·.name)).Nodup
  single : ∀ f ∈ shape.fields, f.otherName = none

/-- Fields are read one after the other from what one record wrote as them. -/
def filling (doc : Json → Document) (s : σ) (fs : List (Field σ)) (acc : σ) : Except Fault σ :=
  fs.foldlM (fun acc f => f.read (doc (f.write s)) acc) acc

/-- Reading what fields were written as from one record, one after the
    other, takes a record to another. -/
def Fills (doc : Json → Document) (s : σ) (fs : List (Field σ)) (acc final : σ) : Prop :=
  filling doc s fs acc = .ok final

theorem Fills.nil {s acc : σ} : Fills doc s [] acc acc := rfl

theorem Fills.cons {s : σ} {f : Field σ} {fs : List (Field σ)} {acc next final : σ}
    (hread : f.read (doc (f.write s)) acc = .ok next) (hrest : Fills doc s fs next final) :
    Fills doc s (f :: fs) acc final := by
  rw [Fills, filling, List.foldlM_cons, hread]
  exact hrest

section Field

variable {β : Type} {s : σ} {name : String} {c : Codec β} {get : σ → β} {set : β → σ → σ} {b : β}
  {fs : List (Field σ)} {acc final : σ}

theorem Fills.optional (hread : c.Returns doc (get s) b) (hrest : Fills doc s fs (set b acc) final) :
    Fills doc s (.optional name c get set :: fs) acc final := by
  refine .cons ?_ hrest
  show (c.read (doc (c.write (get s)))).map (set · acc) = _
  rw [hread]
  rfl

theorem Fills.needed (hread : c.Returns doc (get s) b) (hrest : Fills doc s fs (set b acc) final) :
    Fills doc s (.needed name c get set :: fs) acc final := by
  refine .cons ?_ hrest
  show (c.read (doc (c.write (get s)))).map (set · acc) = _
  rw [hread]
  rfl

end Field

namespace WellNamed

variable (h : shape.WellNamed)
include h

theorem find?_answersTo {f : Field σ} (hf : f ∈ shape.fields) :
    shape.fields.find? (·.answersTo f.name) = some f := by
  obtain ⟨hdistinct, hsingle⟩ := h
  generalize shape.fields = fields at *
  induction fields with
  | nil => cases hf
  | cons g fields ih =>
    have hanswers : g.answersTo f.name = (g.name == f.name) := by
      simp [Field.answersTo, hsingle g List.mem_cons_self]
    rw [List.map_cons, List.nodup_cons] at hdistinct
    rcases List.mem_cons.mp hf with rfl | hf
    · rw [List.find?_cons_of_pos (by rw [hanswers]; exact beq_self_eq_true _)]
    · have hne : g.name ≠ f.name := fun heq => hdistinct.1 (List.mem_map.mpr ⟨f, hf, heq.symm⟩)
      rw [List.find?_cons_of_neg (by rw [hanswers]; simpa using hne)]
      exact ih hf hdistinct.2 fun g hg => hsingle g (List.mem_cons_of_mem _ hg)

/-- Members that are fields are taken one by one, in the order they come in. -/
theorem readMembers_fields {τ : Type} {other : String → Document → τ → Except Fault τ} {s : σ}
    {fs : List (Field σ)} (hfields : ∀ f ∈ fs, f ∈ shape.fields) (hdistinct : (fs.map (·.name)).Nodup)
    {seen : List String} (hseen : ∀ f ∈ fs, f.name ∉ seen) (acc : σ) (t : τ) :
    shape.readMembers other (fs.map fun f => (some f.name, doc (f.write s))) seen acc t
      = (filling doc s fs acc).map fun final => ((fs.map (·.name)).reverse ++ seen, final, t) := by
  induction fs generalizing seen acc with
  | nil => rfl
  | cons f fs ih =>
    rw [List.map_cons, List.nodup_cons] at hdistinct
    have hnew : seen.contains f.name = false := by
      simpa using hseen f List.mem_cons_self
    rw [List.map_cons, readMembers, h.find?_answersTo (hfields f List.mem_cons_self)]
    dsimp only
    rw [hnew, if_neg Bool.false_ne_true, filling, List.foldlM_cons]
    cases f.read (doc (f.write s)) acc with
    | error e => rfl
    | ok next =>
      have hseen' : ∀ g ∈ fs, g.name ∉ f.name :: seen := by
        intro g hg hmem
        rcases List.mem_cons.mp hmem with heq | hmem
        · exact hdistinct.1 (List.mem_map.mpr ⟨g, hg, heq⟩)
        · exact hseen g (List.mem_cons_of_mem _ hg) hmem
      show shape.readMembers other _ (f.name :: seen) next t = _
      rw [ih (fun g hg => hfields g (List.mem_cons_of_mem _ hg)) hdistinct.2 hseen' next,
        List.map_cons, List.reverse_cons, List.append_assoc]
      rfl

/-- A map of fields, those among them without which there is no record, is
    read as what they fill in. -/
theorem read_fields {s : σ} {fs : List (Field σ)} (hfields : ∀ f ∈ fs, f ∈ shape.fields)
    (hdistinct : (fs.map (·.name)).Nodup)
    (hrequired : ∀ f ∈ shape.fields, f.presence = .required → f ∈ fs) :
    shape.read (.object (fs.map fun f => (some f.name, doc (f.write s))) none)
      = filling doc s fs shape.initial := by
  have hmissing : shape.missing? ((fs.map (·.name)).reverse ++ []) = none := by
    rw [missing?, List.find?_eq_none.mpr, Option.map_none]
    intro f hf hmiss
    simp only [Bool.and_eq_true, decide_eq_true_eq] at hmiss
    have hmem : f.name ∈ fs.map (·.name) := List.mem_map.mpr ⟨f, hrequired f hf hmiss.1, rfl⟩
    simp [hmem] at hmiss
  show shape.readMap _ none = _
  rw [readMap, h.readMembers_fields hfields hdistinct (by simp)]
  cases filling doc s fs shape.initial with
  | error e => rfl
  | ok final =>
    show shape.close _ final = _
    rw [close, hmissing]

/-- A map of all fields, in whatever order, is read as what they fill in. -/
theorem read_all_fields {s : σ} {fs : List (Field σ)} (hperm : fs.Perm shape.fields) :
    shape.read (.object (fs.map fun f => (some f.name, doc (f.write s))) none)
      = filling doc s fs shape.initial :=
  h.read_fields (fun _ hf => hperm.mem_iff.mp hf) ((hperm.map _).nodup_iff.mpr h.distinct)
    fun _ hf _ => hperm.mem_iff.mpr hf

end WellNamed

/-- A member that is read is a field that was not seen before, or goes to `other`. -/
theorem readMembers_cons {τ : Type} {other : String → Document → τ → Except Fault τ} {key : String}
    {d : Document} {ms : List (Option String × Document)} {seen : List String} {s : σ} {t : τ}
    {r : List String × σ × τ} :
    shape.readMembers other ((some key, d) :: ms) seen s t = .ok r ↔
      (∃ f s', shape.fields.find? (·.answersTo key) = some f ∧ f.name ∉ seen ∧
        f.read d s = .ok s' ∧ shape.readMembers other ms (f.name :: seen) s' t = .ok r) ∨
      (∃ t', shape.fields.find? (·.answersTo key) = none ∧ other key d t = .ok t' ∧
        shape.readMembers other ms seen s t' = .ok r) := by
  rw [readMembers]
  cases shape.fields.find? (·.answersTo key) with
  | some f =>
    dsimp only
    by_cases hseen : f.name ∈ seen
    · rw [if_pos (List.contains_iff_mem.mpr hseen)]
      refine ⟨by rintro ⟨⟩, ?_⟩
      rintro (⟨_, _, ⟨⟩, hnew, -⟩ | ⟨_, ⟨⟩, -⟩)
      exact absurd hseen hnew
    · rw [if_neg fun h => hseen (List.contains_iff_mem.mp h), bind_eq_ok]
      constructor
      · rintro ⟨s', hread, hrest⟩
        exact .inl ⟨f, s', rfl, hseen, hread, hrest⟩
      · rintro (⟨_, s', ⟨⟩, -, hread, hrest⟩ | ⟨_, ⟨⟩, -⟩)
        exact ⟨s', hread, hrest⟩
  | none =>
    dsimp only
    rw [bind_eq_ok]
    constructor
    · rintro ⟨t', hother, hrest⟩
      exact .inr ⟨t', rfl, hother, hrest⟩
    · rintro (⟨_, _, ⟨⟩, -⟩ | ⟨t', -, hother, hrest⟩)
      exact ⟨t', hother, hrest⟩

/-- Whether a key names a field. -/
def names (shape : RecordShape σ) (key : String) : Bool := shape.fields.any (·.answersTo key)

theorem names_iff_find? {key : String} :
    shape.names key = true ↔ ∃ f, shape.fields.find? (·.answersTo key) = some f := by
  rw [names, List.any_eq_true, ← Option.isSome_iff_exists, List.find?_isSome]

/-- Members that are fields and members that are not are taken apart from each other. -/
theorem readMembers_apart {τ : Type} {other : String → Document → τ → Except Fault τ}
    {ms : List (String × Document)} {seen seen' : List String} {acc final : σ} {t t' : τ}
    (hfields : shape.readMembers (fun _ _ u => .ok u)
      ((ms.filter fun p => shape.names p.1).map fun p => (some p.1, p.2)) seen acc ()
        = .ok (seen', final, ()))
    (hother : (ms.filter fun p => !shape.names p.1).foldlM (fun t p => other p.1 p.2 t) t
      = .ok t') :
    shape.readMembers other (ms.map fun p => (some p.1, p.2)) seen acc t
      = .ok (seen', final, t') := by
  induction ms generalizing seen acc t with
  | nil =>
    cases hfields
    cases hother
    rfl
  | cons p ms ih =>
    obtain ⟨key, d⟩ := p
    rw [List.map_cons, readMembers_cons]
    cases hnames : shape.names key with
    | true =>
      obtain ⟨f, hf⟩ := names_iff_find?.mp hnames
      rw [List.filter_cons_of_pos (by exact hnames), List.map_cons, readMembers_cons] at hfields
      rw [List.filter_cons_of_neg (by simp [hnames])] at hother
      obtain ⟨f, next, hf, hnew, hread, hrest⟩ | ⟨-, hnone, -⟩ := hfields
      · exact .inl ⟨f, next, hf, hnew, hread, ih hrest hother⟩
      · cases hf.symm.trans hnone
    | false =>
      have hf : shape.fields.find? (·.answersTo key) = none :=
        List.find?_eq_none.mpr fun f hf => List.any_eq_false.mp hnames f hf
      rw [List.filter_cons_of_neg (by simp [hnames])] at hfields
      rw [List.filter_cons_of_pos (by simp [hnames]), List.foldlM_cons, bind_eq_ok] at hother
      obtain ⟨next, hkeep, hrest⟩ := hother
      exact .inr ⟨next, hf, hkeep, ih hfields hrest⟩

theorem WellNamed.names_iff (h : shape.WellNamed) {key : String} :
    shape.names key = true ↔ key ∈ shape.fields.map (·.name) := by
  simp only [names, List.any_eq_true, List.mem_map]
  refine exists_congr fun f => and_congr_right fun hf => ?_
  simp [Field.answersTo, h.single f hf]

/-! ## Records in key order -/

/-- Fields under their names, in key order. -/
def placed (fs : List (Field σ)) (l : List (String × Field σ)) : List (String × Field σ) :=
  fs.foldl (fun l f => Dict.place f.name f l) l

/-- The fields of a record in the order in which a value has them. -/
def inKeyOrder (shape : RecordShape σ) : List (Field σ) := (placed shape.fields []).map (·.2)

theorem name_of_mem_placed {fs : List (Field σ)} {l : List (String × Field σ)}
    (h : ∀ p ∈ l, p.1 = p.2.name) : ∀ p ∈ placed fs l, p.1 = p.2.name := by
  induction fs generalizing l with
  | nil => exact h
  | cons f fs ih =>
    refine ih fun p hp => ?_
    rcases Dict.mem_place hp with rfl | hp
    · rfl
    · exact h p hp

theorem placed_perm {fs : List (Field σ)} {l : List (String × Field σ)}
    (hdistinct : (fs.map (·.name)).Nodup) (hnew : ∀ f ∈ fs, f.name ∉ l.map (·.1)) :
    (placed fs l).Perm (fs.map (fun f => (f.name, f)) ++ l) := by
  induction fs generalizing l with
  | nil => exact List.Perm.refl _
  | cons f fs ih =>
    rw [List.map_cons, List.nodup_cons] at hdistinct
    have hnew' : ∀ g ∈ fs, g.name ∉ (Dict.place f.name f l).map (·.1) := by
      intro g hg hmem
      rcases Dict.mem_keys_place hmem with heq | hmem
      · exact hdistinct.1 (List.mem_map.mpr ⟨g, hg, heq⟩)
      · exact hnew g (List.mem_cons_of_mem _ hg) hmem
    refine (ih hdistinct.2 hnew').trans ?_
    have hplace : (Dict.place f.name f l).Perm ((f.name, f) :: l) :=
      Dict.place_perm_of_notMem f (hnew f List.mem_cons_self)
    rw [List.map_cons, List.cons_append]
    exact (hplace.append_left _).trans List.perm_middle

theorem WellNamed.inKeyOrder_perm (h : shape.WellNamed) : shape.inKeyOrder.Perm shape.fields := by
  have hplaced : (placed shape.fields []).Perm (shape.fields.map (fun f => (f.name, f)) ++ []) :=
    placed_perm h.distinct fun f _ => List.not_mem_nil
  have hperm := hplaced.map Prod.snd
  rw [List.append_nil, List.map_map] at hperm
  simpa [inKeyOrder, Function.comp_def] using hperm

theorem canonicalMembers_placed (s : σ) (fs : List (Field σ)) (l : List (String × Field σ)) :
    canonicalMembers (fs.map fun f => (f.name, f.write s))
        (l.map fun p => (p.1, (p.2.write s).canonical))
      = (placed fs l).map fun p => (p.1, (p.2.write s).canonical) := by
  induction fs generalizing l with
  | nil => rfl
  | cons f fs ih =>
    rw [List.map_cons, canonicalMembers,
      Dict.place_map (fun g : Field σ => (g.write s).canonical) f.name f l]
    exact ih _

/-- A written record has its members in key order once it is a value. -/
theorem canonicalMembers_writeMembers (shape : RecordShape σ) (s : σ) :
    canonicalMembers (shape.writeMembers s) []
      = shape.inKeyOrder.map fun f => (f.name, (f.write s).canonical) := by
  have hname : ∀ p ∈ placed shape.fields [], p.1 = p.2.name :=
    name_of_mem_placed fun p hp => absurd hp List.not_mem_nil
  rw [writeMembers, inKeyOrder, List.map_map]
  refine (canonicalMembers_placed s shape.fields []).trans (List.map_congr_left fun p hp => ?_)
  exact Prod.ext (hname p hp) rfl

/-- A record is read back from its value if its fields fill it in. -/
theorem WellNamed.returns_of_fills (h : shape.WellNamed) {s final : σ}
    (hfills : Fills asValue s shape.inKeyOrder shape.initial final) :
    shape.codec.Returns asValue s final := by
  show shape.read (asValue (.object (shape.writeMembers s))) = _
  rw [asValue, canonical, canonicalMembers_writeMembers, Document.ofJson,
    Document.ofMembers_eq_map, List.map_map]
  exact (h.read_all_fields h.inKeyOrder_perm).trans hfills

end RecordShape

/-! ## Dictionaries in key order -/

theorem Codec.returns_dict {α : Type} {c : Codec α} {d : Dict String α}
    (h : ∀ p ∈ d.entries, c.Returns asValue p.2 p.2) : (Codec.dict c).Returns asValue d d := by
  have hread : ∀ (l : List (String × α)) (acc : Dict String α), (∀ p ∈ l, c.Returns asValue p.2 p.2) →
      (acc.entries ++ l).Pairwise (fun a b => a.1 < b.1) →
      ∃ e : Dict String α, e.entries = acc.entries ++ l ∧
        readEntries c.read (l.map fun p => (some p.1, asValue (c.write p.2))) acc = .ok e := by
    intro l
    induction l with
    | nil => exact fun acc _ _ => ⟨acc, (List.append_nil _).symm, rfl⟩
    | cons p l ih =>
      obtain ⟨k, v⟩ := p
      intro acc hl hsorted
      have hplace : (acc.insert k v).entries = acc.entries ++ [(k, v)] :=
        Dict.place_of_forall_lt fun q hq =>
          (List.pairwise_append.mp hsorted).2.2 q hq _ List.mem_cons_self
      obtain ⟨e, he, hrest⟩ := ih (acc.insert k v) (fun q hq => hl q (List.mem_cons_of_mem _ hq))
        (by rw [hplace, List.append_assoc]; exact hsorted)
      refine ⟨e, by rw [he, hplace, List.append_assoc]; rfl, ?_⟩
      rw [List.map_cons, readEntries, show c.read (asValue (c.write v)) = .ok v from
        hl _ List.mem_cons_self]
      exact hrest
  have hsorted : Sorted (d.entries.map fun p => (p.1, c.write p.2)) :=
    List.pairwise_map.mpr d.sorted
  obtain ⟨e, he, hentries⟩ := hread d.entries .empty h d.sorted
  obtain rfl : e = d := Dict.ext_entries he
  show (Codec.dict c).read (asValue (.object (e.entries.map fun p => (p.1, c.write p.2)))) = _
  rw [asValue, canonical, canonicalMembers_of_sorted hsorted, Document.ofJson,
    Document.ofMembers_eq_map, List.map_map, List.map_map]
  show (readEntries c.read (e.entries.map fun p => (some p.1, asValue (c.write p.2))) .empty
    >>= fun m => _) = _
  rw [hentries]
  rfl

end ServingPlane
