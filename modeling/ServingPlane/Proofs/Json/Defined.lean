import ServingPlane.Proofs.Json.Text

/-! # Numbers of documents are defined

    There is no text for an undefined number: what a reader makes of
    digits is finite or, at the edge of a format, infinite.  So every
    number of a document that was read from a text is defined, also after
    it went through an untyped value, and so is every number of a record
    that is read from such a document. -/

namespace ServingPlane

open Numeric

/-! ## Rounded numbers -/

namespace Numeric

theorem Format.roundRatio_le (f : Format) (num den : Nat) : f.roundRatio num den ≤ f.infinityBits := by
  simp only [roundRatio]
  split
  · exact Nat.zero_le _
  · exact Nat.min_le_right _ _

/-- A sign changes nothing below its weight. -/
theorem mod_of_sign (negative : Bool) {bits weight : Nat} (h : bits < weight) :
    (bits + if negative then weight else 0) % weight = bits := by
  cases negative with
  | true => exact (Nat.add_mod_right _ _).trans (Nat.mod_eq_of_lt h)
  | false => exact Nat.mod_eq_of_lt h

namespace Double

/-- The number is not the undefined one. -/
def Defined (x : Double) : Prop := x.reading ≠ .nan

/-- A pattern up to that of infinity, with a sign. -/
theorem defined_of_le {bits : Nat} (negative : Bool) (h : bits ≤ Format.double.infinityBits) :
    (⟨UInt64.ofNat (bits + if negative then Format.double.signWeight else 0)⟩ : Double).Defined := by
  have hinfinity : Format.double.infinityBits < 2 ^ 63 := by decide
  have hsign : Format.double.signWeight = 2 ^ 63 := by decide
  have hsize : (bits + if negative then Format.double.signWeight else 0) < 2 ^ 64 := by
    split <;> omega
  have hbits : (UInt64.ofNat (bits + if negative then Format.double.signWeight else 0)).toNat
      % Format.double.signWeight = bits := by
    rw [UInt64.toNat_ofNat', Nat.mod_eq_of_lt hsize]
    exact mod_of_sign negative (by omega)
  simp only [Defined, reading, Format.reading]
  rw [hbits]
  split
  · exact fun h => by cases h
  · rw [if_pos (Nat.le_antisymm h (Nat.le_of_not_lt ‹_›))]
    exact fun h => by cases h

theorem defined_ofRatio (negative : Bool) (num den : Nat) : (ofRatio negative num den).Defined :=
  defined_of_le negative (Format.double.roundRatio_le num den)

end Double

namespace Single

theorem isNaN_ofRatio (negative : Bool) (num den : Nat) :
    (ofRatio negative num den).isNaN = false := by
  have hround := Format.single.roundRatio_le num den
  have hinfinity : Format.single.infinityBits < 2 ^ 31 := by decide
  have hsign : Format.single.signWeight = 2 ^ 31 := by decide
  have hsize : Format.single.ofRatio negative num den < 2 ^ 32 := by
    rw [Format.ofRatio]
    split <;> omega
  have hbits : (ofRatio negative num den).bits.toNat % Format.single.signWeight
      = Format.single.roundRatio num den := by
    show (UInt32.ofNat (Format.single.ofRatio negative num den)).toNat % _ = _
    rw [UInt32.toNat_ofNat', Nat.mod_eq_of_lt hsize]
    exact mod_of_sign negative (by omega)
  rw [isNaN, hbits]
  exact decide_eq_false (Nat.not_lt.mpr hround)

theorem isNaN_toSingle {x : Double} (h : x.Defined) : x.toSingle.isNaN = false := by
  simp only [Double.toSingle]
  cases hreading : x.reading with
  | finite negative m => exact isNaN_ofRatio _ _ _
  | infinite negative =>
    cases negative with
    | true => decide
    | false => decide
  | nan => exact absurd hreading h

end Single

/-- Scaling stays within the patterns up to that of infinity. -/
theorem scalePattern_le_infinityBits {fuel bits scaled : Nat} {exponent : Int}
    (h : scalePattern fuel bits exponent = some scaled) : scaled ≤ Format.double.infinityBits := by
  induction fuel generalizing bits exponent with
  | zero =>
    cases h
    exact Nat.zero_le _
  | succ fuel ih =>
    simp only [scalePattern] at h
    split at h
    · split at h
      · cases h
        exact Format.double.roundRatio_le _ _
      · split at h
        · cases h
          exact Nat.le_of_lt ‹_›
        · cases h
    · split at h
      · cases h
        exact Nat.zero_le _
      · split at h
        · exact ih h
        · cases h

end Numeric

/-- A number other than the undefined one. -/
def Number.Defined : Number → Prop
  | .int _ => True
  | .float x => x.Defined

namespace Document

theorem defined_wholeNumber (negative : Bool) (n : Nat) : (wholeNumber negative n).Defined := by
  rw [wholeNumber]
  cases negative with
  | true =>
    rw [if_pos rfl]
    split
    · trivial
    · exact Double.defined_ofRatio _ _ _
  | false => trivial

theorem defined_scaledDouble {negative : Bool} {significand : Nat} {exponent : Int} {n : Number}
    (h : (scaledDouble? negative significand exponent).map Number.float = some n) : n.Defined := by
  obtain ⟨x, hx, rfl⟩ := Option.map_eq_some_iff.mp h
  obtain ⟨bits, hbits, rfl⟩ := Option.map_eq_some_iff.mp hx
  exact Double.defined_of_le negative (scalePattern_le_infinityBits hbits)

/-- Digits with their marks make up a defined number. -/
theorem defined_readNumber {cs r : List Char} {n : Number}
    (h : readNumber cs = .ok (some n, r)) : n.Defined := by
  simp only [readNumber] at h
  obtain ⟨p, -, h⟩ := bind_eq_ok.mp h
  obtain ⟨q, -, h⟩ := bind_eq_ok.mp h
  obtain ⟨e, -, h⟩ := bind_eq_ok.mp h
  split at h
  · cases h
    exact defined_wholeNumber _ _
  · exact defined_scaledDouble (Prod.mk.inj (Except.ok.inj h)).1

/-! ## Documents -/

mutual

/-- The numbers in a document. -/
def numbers : Document → List Number
  | number (some n) => [n]
  | array items _ => itemsNumbers items
  | object members _ => membersNumbers members
  | deep d => numbers d
  | _ => []

/-- The numbers in items. -/
def itemsNumbers : List Document → List Number
  | [] => []
  | d :: r => numbers d ++ itemsNumbers r

/-- The numbers in members. -/
def membersNumbers : List (Option String × Document) → List Number
  | [] => []
  | (_, d) :: r => numbers d ++ membersNumbers r

end

/-- A document without undefined numbers. -/
def Defined (d : Document) : Prop := ∀ n ∈ d.numbers, n.Defined

theorem mem_itemsNumbers {items : List Document} {n : Number} :
    n ∈ itemsNumbers items ↔ ∃ d ∈ items, n ∈ d.numbers := by
  induction items with
  | nil => simp [itemsNumbers]
  | cons d items ih => simp [itemsNumbers, ih]

theorem mem_membersNumbers {members : List (Option String × Document)} {n : Number} :
    n ∈ membersNumbers members ↔ ∃ p ∈ members, n ∈ p.2.numbers := by
  induction members with
  | nil => simp [membersNumbers]
  | cons p members ih =>
    obtain ⟨key, d⟩ := p
    simp [membersNumbers, ih]

theorem defined_array {items : List Document} {ending : Option Breakage} :
    (array items ending).Defined ↔ ∀ d ∈ items, d.Defined := by
  simp only [Defined, numbers, mem_itemsNumbers]
  exact ⟨fun h d hd n hn => h n ⟨d, hd, hn⟩, fun h n ⟨d, hd, hn⟩ => h d hd n hn⟩

theorem defined_object {members : List (Option String × Document)} {ending : Option Damage} :
    (object members ending).Defined ↔ ∀ p ∈ members, p.2.Defined := by
  simp only [Defined, numbers, mem_membersNumbers]
  exact ⟨fun h p hp n hn => h n ⟨p, hp, hn⟩, fun h n ⟨p, hp, hn⟩ => h p hp n hn⟩

theorem defined_of_numbers_nil {d : Document} (h : d.numbers = []) : d.Defined := by
  intro n hn
  rw [h] at hn
  exact absurd hn List.not_mem_nil

theorem defined_within {depth : Nat} {s : Step} (h : s.document.Defined) :
    (s.within depth).document.Defined := by
  cases depth with
  | zero => exact h
  | succ depth => exact h

theorem defined_readWord {result : Document} (h : result.Defined) (word cs : List Char) :
    (readWord result word cs).document.Defined := by
  induction word generalizing cs with
  | nil => exact h
  | cons w word ih =>
    cases cs with
    | nil => exact defined_of_numbers_nil rfl
    | cons c cs =>
      rw [readWord]
      split
      · exact ih cs
      · exact defined_of_numbers_nil rfl

theorem defined_readString (cs : List Char) :
    (match readString cs with
      | .ok (s, r) => (⟨.string s, some r⟩ : Step)
      | .error damage => .stop damage).document.Defined := by
  cases readString cs with
  | error damage => exact defined_of_numbers_nil rfl
  | ok read =>
    obtain ⟨s, r⟩ := read
    cases s with
    | none => exact defined_of_numbers_nil rfl
    | some s => exact defined_of_numbers_nil rfl

/-- What a reader makes of a text has no undefined number. -/
structure ReadsDefined (fuel : Nat) : Prop where
  value : ∀ depth cs, (readValue fuel depth cs).document.Defined
  items : ∀ depth cs acc, (∀ d ∈ acc, d.Defined) → (readItems fuel depth cs acc).document.Defined
  members : ∀ depth cs acc, (∀ p ∈ acc, p.2.Defined) →
    (readMembers fuel depth cs acc).document.Defined

/-- Items that were read so far, the last one first. -/
theorem defined_array_reverse {items : List Document} {ending : Option Breakage}
    (h : ∀ d ∈ items, d.Defined) : (array items.reverse ending).Defined :=
  defined_array.mpr fun d hd => h d (List.mem_reverse.mp hd)

/-- Members that were read so far, the last one first. -/
theorem defined_object_reverse {members : List (Option String × Document)}
    {ending : Option Damage} (h : ∀ p ∈ members, p.2.Defined) :
    (object members.reverse ending).Defined :=
  defined_object.mpr fun p hp => h p (List.mem_reverse.mp hp)

theorem ReadsDefined.readValue {fuel : Nat} (h : ReadsDefined fuel) (depth : Nat)
    (cs : List Char) : (readValue (fuel + 1) depth cs).document.Defined := by
  have hempty (d : Document) (hd : d ∈ []) : d.Defined := absurd hd List.not_mem_nil
  have hnone (p : Option String × Document) (hp : p ∈ []) : p.2.Defined :=
    absurd hp List.not_mem_nil
  rw [Document.readValue]
  split
  · exact defined_of_numbers_nil rfl
  · exact defined_readString _
  · refine defined_within ?_
    split
    · exact defined_of_numbers_nil rfl
    · exact defined_of_numbers_nil rfl
    · exact h.items _ _ _ hempty
  · refine defined_within ?_
    split
    · exact defined_of_numbers_nil rfl
    · exact defined_of_numbers_nil rfl
    · exact h.members _ _ _ hnone
    · exact defined_of_numbers_nil rfl
  · exact defined_readWord (defined_of_numbers_nil rfl) _ _
  · exact defined_readWord (defined_of_numbers_nil rfl) _ _
  · exact defined_readWord (defined_of_numbers_nil rfl) _ _
  · split
    · split
      · rename_i n _ hnumber
        cases n with
        | none => exact defined_of_numbers_nil rfl
        | some n =>
          intro other hother
          rw [List.mem_singleton.mp hother]
          exact defined_readNumber hnumber
      · exact defined_of_numbers_nil rfl
    · exact defined_of_numbers_nil rfl

theorem ReadsDefined.readItems {fuel : Nat} (h : ReadsDefined fuel) (depth : Nat)
    (cs : List Char) (acc : List Document) (hacc : ∀ d ∈ acc, d.Defined) :
    (readItems (fuel + 1) depth cs acc).document.Defined := by
  have hvalue := h.value depth cs
  rw [Document.readItems]
  generalize Document.readValue fuel depth cs = step at hvalue
  have hcons : ∀ d ∈ step.document :: acc, d.Defined := List.forall_mem_cons.mpr ⟨hvalue, hacc⟩
  split
  · exact defined_array_reverse hcons
  · split
    · exact defined_array_reverse hcons
    · exact defined_array_reverse hcons
    · split
      · exact defined_array_reverse hcons
      · exact h.items _ _ _ hcons
    · exact defined_array_reverse hcons

theorem ReadsDefined.readMembers {fuel : Nat} (h : ReadsDefined fuel) (depth : Nat)
    (cs : List Char) (acc : List (Option String × Document)) (hacc : ∀ p ∈ acc, p.2.Defined) :
    (readMembers (fuel + 1) depth cs acc).document.Defined := by
  have hbroken (key : Option String) (b : Breakage) :
      ∀ p ∈ (key, broken (.plain b)) :: acc, p.2.Defined :=
    List.forall_mem_cons.mpr ⟨defined_of_numbers_nil rfl, hacc⟩
  unfold Document.readMembers
  split
  · exact defined_object_reverse hacc
  · split
    · exact defined_object_reverse hacc
    · split
      · exact defined_object_reverse (hbroken _ _)
      · rename_i key _ _ _ r _
        have hvalue := h.value depth r
        generalize Document.readValue fuel depth r = step at hvalue
        have hcons : ∀ p ∈ (key, step.document) :: acc, p.2.Defined :=
          List.forall_mem_cons.mpr ⟨hvalue, hacc⟩
        split
        · exact defined_object_reverse hcons
        · split
          · exact defined_object_reverse hcons
          · exact defined_object_reverse hcons
          · exact h.members _ _ _ hcons
          · exact defined_object_reverse hcons
      · exact defined_object_reverse (hbroken _ _)
  · exact defined_object_reverse hacc

theorem readsDefined (fuel : Nat) : ReadsDefined fuel := by
  induction fuel with
  | zero => exact ⟨fun _ _ => defined_of_numbers_nil rfl, fun _ _ _ => defined_array_reverse,
      fun _ _ _ => defined_object_reverse⟩
  | succ fuel ih => exact ⟨ih.readValue, ih.readItems, ih.readMembers⟩

/-- No text holds an undefined number. -/
theorem defined_ofText (s : String) : (ofText s).document.Defined := by
  have hvalue := (readsDefined (2 * s.toList.length + 2)).value maxDepth s.toList
  unfold ofText
  dsimp only
  generalize readValue (2 * s.toList.length + 2) maxDepth s.toList = step at hvalue
  split
  · exact hvalue
  · exact hvalue

end Document

/-! ## Untyped values -/

/-- A value without undefined numbers. -/
def Json.Defined (v : Json) : Prop := ∀ n ∈ v.numbers, n.Defined

namespace Json

theorem mem_itemsNumbers {items : List Json} {n : Number} :
    n ∈ itemsNumbers items ↔ ∃ v ∈ items, n ∈ v.numbers := by
  induction items with
  | nil => simp [itemsNumbers]
  | cons v items ih => simp [itemsNumbers, ih]

theorem mem_membersNumbers {ms : List (String × Json)} {n : Number} :
    n ∈ membersNumbers ms ↔ ∃ p ∈ ms, n ∈ p.2.numbers := by
  induction ms with
  | nil => simp [membersNumbers]
  | cons p ms ih =>
    obtain ⟨key, v⟩ := p
    simp [membersNumbers, ih]

theorem defined_array {items : List Json} : (array items).Defined ↔ ∀ v ∈ items, v.Defined := by
  simp only [Defined, numbers, mem_itemsNumbers]
  exact ⟨fun h v hv n hn => h n ⟨v, hv, hn⟩, fun h n ⟨v, hv, hn⟩ => h v hv n hn⟩

theorem defined_object {ms : List (String × Json)} :
    (object ms).Defined ↔ ∀ p ∈ ms, p.2.Defined := by
  simp only [Defined, numbers, mem_membersNumbers]
  exact ⟨fun h p hp n hn => h n ⟨p, hp, hn⟩, fun h n ⟨p, hp, hn⟩ => h p hp n hn⟩

end Json

namespace Document

mutual

/-- The untyped value of a document has no other numbers. -/
theorem defined_toJson : ∀ {d : Document} {v : Json}, d.toJson = .ok v → d.Defined → v.Defined
  | .null, _, h, _ | .bool _, _, h, _ | .string (some _), _, h, _ => by
    cases h
    exact fun _ hn => absurd hn List.not_mem_nil
  | .number (some n), _, h, hd => by
    cases h
    exact hd
  | .number none, _, h, _ | .string none, _, h, _ | .deep _, _, h, _ | .broken _, _, h, _ => by
    cases h
  | .array items ending, _, h, hd => by
    obtain ⟨vs, hvs, h⟩ := bind_eq_ok.mp h
    obtain ⟨-, -, h⟩ := bind_eq_ok.mp h
    cases h
    exact Json.defined_array.mpr (defined_itemsToJson hvs (defined_array.mp hd))
  | .object members ending, _, h, hd => by
    obtain ⟨ms, hms, h⟩ := bind_eq_ok.mp h
    obtain ⟨-, -, h⟩ := bind_eq_ok.mp h
    cases h
    have hnone (p : String × Json) (hp : p ∈ []) : p.2.Defined := absurd hp List.not_mem_nil
    exact Json.defined_object.mpr (defined_membersToJson hms (defined_object.mp hd) hnone)

theorem defined_itemsToJson : ∀ {items : List Document} {vs : List Json},
    itemsToJson items = .ok vs → (∀ d ∈ items, d.Defined) → ∀ v ∈ vs, v.Defined
  | [], _, h, _ => by
    cases h
    exact fun _ hv => absurd hv List.not_mem_nil
  | d :: items, _, h, hd => by
    obtain ⟨v, hv, h⟩ := bind_eq_ok.mp h
    obtain ⟨vs, hvs, h⟩ := bind_eq_ok.mp h
    cases h
    obtain ⟨hfirst, hrest⟩ := List.forall_mem_cons.mp hd
    exact List.forall_mem_cons.mpr ⟨defined_toJson hv hfirst, defined_itemsToJson hvs hrest⟩

theorem defined_membersToJson : ∀ {members : List (Option String × Document)}
    {acc ms : List (String × Json)}, membersToJson members acc = .ok ms →
    (∀ p ∈ members, p.2.Defined) → (∀ p ∈ acc, p.2.Defined) → ∀ p ∈ ms, p.2.Defined
  | [], _, _, h, _, hacc => by
    cases h
    exact hacc
  | (none, _) :: _, _, _, h, _, _ => by
    cases h
  | (some key, d) :: members, acc, _, h, hd, hacc => by
    obtain ⟨v, hv, h⟩ := bind_eq_ok.mp h
    obtain ⟨hfirst, hrest⟩ := List.forall_mem_cons.mp hd
    refine defined_membersToJson h hrest fun p hp => ?_
    rcases Dict.mem_place hp with rfl | hp
    · exact defined_toJson hv hfirst
    · exact hacc p hp

end

mutual

/-- A value has its numbers as a document. -/
theorem numbers_ofJson : ∀ v : Json, (ofJson v).numbers = v.numbers
  | .null | .bool _ | .string _ => rfl
  | .number _ => rfl
  | .array items => itemsNumbers_ofItems items
  | .object ms => membersNumbers_ofMembers ms

theorem itemsNumbers_ofItems : ∀ items : List Json,
    itemsNumbers (ofItems items) = Json.itemsNumbers items
  | [] => rfl
  | v :: items => by
    rw [ofItems, itemsNumbers, Json.itemsNumbers, numbers_ofJson v, itemsNumbers_ofItems items]

theorem membersNumbers_ofMembers : ∀ ms : List (String × Json),
    membersNumbers (ofMembers ms) = Json.membersNumbers ms
  | [] => rfl
  | (key, v) :: ms => by
    rw [ofMembers, membersNumbers, Json.membersNumbers, numbers_ofJson v,
      membersNumbers_ofMembers ms]

end

theorem defined_ofJson {v : Json} (h : v.Defined) : (ofJson v).Defined := by
  rw [Defined, numbers_ofJson]
  exact h

end Document

/-! ## Records -/

/-- A four-byte number of such a document is not the undefined one. -/
theorem Codec.isNaN_readSingle {d : Document} {x : Single} (h : readSingle d = .ok x)
    (hd : d.Defined) : x.isNaN = false := by
  unfold readSingle at h
  split at h
  · cases h
    exact Single.isNaN_ofRatio _ _ _
  · cases h
    exact Single.isNaN_toSingle (hd _ (List.mem_singleton.mpr rfl))
  · cases h

/-- Reading a field from a document without undefined numbers keeps a
    property of the record. -/
def Field.Keeps {σ : Type} (f : Field σ) (P : σ → Prop) : Prop :=
  ∀ d s s', d.Defined → P s → f.read d s = .ok s' → P s'

theorem Field.keeps_optional {σ β : Type} {P : σ → Prop} {name : String} {c : Codec β}
    {get : σ → β} {set : β → σ → σ}
    (h : ∀ d v s, d.Defined → c.read d = .ok v → P s → P (set v s)) :
    (Field.optional name c get set).Keeps P := by
  intro d s s' hd hs hread
  obtain ⟨v, hv, rfl⟩ := map_eq_ok.mp hread
  exact h d v s hd hv hs

namespace RecordShape

variable {σ τ : Type} {shape : RecordShape σ} {P : σ → Prop} {R : τ → Prop}
  (hfields : ∀ f ∈ shape.fields, f.Keeps P)
include hfields

/-- Members that name no field may leave a trace of their own. -/
theorem keeps_readMembers {other : String → Document → τ → Except Fault τ}
    (hother : ∀ key d t t', d.Defined → R t → other key d t = .ok t' → R t')
    {members : List (Option String × Document)} {seen seen' : List String} {s s' : σ} {t t' : τ}
    (hd : ∀ p ∈ members, p.2.Defined) (hs : P s) (ht : R t)
    (h : shape.readMembers other members seen s t = .ok (seen', s', t')) : P s' ∧ R t' := by
  induction members generalizing seen s t with
  | nil =>
    cases h
    exact ⟨hs, ht⟩
  | cons p members ih =>
    obtain ⟨key, d⟩ := p
    obtain ⟨hfirst, hrest⟩ := List.forall_mem_cons.mp hd
    cases key with
    | none => cases h
    | some key =>
      rw [readMembers] at h
      split at h
      · rename_i f hfind
        split at h
        · cases h
        · obtain ⟨s₁, hread, h⟩ := bind_eq_ok.mp h
          exact ih hrest (hfields f (List.mem_of_find?_eq_some hfind) d s s₁ hfirst hs hread) ht h
      · obtain ⟨t₁, hkept, h⟩ := bind_eq_ok.mp h
        exact ih hrest hs (hother key d t t₁ hfirst ht hkept) h

theorem keeps_readPositions {ending : Option Breakage} {fs : List (Field σ)}
    (hsub : ∀ f ∈ fs, f ∈ shape.fields) {i : Nat} {items : List Document} {s s' : σ}
    (hd : ∀ d ∈ items, d.Defined) (hs : P s)
    (h : shape.readPositions ending i fs items s = .ok s') : P s' := by
  induction fs generalizing i items s with
  | nil =>
    cases h
    exact hs
  | cons f fs ih =>
    obtain ⟨hf, hsub⟩ := List.forall_mem_cons.mp hsub
    cases items with
    | nil =>
      obtain ⟨-, -, h⟩ := bind_eq_ok.mp h
      split at h
      · cases h
      · exact ih hsub hd hs h
    | cons d items =>
      obtain ⟨hfirst, hrest⟩ := List.forall_mem_cons.mp hd
      obtain ⟨s₁, hread, h⟩ := bind_eq_ok.mp h
      exact ih hsub hrest (hfields f hf d s s₁ hfirst hs hread) h

variable (hinitial : P shape.initial)
include hinitial

theorem keeps_readMap {members : List (Option String × Document)} {ending : Option Damage} {s : σ}
    (hd : ∀ p ∈ members, p.2.Defined) (h : shape.readMap members ending = .ok s) : P s := by
  obtain ⟨⟨seen, s₁, t⟩, hmembers, h⟩ := bind_eq_ok.mp h
  obtain ⟨-, -, h⟩ := bind_eq_ok.mp h
  have hs := (keeps_readMembers hfields (R := fun _ => True) (fun _ _ _ _ _ _ _ => trivial) hd
    hinitial trivial hmembers).1
  simp only [close] at h
  split at h
  · cases h
  · cases h
    exact hs

/-- A property that the empty record has, and that every field keeps. -/
theorem keeps_read {d : Document} {s : σ} (hd : d.Defined) (h : shape.read d = .ok s) : P s := by
  unfold read at h
  split at h
  · exact keeps_readMap hfields hinitial (Document.defined_object.mp hd) h
  · obtain ⟨s₁, hpositions, h⟩ := bind_eq_ok.mp h
    have hs := keeps_readPositions hfields (fun _ hf => hf) (Document.defined_array.mp hd) hinitial
      hpositions
    split at h
    · cases h
    · obtain ⟨-, -, h⟩ := bind_eq_ok.mp h
      cases h
      exact hs
  · cases h

end RecordShape

end ServingPlane
