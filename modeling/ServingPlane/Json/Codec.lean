import ServingPlane.Json.Fault
import ServingPlane.Json.Reader

/-! # Codecs

    A codec writes values of a type as structured values and reads them
    back from documents.  Records are described once, field by field;
    writing lists the fields in that order and reading takes the members
    in the order of the document. -/

namespace ServingPlane

open Numeric

/-- The two directions between a type and its wire form. -/
structure Codec (α : Type) where
  write : α → Json
  read : Document → Except Fault α

namespace Codec

/-- Strings stand for themselves. -/
def string : Codec String where
  write := .string
  read
    | .string (some s) => .ok s
    | d => .error (d.mismatch "a string")

/-- Truth values stand for themselves. -/
def bool : Codec Bool where
  write := .bool
  read
    | .bool b => .ok b
    | d => .error (d.mismatch "a boolean")

/-- Whole numbers within bounds; `name` is what a message calls the type. -/
def bounded {α : Type} (name : String) (low high : Int) (ofInt : Int → α) (toInt : α → Int) :
    Codec α where
  write a := .ofInt (toInt a)
  read
    | .number (some (.int n)) =>
      if low ≤ n ∧ n < high then .ok (ofInt n) else .error (.wrongValue (.number (.int n)) name)
    | d => .error (d.mismatch name)

/-- Sixteen-bit naturals. -/
def uint16 : Codec UInt16 :=
  bounded "u16" 0 UInt16.size (fun n => .ofNat n.toNat) (fun a => a.toNat)

/-- Thirty-two-bit naturals. -/
def uint32 : Codec UInt32 :=
  bounded "u32" 0 UInt32.size (fun n => .ofNat n.toNat) (fun a => a.toNat)

/-- Sixty-four-bit naturals. -/
def uint64 : Codec UInt64 :=
  bounded "u64" 0 UInt64.size (fun n => .ofNat n.toNat) (fun a => a.toNat)

/-- Sixty-four-bit naturals that count things. -/
def count : Codec UInt64 :=
  bounded "usize" 0 UInt64.size (fun n => .ofNat n.toNat) (fun a => a.toNat)

/-- Thirty-two-bit integers. -/
def int32 : Codec Int32 :=
  bounded "i32" Int32.minValue.toInt (Int32.maxValue.toInt + 1) .ofInt Int32.toInt

/-- Sixty-four-bit integers. -/
def int64 : Codec Int64 :=
  bounded "i64" Int64.minValue.toInt (Int64.maxValue.toInt + 1) .ofInt Int64.toInt

/-- Read a four-byte number: whole numbers are rounded once, others after
    they were rounded to eight bytes. -/
def readSingle : Document → Except Fault Single
  | .number (some (.int n)) => .ok (.ofInt n)
  | .number (some (.float x)) => .ok x.toSingle
  | d => .error (d.mismatch "f32")

/-- Four-byte numbers by their shortest decimal; null if not finite. -/
def single : Codec Single where
  write x := match x.asDocumentNumber? with
    | some d => .number (.float d)
    | none => .null
  read := readSingle

/-- Four-byte numbers by their exact value; null if not finite. -/
def wideSingle : Codec Single where
  write x := if x.isFinite then .number (.float x.toDouble) else .null
  read := readSingle

/-- Eight-byte numbers; null if not finite. -/
def double : Codec Double where
  write x := if x.isFinite then .number (.float x) else .null
  read
    | .number (some (.int n)) => .ok (.ofInt n)
    | .number (some (.float x)) => .ok x
    | d => .error (d.mismatch "f64")

/-- Fail if a map that was read to its end has none. -/
def settleMembers (ending : Option Damage) : Except Fault Unit :=
  liftBreakage (Document.settle (ending.map (·.read)))

/-- Untyped values. -/
def json : Codec Json where
  write := id
  read d := liftBreakage d.toJson

/-- Read the items of a sequence one by one. -/
def readItems {α : Type} (read : Document → Except Fault α) : List Document → Except Fault (List α)
  | [] => .ok []
  | d :: r => do
    let a ← read d
    let as ← readItems read r
    return a :: as

/-- Sequences. -/
def list {α : Type} (c : Codec α) : Codec (List α) where
  write as := .array (as.map c.write)
  read
    | .array items ending => do
      let as ← readItems c.read items
      liftBreakage (Document.settle ending)
      return as
    | d => .error (d.mismatch "a sequence")

/-- Pairs, as sequences of two; `shape` is what a message calls them. -/
def pair {α β : Type} (shape : String) (a : Codec α) (b : Codec β) : Codec (α × β) where
  write p := .array [a.write p.1, b.write p.2]
  read
    | .array items ending =>
      match items with
      | [] => do
        liftBreakage (Document.settle ending)
        .error (.wrongLength 0 shape)
      | [x] => do
        let _ ← a.read x
        liftBreakage (Document.settle ending)
        .error (.wrongLength 1 shape)
      | x :: y :: rest => do
        let va ← a.read x
        let vb ← b.read y
        if rest.isEmpty then
          liftBreakage (Document.settle ending)
          return (va, vb)
        else .error (.leftover items.length)
    | d => .error (d.mismatch shape)

/-- A value that may be absent, written as null. -/
def option {α : Type} (c : Codec α) : Codec (Option α) where
  write
    | some a => c.write a
    | none => .null
  read
    | .null => .ok none
    | d => (c.read d).map some

/-- Read members into a map; a later member of a key wins. -/
def readEntries {α : Type} (read : Document → Except Fault α) :
    List (Option String × Document) → Dict String α → Except Fault (Dict String α)
  | [], acc => .ok acc
  | (none, _) :: _, _ => .error (.broken .malformed)
  | (some k, d) :: r, acc => do
    let a ← read d
    readEntries read r (acc.insert k a)

/-- Maps with string keys. -/
def dict {α : Type} (c : Codec α) : Codec (Dict String α) where
  write m := .object (m.entries.map fun p => (p.1, c.write p.2))
  read
    | .object members ending => do
      let m ← readEntries c.read members .empty
      settleMembers ending
      return m
    | d => .error (d.mismatch "a map")

/-- The variant with a given name. -/
def variantNamed {α : Type} (variants : List (String × α)) (name : String) : Except Fault α :=
  match variants.lookup name with
  | some a => .ok a
  | none => .error (.unknownVariant name (variants.map (·.1)))

/-- What must stand under the name of a variant given as a map. -/
def readNothing : Document → Except Fault Unit
  | .null => .ok ()
  | d => .error (d.mismatch "unit")

/-- A choice between named variants: a string, or a map from the one name to null. -/
def choice {α : Type} (variants : List (String × α)) (nameOf : α → String) : Codec α where
  write a := .string (nameOf a)
  read
    | .string (some s) => variantNamed variants s
    | .object members ending =>
      match members with
      | [] => .error (.noVariantKey ((ending.map (·.variant)).getD .malformed))
      | (none, _) :: _ => .error (.broken .malformed)
      | (some k, d) :: more =>
        let first := do
          let a ← variantNamed variants k
          readNothing d
          return a
        match more, first with
        | [], first => do
          let a ← first
          match ending with
          | none => return a
          | some damage => .error (.manyVariantKeys damage.variant)
        | _ :: _, .ok _ => .error (.manyVariantKeys .malformed)
        | _ :: _, .error e => .error (.manyVariantKeys e.kind)
    | d => .error d.notVariant

end Codec

/-- When a field may be left out. -/
inductive Presence where
  /-- Never. -/
  | required
  /-- From a map, but not from a sequence of fields. -/
  | positional
  /-- Always. -/
  | optional
  deriving DecidableEq, Repr

/-- A field of a record: its name on the wire and how it moves. -/
structure Field (σ : Type) where
  name : String
  /-- Another name under which the field is read. -/
  otherName : Option String
  presence : Presence
  write : σ → Json
  read : Document → σ → Except Fault σ

namespace Field

/-- A field that keeps its initial value when it is absent. -/
def optional {σ β : Type} (name : String) (c : Codec β) (get : σ → β) (set : β → σ → σ) : Field σ :=
  ⟨name, none, .optional, fun s => c.write (get s), fun d s => (c.read d).map (set · s)⟩

/-- A field without which there is no record. -/
def needed {σ β : Type} (name : String) (c : Codec β) (get : σ → β) (set : β → σ → σ) : Field σ :=
  { optional name c get set with presence := .required }

/-- A field that a map may leave out and give as null. -/
def positional {σ β : Type} (name : String) (c : Codec β) (get : σ → Option β)
    (set : Option β → σ → σ) : Field σ :=
  { optional name (.option c) get set with presence := .positional }

/-- Whether a key of a document names the field. -/
def answersTo {σ : Type} (f : Field σ) (key : String) : Bool :=
  f.name == key || f.otherName == some key

end Field

/-- A record type on the wire. -/
structure RecordShape (σ : Type) where
  /-- What messages call the type. -/
  name : String
  /-- The record before any field is read. -/
  initial : σ
  fields : List (Field σ)

namespace RecordShape

variable {σ : Type}

/-- The first required field that was not seen. -/
def missing? (shape : RecordShape σ) (seen : List String) : Option String :=
  (shape.fields.find? fun f => f.presence = .required && !seen.contains f.name).map (·.name)

/-- Take the members of a document in order.  Members that name no field
    go to `other`, which may keep or drop them. -/
def readMembers {τ : Type} (shape : RecordShape σ) (other : String → Document → τ → Except Fault τ) :
    List (Option String × Document) → List String → σ → τ → Except Fault (List String × σ × τ)
  | [], seen, s, t => .ok (seen, s, t)
  | (none, _) :: _, _, _, _ => .error (.broken .malformed)
  | (some key, d) :: r, seen, s, t =>
    match shape.fields.find? (·.answersTo key) with
    | some f =>
      if seen.contains f.name then .error (.duplicateField f.name)
      else do
        let s ← f.read d s
        readMembers shape other r (f.name :: seen) s t
    | none => do
      let t ← other key d t
      readMembers shape other r seen s t

/-- Fail if a required field was not seen. -/
def close (shape : RecordShape σ) (seen : List String) (s : σ) : Except Fault σ :=
  match shape.missing? seen with
  | some name => .error (.missingField name)
  | none => .ok s

/-- Read a record from a map; unknown members are passed over. -/
def readMap (shape : RecordShape σ) (members : List (Option String × Document))
    (ending : Option Damage) : Except Fault σ := do
  let (seen, s, _) ← shape.readMembers (fun _ d t => do liftBreakage d.skim; return t)
    members [] shape.initial ()
  Codec.settleMembers ending
  shape.close seen s

/-- How a message describes the record as a sequence. -/
def lengthText (shape : RecordShape σ) : String :=
  let n := shape.fields.length
  s!"struct {shape.name} with {natText n} " ++ if n = 1 then "element" else "elements"

/-- Read fields from items in order.  Absent items leave optional fields alone. -/
def readPositions (shape : RecordShape σ) (ending : Option Breakage) :
    Nat → List (Field σ) → List Document → σ → Except Fault σ
  | _, [], _, s => .ok s
  | i, f :: fs, [], s => do
    liftBreakage (Document.settle ending)
    if f.presence ≠ .optional then .error (.wrongLength i shape.lengthText)
    else readPositions shape ending (i + 1) fs [] s
  | i, f :: fs, d :: ds, s => do
    let s ← f.read d s
    readPositions shape ending (i + 1) fs ds s

/-- Read a record from a sequence of its fields. -/
def readSequence (shape : RecordShape σ) (items : List Document) (ending : Option Breakage) :
    Except Fault σ := do
  let s ← shape.readPositions ending 0 shape.fields items shape.initial
  if shape.fields.length < items.length then .error (.leftover items.length)
  else
    liftBreakage (Document.settle ending)
    return s

/-- Read a record. -/
def read (shape : RecordShape σ) : Document → Except Fault σ
  | .object members ending => shape.readMap members ending
  | .array items ending => shape.readSequence items ending
  | d => .error (d.mismatch ("struct " ++ shape.name))

/-- The members of a record, in field order. -/
def writeMembers (shape : RecordShape σ) (s : σ) : List (String × Json) :=
  shape.fields.map fun f => (f.name, f.write s)

/-- The codec of a record type. -/
def codec (shape : RecordShape σ) : Codec σ where
  write s := .object (shape.writeMembers s)
  read := shape.read

end RecordShape

namespace Codec

/-- Read a typed value from an untyped one. -/
def ofJson {α : Type} (c : Codec α) (v : Json) : Except Fault α := c.read (.ofJson v)

/-- Read a typed value from a text; what follows it is looked at last. -/
def ofText {α : Type} (c : Codec α) (s : String) : Except Fault α := do
  let w := Document.ofText s
  let a ← c.read w.document
  liftBreakage (Document.settle w.trailing)
  return a

end Codec

end ServingPlane
