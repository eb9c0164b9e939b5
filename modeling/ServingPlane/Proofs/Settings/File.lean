import ServingPlane.Proofs.Json.Roundtrip
import ServingPlane.Proofs.Toml.Files
import ServingPlane.Settings.File

/-! # Settings files, written and read back

    Settings whose unsigned numbers fit in eight signed bytes have a text,
    and the text is read as the settings, field by field and section by
    section.  A field that holds nothing has no line; it stays as it is
    before anything is read, which is to hold nothing.  So the text decides
    the settings: what is absent and what is empty are written apart. -/

namespace ServingPlane

open Document (faithful_ofJson)
open Toml (Scalar Line Entries Bare IsSection sectionDocument fitsInt64_iff fitsInt64_natCast)

/-! ## Values -/

/-- A value is written after its key and read back. -/
structure Codec.Keeps {α : Type} (c : Codec α) (a : α) : Prop where
  line : ∃ w, Line (c.write a) w
  returns : c.Returns .ofJson a a

namespace Codec

variable {α : Type}

theorem keeps_string (s : String) : string.Keeps s :=
  ⟨⟨_, .scalar (.string s)⟩, returns_string faithful_ofJson s⟩

theorem keeps_path (s : String) : pathCodec.Keeps s := ⟨⟨_, .scalar (.string s)⟩, rfl⟩

theorem keeps_bool (b : Bool) : bool.Keeps b :=
  ⟨⟨_, .scalar (.bool b)⟩, returns_bool faithful_ofJson b⟩

theorem keeps_int64 (n : Int64) : int64.Keeps n :=
  ⟨⟨_, .scalar (.int (fitsInt64_iff.mpr ⟨n.le_toInt, n.toInt_lt⟩))⟩, returns_int64 faithful_ofJson n⟩

/-- Naturals of eight bytes, whatever a message calls them. -/
theorem keeps_natural (name : String) {n : UInt64} (h : n.toNat < 2 ^ 63) :
    (bounded name 0 UInt64.size (fun k => .ofNat k.toNat) (fun a : UInt64 => a.toNat)).Keeps n := by
  have hsize := n.toNat_lt
  refine ⟨⟨_, .scalar (.int (fitsInt64_natCast h))⟩, ?_⟩
  refine returns_bounded faithful_ofJson (by omega) ?_ (by decide) (by decide) (by simp)
  show (n.toNat : Int) < 18446744073709551616
  omega

theorem keeps_choice {variants : List (String × α)} {nameOf : α → String} {a : α}
    (hname : variants.lookup (nameOf a) = some a) : (choice variants nameOf).Keeps a :=
  ⟨⟨_, .scalar (.string _)⟩, returns_choice faithful_ofJson hname⟩

/-- A list of scalars stands after one key. -/
theorem keeps_list {c : Codec α} (hscalar : ∀ a, ∃ w, Scalar (c.write a) w)
    (hreturns : ∀ a, c.Returns .ofJson a a) (as : List α) : (list c).Keeps as := by
  choose asValue hasValue using hscalar
  have hitems : List.Forall₂ Scalar (as.map c.write) (as.map asValue) :=
    List.forall₂_map_left_iff.mpr (List.forall₂_map_right_iff.mpr
      (List.forall₂_same.mpr fun a _ => hasValue a))
  refine ⟨⟨_, .array hitems⟩, ?_⟩
  exact returns_list faithful_ofJson (List.forall₂_same.mpr fun a _ => hreturns a)

theorem keeps_strings (l : List String) : (list string).Keeps l :=
  keeps_list (fun s => ⟨_, .string s⟩) (returns_string faithful_ofJson) l

theorem keeps_indices (l : List UInt32) : (list uint32).Keeps l := by
  refine keeps_list (fun n => ⟨_, .int (fitsInt64_natCast ?_)⟩) (returns_uint32 faithful_ofJson) l
  exact Nat.lt_trans n.toNat_lt (by decide)

/-- A value that is there is read back as one that is there. -/
theorem Keeps.some {c : Codec α} {a : α} (h : c.Keeps a) : (option c).Keeps (.some a) := by
  obtain ⟨w, hline⟩ := h.line
  have hpresent : ∀ {v : Json}, Line v w →
      (option c).read (.ofJson v) = (c.read (.ofJson v)).map .some := by
    intro v hline
    cases hline with
    | scalar h => cases h <;> rfl
    | array h => rfl
  refine ⟨⟨w, hline⟩, (hpresent hline).trans ?_⟩
  rw [show c.read _ = _ from h.returns]
  rfl

end Codec

theorem SocketAddress.keeps {a : SocketAddress} (h : read? a.text = some a) : codec.Keeps a := by
  refine ⟨⟨_, .scalar (.string a.text)⟩, ?_⟩
  show codec.read (.string (some a.text)) = .ok a
  simp only [codec, h]

/-! ## Sections -/

namespace RecordShape

variable {σ : Type}

/-- Fields that hold something are written on lines, and reading these one
    after the other takes a record to another. -/
inductive Restores (s : σ) : List (Field σ) → σ → σ → Prop where
  | nil {acc : σ} : Restores s [] acc acc
  | absent {f : Field σ} {fs : List (Field σ)} {acc final : σ} (hnull : f.write s = .null)
    (hrest : Restores s fs acc final) : Restores s (f :: fs) acc final
  | line {f : Field σ} {fs : List (Field σ)} {acc next final : σ} {w : Toml.Value}
    (hline : Line (f.write s) w) (hread : f.read (.ofJson (f.write s)) acc = .ok next)
    (hrest : Restores s fs next final) : Restores s (f :: fs) acc final

namespace Restores

section Field

variable {β : Type} {s : σ} {name : String} {c : Codec β} {fs : List (Field σ)} {acc final : σ}

theorem optional {get : σ → β} {set : β → σ → σ} (h : c.Keeps (get s))
    (hrest : Restores s fs (set (get s) acc) final) :
    Restores s (.optional name c get set :: fs) acc final := by
  obtain ⟨w, hline⟩ := h.line
  refine .line hline ?_ hrest
  show (c.read (.ofJson (c.write (get s)))).map (set · acc) = _
  rw [show c.read _ = _ from h.returns]
  rfl

/-- A field without a line stays as it is. -/
theorem option {get : σ → Option β} {set : Option β → σ → σ} (h : ∀ b, c.Keeps b)
    (hinitial : set none acc = acc) (hrest : Restores s fs (set (get s) acc) final) :
    Restores s (.optional name (.option c) get set :: fs) acc final := by
  cases hvalue : get s with
  | none =>
    rw [hvalue, hinitial] at hrest
    refine .absent ?_ hrest
    show (Codec.option c).write (get s) = _
    rw [hvalue]
    rfl
  | some b =>
    refine .optional ?_ hrest
    rw [hvalue]
    exact (h b).some

end Field

variable {s : σ} {fs : List (Field σ)} {acc final : σ}

theorem exists_entries (h : Restores s fs acc final) :
    ∃ es, Entries (fs.map fun f => (f.name, f.write s)) es := by
  induction h with
  | nil => exact ⟨[], .nil⟩
  | absent hnull _ ih =>
    obtain ⟨es, hentries⟩ := ih
    rw [List.map_cons, hnull]
    exact ⟨es, .absent hentries⟩
  | line hline _ _ ih =>
    obtain ⟨es, hentries⟩ := ih
    exact ⟨_, .line hline hentries⟩

theorem fills (h : Restores s fs acc final) :
    Fills .ofJson s (fs.filter fun f => Toml.holds (f.write s)) acc final := by
  induction h with
  | nil => exact .nil
  | absent hnull _ ih =>
    rw [List.filter_cons_of_neg (by rw [hnull]; exact Bool.false_ne_true)]
    exact ih
  | line hline hread _ ih =>
    rw [List.filter_cons_of_pos (by exact hline.holds)]
    exact .cons hread ih

end Restores

/-- A shape whose records stand in a file as sections, and may leave out any field. -/
structure Sectional (shape : RecordShape σ) : Prop where
  named : shape.WellNamed
  optional : ∀ f ∈ shape.fields, f.presence = .optional
  bare : ∀ f ∈ shape.fields, Bare f.name

instance (shape : RecordShape σ) : Decidable shape.Sectional :=
  decidable_of_iff
    ((shape.fields.map (·.name)).Nodup ∧ (∀ f ∈ shape.fields, f.otherName = none) ∧
      (∀ f ∈ shape.fields, f.presence = .optional) ∧ ∀ f ∈ shape.fields, Bare f.name)
    ⟨fun ⟨hdistinct, hsingle, hoptional, hbare⟩ => ⟨⟨hdistinct, hsingle⟩, hoptional, hbare⟩,
      fun h => ⟨h.named.distinct, h.named.single, h.optional, h.bare⟩⟩

end RecordShape

/-- A value is written as a section and read back. -/
structure Codec.KeepsSection {α : Type} (c : Codec α) (a : α) : Prop where
  isSection : ∀ {name : String}, Bare name → ∃ table, IsSection (name, c.write a) table
  returns : c.Returns sectionDocument a a

open RecordShape in
theorem RecordShape.Sectional.keeps {σ : Type} {shape : RecordShape σ} {s : σ} (h : shape.Sectional)
    (hrestores : Restores s shape.fields shape.initial s) : shape.codec.KeepsSection s where
  isSection {name} hname := by
    obtain ⟨es, hentries⟩ := hrestores.exists_entries
    refine ⟨(name, es), rfl, hname, _, rfl, hentries, ?_, ?_⟩
    · intro p hp
      obtain ⟨f, hf, rfl⟩ := List.mem_map.mp hp
      exact h.bare f hf
    · rw [writeMembers, List.map_map]
      exact h.named.distinct
  returns := by
    have hsub := List.filter_sublist (p := fun f => Toml.holds (f.write s)) (l := shape.fields)
    show shape.read (sectionDocument (.object (shape.writeMembers s))) = .ok s
    rw [sectionDocument, writeMembers, List.filter_map, List.map_map]
    refine (h.named.read_fields (fun f hf => hsub.subset hf)
      ((hsub.map _).nodup h.named.distinct) ?_).trans hrestores.fills
    intro f hf hrequired
    rw [h.optional f hf] at hrequired
    cases hrequired

/-! ## Records of sections -/

namespace RecordShape

variable {σ : Type}

/-- Fields are written as sections, and reading these one after the other
    takes a record to another. -/
structure RestoresSections (s : σ) (fs : List (Field σ)) (acc final : σ) : Prop where
  sections : ∃ tables, List.Forall₂ IsSection (fs.map fun f => (f.name, f.write s)) tables
  fills : Fills sectionDocument s fs acc final

theorem RestoresSections.nil {s acc : σ} : RestoresSections s [] acc acc := ⟨⟨[], .nil⟩, .nil⟩

theorem RestoresSections.optional {β : Type} {s : σ} {name : String} {c : Codec β} {get : σ → β}
    {set : β → σ → σ} {fs : List (Field σ)} {acc final : σ} (hname : Bare name)
    (h : c.KeepsSection (get s)) (hrest : RestoresSections s fs (set (get s) acc) final) :
    RestoresSections s (.optional name c get set :: fs) acc final := by
  obtain ⟨table, htable⟩ := h.isSection hname
  obtain ⟨tables, htables⟩ := hrest.sections
  exact ⟨⟨table :: tables, .cons htable htables⟩, .optional h.returns hrest.fills⟩

end RecordShape

/-! ## The sections of the settings -/

section Sections

open Codec RecordShape

theorem ApiSettings.keeps {a : ApiSettings} (h : SocketAddress.read? a.listen.text = some a.listen) :
    ApiSettings.shape.codec.KeepsSection a := by
  refine Sectional.keeps (by decide) ?_
  refine .optional (SocketAddress.keeps h) ?_
  refine .optional (keeps_string _) ?_
  refine .optional (keeps_string _) ?_
  exact .nil

theorem DetectorSettings.keeps {d : DetectorSettings} (hinterval : d.intervalSecs.toNat < 2 ^ 63)
    (hlookback : d.lookbackSecs.toNat < 2 ^ 63) : DetectorSettings.shape.codec.KeepsSection d := by
  refine Sectional.keeps (by decide) ?_
  refine .optional (keeps_natural "u64" hinterval) ?_
  refine .optional (keeps_natural "u64" hlookback) ?_
  refine .optional (keeps_string _) ?_
  exact .nil

theorem keeps_prometheus (url : String) : prometheusShape.codec.KeepsSection url := by
  refine Sectional.keeps (by decide) ?_
  refine .optional (keeps_string _) ?_
  exact .nil

theorem AdvisorSettings.keeps (a : AdvisorSettings) :
    AdvisorSettings.shape.codec.KeepsSection a := by
  refine Sectional.keeps (by decide) ?_
  refine .optional (keeps_string _) ?_
  refine .optional (keeps_string _) ?_
  exact .nil

theorem ServingSettings.keeps (s : ServingSettings) :
    ServingSettings.shape.codec.KeepsSection s := by
  refine Sectional.keeps (by decide) ?_
  refine .optional (keeps_string _) ?_
  refine .optional (keeps_string _) ?_
  refine .optional (keeps_strings _) ?_
  refine .optional (keeps_string _) ?_
  refine .optional (keeps_string _) ?_
  exact .nil

theorem keeps_state (path : String) : stateShape.codec.KeepsSection path := by
  refine Sectional.keeps (by decide) ?_
  refine .optional (keeps_path _) ?_
  exact .nil

theorem keeps_queue {capacity : UInt64} (h : capacity.toNat < 2 ^ 63) :
    queueShape.codec.KeepsSection capacity := by
  refine Sectional.keeps (by decide) ?_
  refine .optional (keeps_natural "usize" h) ?_
  exact .nil

theorem BackendKind.keeps (k : BackendKind) : BackendKind.shape.codec.KeepsSection k := by
  refine Sectional.keeps (by decide) ?_
  refine .optional (keeps_choice (by cases k <;> rfl)) ?_
  exact .nil

theorem DockerSettings.keeps (d : DockerSettings) : DockerSettings.shape.codec.KeepsSection d := by
  refine Sectional.keeps (by decide) ?_
  refine .option keeps_indices rfl ?_
  refine .optional (keeps_int64 _) ?_
  exact .nil

theorem ClusterSettings.keeps (k : ClusterSettings) :
    ClusterSettings.shape.codec.KeepsSection k := by
  refine Sectional.keeps (by decide) ?_
  refine .optional (keeps_bool _) ?_
  refine .option keeps_path rfl ?_
  refine .optional (keeps_string _) ?_
  refine .optional (keeps_string _) ?_
  refine .optional (keeps_string _) ?_
  exact .nil

theorem LoggingSettings.keeps (l : LoggingSettings) :
    LoggingSettings.shape.codec.KeepsSection l := by
  refine Sectional.keeps (by decide) ?_
  refine .optional (keeps_string _) ?_
  refine .optional (keeps_choice (by cases l.format <;> rfl)) ?_
  exact .nil

end Sections

/-! ## The settings -/

namespace Settings

/-- The format holds the unsigned numbers, and the address to listen on is read from its text. -/
structure Writable (s : Settings) : Prop where
  interval : s.detector.intervalSecs.toNat < 2 ^ 63
  lookback : s.detector.lookbackSecs.toNat < 2 ^ 63
  capacity : s.queueCapacity.toNat < 2 ^ 63
  listen : SocketAddress.read? s.api.listen.text = some s.api.listen

theorem Writable.restores {s : Settings} (h : s.Writable) :
    RecordShape.RestoresSections s shape.fields shape.initial s := by
  refine .optional (by decide) (ApiSettings.keeps h.listen) ?_
  refine .optional (by decide) (DetectorSettings.keeps h.interval h.lookback) ?_
  refine .optional (by decide) (keeps_prometheus _) ?_
  refine .optional (by decide) (AdvisorSettings.keeps _) ?_
  refine .optional (by decide) (ServingSettings.keeps _) ?_
  refine .optional (by decide) (keeps_state _) ?_
  refine .optional (by decide) (keeps_queue h.capacity) ?_
  refine .optional (by decide) (BackendKind.keeps _) ?_
  refine .optional (by decide) (DockerSettings.keeps _) ?_
  refine .optional (by decide) (ClusterSettings.keeps _) ?_
  refine .optional (by decide) (LoggingSettings.keeps _) ?_
  exact .nil

theorem wellNamed_shape : shape.WellNamed := ⟨by decide, by decide⟩

/-! ## Choices -/

/-- What is written on a line is in its plain form. -/
theorem plainField_of_line {v : Json} {w : Toml.Value} (h : Line v w) (name key : String) :
    plainField name key w = w := by
  have hplain : plainChoice w = w := by
    cases h with
    | scalar h => cases h <;> rfl
    | array h => rfl
  rw [plainField, hplain, ite_self]

theorem plainSection_of_entries {ms : List (String × Json)} {es : List (String × Toml.Value)}
    (h : Entries ms es) (name : String) : plainSection name (.table es) = .table es := by
  rw [plainSection]
  refine congrArg _ ?_
  induction h with
  | nil => rfl
  | absent _ ih => exact ih
  | line hline _ ih =>
    rw [List.map_cons, ih]
    dsimp only
    rw [plainField_of_line hline]

theorem plainSections_of_sections {sections : List (String × Json)}
    {tables : List (String × List (String × Toml.Value))}
    (h : List.Forall₂ IsSection sections tables) :
    plainSections (.table (tables.map fun t => (t.1, .table t.2)))
      = .table (tables.map fun t => (t.1, .table t.2)) := by
  rw [plainSections]
  refine congrArg _ ?_
  induction h with
  | nil => rfl
  | cons hfirst _ ih =>
    obtain ⟨ms, -, hentries, -⟩ := hfirst.entries
    rw [List.map_cons, List.map_cons, ih]
    dsimp only
    rw [plainSection_of_entries hentries]

/-! ## The text -/

/-- Settings have a text, which is read as the settings. -/
theorem Writable.exists_text {s : Settings} (h : s.Writable) :
    ∃ text, s.toToml = some text ∧ ofToml text = some s := by
  obtain ⟨⟨tables, htables⟩, hfills⟩ := h.restores
  have hdistinct : ((shape.fields.map fun f => (f.name, f.write s)).map (·.1)).Nodup := by
    rw [List.map_map]
    exact wellNamed_shape.distinct
  obtain ⟨text, hprint, hparse⟩ := Toml.exists_print htables hdistinct
  have hread : codec.read (.object ((shape.fields.map fun f => (f.name, f.write s)).map
      fun p => (some p.1, sectionDocument p.2)) none) = .ok s := by
    rw [List.map_map]
    exact (wellNamed_shape.read_all_fields (List.Perm.refl _)).trans hfills
  refine ⟨text, hprint, ?_⟩
  simp only [ofToml, hparse, Option.bind_eq_bind, Option.bind_some,
    plainSections_of_sections htables, Toml.document_of_sections htables, hread]

/-- Settings of one text are the same. -/
theorem Writable.eq_of_toToml_eq {s t : Settings} (hs : s.Writable) (ht : t.Writable)
    (h : s.toToml = t.toToml) : s = t := by
  obtain ⟨text, hstext, hsread⟩ := hs.exists_text
  obtain ⟨text', httext, htread⟩ := ht.exists_text
  obtain rfl : text = text' := Option.some.inj (hstext.symm.trans (h.trans httext))
  exact Option.some.inj (hsread.symm.trans htread)

/-- Settings whose unsigned numbers the format holds have a text, which is
    read as the settings in every field, whatever their strings hold.  No
    others have the text; in particular nothing at all and an empty list of
    indices, or an empty path, are written apart. -/
theorem read_back_from_text {s : Settings} (h : s.Writable) :
    (∃ text, s.toToml = some text ∧ ofToml text = some s) ∧
    (∀ t : Settings, t.Writable → s.toToml = t.toToml → s = t) ∧
    ({ s with docker.gpuIndices := none } : Settings).toToml
      ≠ ({ s with docker.gpuIndices := some [] } : Settings).toToml ∧
    ({ s with cluster.kubeconfigPath := none } : Settings).toToml
      ≠ ({ s with cluster.kubeconfigPath := some "" } : Settings).toToml := by
  have hindices : ∀ indices, ({ s with docker.gpuIndices := indices } : Settings).Writable :=
    fun _ => ⟨h.interval, h.lookback, h.capacity, h.listen⟩
  have hpath : ∀ path, ({ s with cluster.kubeconfigPath := path } : Settings).Writable :=
    fun _ => ⟨h.interval, h.lookback, h.capacity, h.listen⟩
  refine ⟨h.exists_text, fun t ht => h.eq_of_toToml_eq ht, fun heq => ?_, fun heq => ?_⟩
  · have hsame := (hindices none).eq_of_toToml_eq (hindices (some [])) heq
    cases congrArg (·.docker.gpuIndices) hsame
  · have hsame := (hpath none).eq_of_toToml_eq (hpath (some "")) heq
    cases congrArg (·.cluster.kubeconfigPath) hsame

/-- Quotes, backslashes, breaks and controls in texts, an empty list and an empty path. -/
def awkward : Settings :=
  { standard with
    api.listen := .v6 [0x2001, 0xdb8, 0, 0, 0, 0, 0, 1] 0 8183
    serving.startCommand := ["it's \"here\"", "back\\slash\nand\ttab", "\x07\x7f", "é"]
    docker.gpuIndices := some []
    cluster.kubeconfigPath := some "" }

theorem read_back_from_text_of_awkward :
    awkward.Writable ∧ ∃ text, awkward.toToml = some text ∧ ofToml text = some awkward := by
  have hwritable : awkward.Writable :=
    ⟨by decide, by decide, by decide, by decide +kernel⟩
  exact ⟨hwritable, (read_back_from_text hwritable).1⟩

end Settings

end ServingPlane
