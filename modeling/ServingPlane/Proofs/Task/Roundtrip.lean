import ServingPlane.Proofs.Json.Stated
import ServingPlane.Proofs.Numeric.Rounding
import ServingPlane.Task.Wire

/-! # Task specs as values and back

    A spec whose four-byte numbers are finite is read back from the value
    it is written as, field by field and section by section, with the
    engine put together from its two members.  Members of other names
    change nothing.  A document that names another engine is never read
    as a spec, whatever stands beside the name. -/

namespace ServingPlane

open Json Numeric
open Codec (Returns)
open RecordShape (WellNamed)

theorem Codec.returns_wideSingle {x : Single} (h : x.isFinite = true) :
    Codec.wideSingle.Returns asValue x x := by
  show readSingle (asValue (if x.isFinite then _ else _)) = _
  rw [if_pos h]
  show Except.ok x.toDouble.toSingle = _
  rw [Single.toSingle_toDouble h]

/-! ## Sections -/

section Sections

open Codec

theorem GpuModel.returns (g : GpuModel) : GpuModel.shape.codec.Returns asValue g g := by
  have hnames : GpuModel.shape.WellNamed := ⟨by decide, by decide⟩
  refine hnames.returns_of_fills ?_
  refine .optional (returns_string faithful_asValue _) ?_
  refine .optional (returns_uint32 faithful_asValue _) ?_
  refine .optional (returns_uint32 faithful_asValue _) ?_
  exact .nil

theorem ModelFamily.returns {m : ModelFamily} (h : m.param.isFinite = true) :
    (ModelFamily.shapeIn .wideSingle).codec.Returns asValue m m := by
  have hnames : (ModelFamily.shapeIn .wideSingle).WellNamed := ⟨by decide, by decide⟩
  refine hnames.returns_of_fills ?_
  refine .optional (returns_string faithful_asValue _) ?_
  refine .optional (returns_wideSingle h) ?_
  exact .nil

theorem ModelConfig.returns {m : ModelConfig} (h : m.family.param.isFinite = true) :
    (ModelConfig.shapeIn .wideSingle).codec.Returns asValue m m := by
  have hnames : (ModelConfig.shapeIn .wideSingle).WellNamed := ⟨by decide, by decide⟩
  refine hnames.returns_of_fills ?_
  refine .optional (GpuModel.returns _) ?_
  refine .optional (ModelFamily.returns h) ?_
  refine .optional (returns_string faithful_asValue _) ?_
  exact .nil

theorem EnvVar.returns (e : EnvVar) : EnvVar.shape.codec.Returns asValue e e := by
  have hnames : EnvVar.shape.WellNamed := ⟨by decide, by decide⟩
  refine hnames.returns_of_fills ?_
  refine .needed (returns_string faithful_asValue _) ?_
  refine .needed (returns_string faithful_asValue _) ?_
  exact .nil

theorem VolumeMount.returns (v : VolumeMount) : VolumeMount.shape.codec.Returns asValue v v := by
  have hnames : VolumeMount.shape.WellNamed := ⟨by decide, by decide⟩
  refine hnames.returns_of_fills ?_
  refine .needed (returns_string faithful_asValue _) ?_
  refine .needed (returns_string faithful_asValue _) ?_
  exact .nil

theorem returns_port (n : Int32) : portShape.codec.Returns asValue n n := by
  have hnames : portShape.WellNamed := ⟨by decide, by decide⟩
  refine hnames.returns_of_fills ?_
  refine .needed (returns_int32 faithful_asValue _) ?_
  exact .nil

theorem IngressRoute.returns_target (t : String × Int32) :
    IngressRoute.targetShape.codec.Returns asValue t t := by
  have hnames : IngressRoute.targetShape.WellNamed := ⟨by decide, by decide⟩
  refine hnames.returns_of_fills ?_
  refine .optional (returns_string faithful_asValue _) ?_
  refine .optional (returns_port _) ?_
  exact .nil

theorem IngressRoute.returns_backend (t : String × Int32) :
    IngressRoute.backendShape.codec.Returns asValue t t := by
  have hnames : IngressRoute.backendShape.WellNamed := ⟨by decide, by decide⟩
  refine hnames.returns_of_fills ?_
  refine .optional (IngressRoute.returns_target _) ?_
  exact .nil

theorem IngressRoute.returns (r : IngressRoute) : IngressRoute.shape.codec.Returns asValue r r := by
  have hnames : IngressRoute.shape.WellNamed := ⟨by decide, by decide⟩
  refine hnames.returns_of_fills ?_
  refine .optional (IngressRoute.returns_backend _) ?_
  refine .optional (returns_string faithful_asValue _) ?_
  exact .nil

/-- A list of parts that are all read back is read back. -/
theorem Codec.returns_list_self {α : Type} {c : Codec α} (h : ∀ a, c.Returns asValue a a)
    (as : List α) : (Codec.list c).Returns asValue as as :=
  returns_list faithful_asValue (List.forall₂_same.mpr fun a _ => h a)

theorem IngressConfig.returns (i : IngressConfig) :
    IngressConfig.shape.codec.Returns asValue i i := by
  have hnames : IngressConfig.shape.WellNamed := ⟨by decide, by decide⟩
  refine hnames.returns_of_fills ?_
  refine .optional (returns_string faithful_asValue _) ?_
  refine .optional (returns_list_self IngressRoute.returns _) ?_
  exact .nil

theorem ServiceConfig.returns (c : ServiceConfig) :
    ServiceConfig.shape.codec.Returns asValue c c := by
  have hnames : ServiceConfig.shape.WellNamed := ⟨by decide, by decide⟩
  refine hnames.returns_of_fills ?_
  refine .optional (returns_string faithful_asValue _) ?_
  refine .optional (returns_list_self returns_port _) ?_
  exact .nil

theorem ResourceRequest.returns (r : ResourceRequest) :
    ResourceRequest.shape.codec.Returns asValue r r := by
  have hnames : ResourceRequest.shape.WellNamed := ⟨by decide, by decide⟩
  refine hnames.returns_of_fills ?_
  refine .optional (returns_string faithful_asValue _) ?_
  refine .optional (returns_string faithful_asValue _) ?_
  exact .nil

theorem Strategy.returns (s : Strategy) : Strategy.shape.codec.Returns asValue s s := by
  have hnames : Strategy.shape.WellNamed := ⟨by decide, by decide⟩
  refine hnames.returns_of_fills ?_
  refine .optional (returns_choice faithful_asValue (by cases s <;> rfl)) ?_
  exact .nil

theorem KafkaConfig.returns (k : KafkaConfig) : KafkaConfig.shape.codec.Returns asValue k k := by
  have hnames : KafkaConfig.shape.WellNamed := ⟨by decide, by decide⟩
  refine hnames.returns_of_fills ?_
  refine .optional (returns_list_self (returns_string faithful_asValue) _) ?_
  refine .optional (returns_string faithful_asValue _) ?_
  refine .optional (returns_string faithful_asValue _) ?_
  exact .nil

theorem CollectorConfig.returns (c : CollectorConfig) :
    CollectorConfig.shape.codec.Returns asValue c c := by
  have hnames : CollectorConfig.shape.WellNamed := ⟨by decide, by decide⟩
  refine hnames.returns_of_fills ?_
  refine .optional (returns_string faithful_asValue _) ?_
  refine .optional (returns_bool faithful_asValue _) ?_
  refine .optional (KafkaConfig.returns _) ?_
  exact .nil

theorem VllmSettings.returns {v : VllmSettings} (h : v.gpuMemoryUtilization.isFinite = true) :
    VllmSettings.wideCodec.Returns asValue v v := by
  have hnames : (VllmSettings.shape .wideSingle).WellNamed := ⟨by decide, by decide⟩
  refine hnames.returns_of_fills ?_
  refine .optional (returns_wideSingle h) ?_
  refine .optional (returns_uint32 faithful_asValue _) ?_
  refine .optional (returns_uint32 faithful_asValue _) ?_
  refine .optional (returns_bool faithful_asValue _) ?_
  refine .optional (returns_string faithful_asValue _) ?_
  exact .nil

end Sections

/-! ## The engine -/

namespace Engine

/-- The number in the tunables is finite. -/
def FiniteNumbers : Engine → Prop
  | vllm v => v.gpuMemoryUtilization.isFinite = true

/-- Tunables that are there are read as such. -/
theorem ofWire_of_settings {settings : List (String × Json)} {v : VllmSettings}
    (h : VllmSettings.wideCodec.ofJson (.object settings) = .ok v) :
    ofWire ⟨"vllm", .object settings⟩ = .ok (.vllm v) := by
  rw [ofWire, if_pos rfl]
  dsimp only
  rw [h]

theorem wellNamed_wireShape : wireShape.WellNamed := ⟨by decide, by decide⟩

/-- The two members of an engine are put together again. -/
theorem ofMembers_canonicalMembers {e : Engine} (h : e.FiniteNumbers) :
    ofMembers (canonicalMembers (wireShape.writeMembers e.toWire) []) = .ok e := by
  cases e with
  | vllm v =>
    have hwire : wireShape.codec.Returns asValue (toWire (.vllm v))
        ⟨"vllm", (VllmSettings.wideCodec.write v).canonical⟩ := by
      refine wellNamed_wireShape.returns_of_fills ?_
      refine .optional (Codec.returns_string faithful_asValue _) ?_
      refine .optional (Codec.returns_json _) ?_
      exact .nil
    have hread : wireShape.readMap (Document.ofMembers
        (canonicalMembers (wireShape.writeMembers (toWire (.vllm v))) [])) none
        = .ok ⟨"vllm", (VllmSettings.wideCodec.write v).canonical⟩ := hwire
    rw [ofMembers, hread]
    exact ofWire_of_settings (VllmSettings.returns h)

/-- The name of the engine is the first field of its form. -/
theorem sets_kind : wireShape.Sets "backend" 0 .string (·.kind) where
  wellNamed := wellNamed_wireShape
  placed := rfl
  reads := by
    intro f hf d w w' hread
    simp only [wireShape, List.mem_cons, List.not_mem_nil, or_false] at hf
    rcases hf with rfl | rfl
    · obtain ⟨name, hname, rfl⟩ := map_eq_ok.mp hread
      exact hname
    · obtain ⟨settings, -, rfl⟩ := map_eq_ok.mp hread
      rfl

/-- Members with the name of another engine give none. -/
theorem ofMembers_ne_ok {ms : List (String × Json)} {name : String}
    (hmem : ("backend", .string name) ∈ ms) (hname : name ≠ "vllm") (e : Engine) :
    ofMembers ms ≠ .ok e := by
  intro h
  cases hread : wireShape.readMembers (fun _ d t => do liftBreakage d.skim; return t)
      (Document.ofMembers ms) [] wireShape.initial () with
  | error fault =>
    rw [ofMembers, RecordShape.readMap, hread] at h
    cases h
  | ok r =>
    obtain ⟨seen, w, t⟩ := r
    have hstated : (some "backend", .ofJson (.string name)) ∈ Document.ofMembers ms := by
      rw [Document.ofMembers_eq_map]
      exact List.mem_map_of_mem hmem
    have hkind : name = w.kind := Except.ok.inj ((sets_kind.readMembers hread).2.1 _ hstated)
    rw [ofMembers, RecordShape.readMap, hread] at h
    replace h : wireShape.close seen w >>= ofWire = .ok e := h
    rw [RecordShape.close] at h
    have hmissing : wireShape.missing? seen = none := rfl
    rw [hmissing] at h
    replace h : ofWire w = .ok e := h
    rw [ofWire, if_neg (hkind ▸ hname)] at h
    cases h

end Engine

/-! ## Specs -/

namespace TaskSpec

open Codec

theorem wellNamed_shapeIn : (shapeIn .wideSingle).WellNamed := ⟨by decide, by decide⟩

/-- The fields are read first, and then the engine from what was kept for it. -/
theorem read_object {form : Codec Single} (members : List (Option String × Document))
    (ending : Option Damage) : (codecIn form).read (.object members ending) = do
      let (_, s, kept) ← (shapeIn form).readMembers keepEngineMember members []
        (shapeIn form).initial []
      Codec.settleMembers ending
      let engine ← Engine.ofMembers kept
      return { s with engine } := rfl

/-- All fields but the engine come back. -/
theorem fills {s : TaskSpec} (h : s.modelConfig.family.param.isFinite = true) :
    RecordShape.Fills asValue s (shapeIn .wideSingle).inKeyOrder (shapeIn .wideSingle).initial
      { s with engine := .standard } := by
  have hstring := returns_string faithful_asValue
  refine .optional (returns_dict fun p _ => hstring p.2) ?_
  refine .optional (CollectorConfig.returns _) ?_
  refine .optional (returns_list_self EnvVar.returns _) ?_
  refine .optional (hstring _) ?_
  refine .optional (hstring _) ?_
  refine .optional (hstring _) ?_
  refine .optional (hstring _) ?_
  refine .optional (hstring _) ?_
  refine .optional (IngressConfig.returns _) ?_
  refine .optional (hstring _) ?_
  refine .optional (ModelConfig.returns h) ?_
  refine .optional (hstring _) ?_
  refine .optional (hstring _) ?_
  refine .optional (returns_dict fun p _ => hstring p.2) ?_
  refine .optional (returns_uint16 faithful_asValue _) ?_
  refine .optional (returns_uint32 faithful_asValue _) ?_
  refine .optional (ResourceRequest.returns _) ?_
  refine .optional (Strategy.returns _) ?_
  refine .optional (ServiceConfig.returns _) ?_
  refine .optional (returns_list_self VolumeMount.returns _) ?_
  exact .nil

/-- The keys that a spec has on the wire. -/
def memberNames : List String :=
  (shapeIn .wideSingle).fields.map (·.name) ++ Engine.wireShape.fields.map (·.name)

/-- Whether a key is one of the engine's. -/
def isEngineKey (key : String) : Bool := key = "backend" ∨ key = "backend_config"

theorem foldlM_keepEngineMember (ms kept : List (String × Json)) :
    (ms.map fun p => (p.1, Document.ofJson p.2)).foldlM
        (fun kept p => keepEngineMember p.1 p.2 kept) kept
      = .ok (kept ++ (ms.filter fun p => isEngineKey p.1).map fun p => (p.1, p.2.canonical)) := by
  induction ms generalizing kept with
  | nil => simp [pure, Except.pure]
  | cons p ms ih =>
    obtain ⟨key, v⟩ := p
    rw [List.map_cons, List.foldlM_cons, keepEngineMember, Document.toJson_ofJson]
    show List.foldlM _ (if key = "backend" ∨ key = "backend_config" then _ else kept) _ = _
    rw [ih]
    by_cases hkey : key = "backend" ∨ key = "backend_config"
    · rw [if_pos hkey, List.filter_cons_of_pos (by simpa [isEngineKey] using hkey), List.map_cons,
        List.append_assoc]
      rfl
    · rw [if_neg hkey, List.filter_cons_of_neg (by simpa [isEngineKey] using hkey)]

theorem isEngineKey_iff {key : String} : isEngineKey key = true ↔
    key ∈ Engine.wireShape.fields.map (·.name) := by
  simp [isEngineKey, Engine.wireShape, Field.optional]

theorem names_of_isEngineKey {key : String} (h : isEngineKey key = true) :
    (shapeIn .wideSingle).names key = false := by
  rcases of_decide_eq_true h with rfl | rfl <;> rfl

/-- Of the members of a spec and further ones, those that are fields are the spec's. -/
theorem filter_names_members {s : TaskSpec} {extra : List (String × Json)}
    (hextra : ∀ p ∈ extra, p.1 ∉ memberNames) :
    ((valueCodec.write s).members ++ extra).filter (fun p => (shapeIn .wideSingle).names p.1)
      = (shapeIn .wideSingle).writeMembers s := by
  have hfields : ((shapeIn .wideSingle).writeMembers s).filter
      (fun p => (shapeIn .wideSingle).names p.1) = (shapeIn .wideSingle).writeMembers s := by
    refine List.filter_eq_self.mpr fun p hp => ?_
    obtain ⟨f, hf, rfl⟩ := List.mem_map.mp hp
    exact wellNamed_shapeIn.names_iff.mpr (List.mem_map.mpr ⟨f, hf, rfl⟩)
  have hengine : (Engine.wireShape.writeMembers s.engine.toWire).filter
      (fun p => (shapeIn .wideSingle).names p.1) = [] := rfl
  have hothers : extra.filter (fun p => (shapeIn .wideSingle).names p.1) = [] := by
    refine List.filter_eq_nil_iff.mpr fun p hp hnames => hextra p hp ?_
    exact List.mem_append_left _ (wellNamed_shapeIn.names_iff.mp hnames)
  show ((_ ++ _) ++ extra).filter _ = _
  rw [List.filter_append, List.filter_append, hfields, hengine, hothers, List.append_nil,
    List.append_nil]

/-- Of the members of a spec and further ones, those of the engine are the spec's. -/
theorem filter_isEngineKey_members {s : TaskSpec} {extra : List (String × Json)}
    (hextra : ∀ p ∈ extra, p.1 ∉ memberNames) :
    ((valueCodec.write s).members ++ extra).filter (fun p => isEngineKey p.1)
      = Engine.wireShape.writeMembers s.engine.toWire := by
  have hfields : ((shapeIn .wideSingle).writeMembers s).filter (fun p => isEngineKey p.1) = [] := rfl
  have hengine : (Engine.wireShape.writeMembers s.engine.toWire).filter
      (fun p => isEngineKey p.1) = Engine.wireShape.writeMembers s.engine.toWire := rfl
  have hothers : extra.filter (fun p => isEngineKey p.1) = [] := by
    refine List.filter_eq_nil_iff.mpr fun p hp hkey => hextra p hp ?_
    exact List.mem_append_right _ (isEngineKey_iff.mp hkey)
  show ((_ ++ _) ++ extra).filter _ = _
  rw [List.filter_append, List.filter_append, hfields, hengine, hothers, List.append_nil,
    List.nil_append]

/-- The members of a spec and further ones, in key order. -/
def valueMembers (s : TaskSpec) (extra : List (String × Json)) : List (String × Json) :=
  canonicalMembers ((valueCodec.write s).members ++ extra) []

theorem filter_valueMembers (s : TaskSpec) (extra : List (String × Json)) (keep : String → Bool) :
    (s.valueMembers extra).filter (fun p => keep p.1)
      = canonicalMembers (((valueCodec.write s).members ++ extra).filter fun p => keep p.1) [] :=
  filter_canonicalMembers keep _ List.Pairwise.nil

section Members

variable {s : TaskSpec} {extra : List (String × Json)}
  (hextra : ∀ p ∈ extra, p.1 ∉ memberNames)
include hextra

theorem fields_of_valueMembers :
    (((s.valueMembers extra).map fun p => (p.1, Document.ofJson p.2)).filter
        fun p => (shapeIn .wideSingle).names p.1).map (fun p => (some p.1, p.2))
      = (shapeIn .wideSingle).inKeyOrder.map fun f => (some f.name, asValue (f.write s)) := by
  rw [List.filter_map]
  show (((s.valueMembers extra).filter fun p => (shapeIn .wideSingle).names p.1).map _).map _ = _
  rw [filter_valueMembers, filter_names_members hextra, RecordShape.canonicalMembers_writeMembers,
    List.map_map, List.map_map]
  rfl

theorem engine_of_valueMembers :
    (((s.valueMembers extra).filter fun p => !(shapeIn .wideSingle).names p.1).filter
        fun p => isEngineKey p.1).map (fun p => (p.1, p.2.canonical))
      = canonicalMembers (Engine.wireShape.writeMembers s.engine.toWire) [] := by
  have hboth : ∀ p : String × Json, (isEngineKey p.1 && !(shapeIn .wideSingle).names p.1)
      = isEngineKey p.1 := by
    intro p
    cases hkey : isEngineKey p.1 with
    | true => rw [names_of_isEngineKey hkey]; rfl
    | false => rfl
  rw [List.filter_filter]
  simp only [hboth]
  rw [filter_valueMembers, filter_isEngineKey_members hextra]
  exact map_canonicalMembers _ fun p hp => absurd hp List.not_mem_nil

/-- The fields come back, and the members of the engine are kept for later. -/
theorem readMembers_valueMembers (hparam : s.modelConfig.family.param.isFinite = true) :
    (shapeIn .wideSingle).readMembers keepEngineMember (Document.ofMembers (s.valueMembers extra)) []
        (shapeIn .wideSingle).initial []
      = .ok (((shapeIn .wideSingle).inKeyOrder.map (·.name)).reverse ++ [],
          { s with engine := .standard },
          canonicalMembers (Engine.wireShape.writeMembers s.engine.toWire) []) := by
  have hdocuments : (s.valueMembers extra).map (fun p => (some p.1, Document.ofJson p.2))
      = ((s.valueMembers extra).map fun p => (p.1, Document.ofJson p.2)).map
        fun p => (some p.1, p.2) := by
    rw [List.map_map]
    rfl
  have hperm := wellNamed_shapeIn.inKeyOrder_perm
  rw [Document.ofMembers_eq_map, ← engine_of_valueMembers hextra, hdocuments]
  refine RecordShape.readMembers_apart ?_ ?_
  · rw [fields_of_valueMembers hextra]
    rw [wellNamed_shapeIn.readMembers_fields (fun f hf => hperm.mem_iff.mp hf)
      ((hperm.map _).nodup_iff.mpr wellNamed_shapeIn.distinct) (by simp),
      show RecordShape.filling _ _ _ _ = _ from fills hparam]
    rfl
  · rw [List.filter_map]
    exact foldlM_keepEngineMember _ []

/-- The members of a spec and further ones, once they are a value, are read as the spec. -/
theorem ofJson_canonical_append (hparam : s.modelConfig.family.param.isFinite = true)
    (hengine : s.engine.FiniteNumbers) :
    valueCodec.ofJson (Json.object ((valueCodec.write s).members ++ extra)).canonical = .ok s := by
  show (codecIn .wideSingle).read (.object (Document.ofMembers (s.valueMembers extra)) none) = _
  rw [read_object, readMembers_valueMembers hextra hparam]
  show (do
    let engine ← Engine.ofMembers
      (canonicalMembers (Engine.wireShape.writeMembers s.engine.toWire) [])
    return { s with engine }) = Except.ok s
  rw [Engine.ofMembers_canonicalMembers hengine]
  rfl

end Members

/-- What was kept stays, and the name of an engine is kept as well. -/
theorem mem_of_keepEngineMember {key : String} {d : Document} {kept kept' : List (String × Json)}
    (h : keepEngineMember key d kept = .ok kept') :
    (∀ p ∈ kept, p ∈ kept') ∧
      ∀ name, key = "backend" → d = .string (some name) → ("backend", .string name) ∈ kept' := by
  obtain ⟨v, hjson, hkeep⟩ := bind_eq_ok.mp h
  cases hkeep
  refine ⟨fun p hp => ?_, ?_⟩
  · split
    · exact List.mem_append_left _ hp
    · exact hp
  · rintro name rfl rfl
    cases hjson
    rw [if_pos (.inl rfl)]
    exact List.mem_append_right _ List.mem_cons_self

/-- What is kept for the engine contains the name that the members give it. -/
theorem mem_kept_of_readMembers {form : Codec Single} {name : String}
    {members : List (Option String × Document)} {seen seen' : List String} {acc s : TaskSpec}
    {kept kept' : List (String × Json)}
    (h : (shapeIn form).readMembers keepEngineMember members seen acc kept
      = .ok (seen', s, kept')) :
    (∀ p ∈ kept, p ∈ kept') ∧
      ((some "backend", .string (some name)) ∈ members → ("backend", .string name) ∈ kept') := by
  induction members generalizing seen acc kept with
  | nil =>
    cases h
    exact ⟨fun p hp => hp, fun hmem => absurd hmem List.not_mem_nil⟩
  | cons m members ih =>
    obtain ⟨_ | key, d⟩ := m
    · cases h
    · obtain ⟨f, acc', hfind, -, -, hrest⟩ | ⟨kept₁, hfind, hkeep, hrest⟩ :=
        RecordShape.readMembers_cons.mp h
      · obtain ⟨hgrows, hnamed⟩ := ih hrest
        refine ⟨hgrows, fun hmem => ?_⟩
        rcases List.mem_cons.mp hmem with heq | hmem
        · -- no field of a spec has the name of the engine's
          cases heq
          cases hfind
        · exact hnamed hmem
      · obtain ⟨hgrows, hnamed⟩ := ih hrest
        obtain ⟨hstays, hadded⟩ := mem_of_keepEngineMember hkeep
        refine ⟨fun p hp => hgrows p (hstays p hp), fun hmem => ?_⟩
        rcases List.mem_cons.mp hmem with heq | hmem
        · cases heq
          exact hgrows _ (hadded name rfl rfl)
        · exact hnamed hmem

/-- A document that names another engine is no spec. -/
theorem read_ne_ok_of_backend {form : Codec Single} {members : List (Option String × Document)}
    {ending : Option Damage} {name : String}
    (hmem : (some "backend", .string (some name)) ∈ members) (hname : name ≠ "vllm")
    (s : TaskSpec) : (codecIn form).read (.object members ending) ≠ .ok s := by
  intro h
  rw [read_object] at h
  obtain ⟨⟨seen, s', kept⟩, hread, h⟩ := bind_eq_ok.mp h
  obtain ⟨_, -, h⟩ := bind_eq_ok.mp h
  obtain ⟨engine, hengine, -⟩ := bind_eq_ok.mp h
  exact Engine.ofMembers_ne_ok ((mem_kept_of_readMembers hread).2 hmem) hname engine hengine

/-- All numbers with a fraction are finite. -/
def FiniteNumbers (s : TaskSpec) : Prop :=
  s.modelConfig.family.param.isFinite = true ∧ s.engine.FiniteNumbers

/-- A spec with finite numbers is read back from its value, also from one
    with more members of other names; a document that names another engine
    is never read, whatever else it holds. -/
theorem value_roundtrip {s : TaskSpec} (h : s.FiniteNumbers) :
    valueCodec.ofJson (valueCodec.write s).canonical = .ok s ∧
    (∀ extra : List (String × Json), (∀ p ∈ extra, p.1 ∉ memberNames) →
      valueCodec.ofJson (Json.object ((valueCodec.write s).members ++ extra)).canonical = .ok s) ∧
    ∀ (members : List (Option String × Document)) (ending : Option Damage) (name : String),
      (some "backend", .string (some name)) ∈ members → name ≠ "vllm" →
        ∀ t, valueCodec.read (.object members ending) ≠ .ok t := by
  refine ⟨?_, fun extra hextra => ofJson_canonical_append hextra h.1 h.2,
    fun members ending name hmem hname t => read_ne_ok_of_backend hmem hname t⟩
  have hnone : ∀ p ∈ ([] : List (String × Json)), p.1 ∉ memberNames := fun p hp =>
    absurd hp List.not_mem_nil
  have halone := ofJson_canonical_append hnone h.1 h.2
  rw [List.append_nil] at halone
  exact halone

/-- A spec with numbers that have no short binary form. -/
def fractional : TaskSpec :=
  { blank with
    name := "chat"
    modelConfig := ⟨⟨"llama", .ofRatio false 67 10⟩, ⟨"A100", 80, 2⟩, "v1"⟩
    engine := .vllm ⟨16, 2, .ofRatio false 9 10, "chat", true⟩
    extraArguments := Dict.ofList [("dtype", "half"), ("seed", "7")]
    volumes := [⟨"/model", "/mnt/model"⟩]
    strategy := .auto }

/-- It is read back beside a member that no spec has, and not from members of another engine. -/
theorem value_roundtrip_of_fractional :
    fractional.FiniteNumbers ∧
    valueCodec.ofJson (Json.object ((valueCodec.write fractional).members ++
      [("comment", .ofNat 1)])).canonical = .ok fractional ∧
    valueCodec.ofJson (.object [("backend", .string "sglang")]) ≠ .ok fractional := by
  have hfinite : fractional.FiniteNumbers := ⟨by decide, by show Single.isFinite _ = true; decide⟩
  obtain ⟨-, hextra, hother⟩ := value_roundtrip hfinite
  refine ⟨hfinite, hextra [("comment", .ofNat 1)] (by decide), ?_⟩
  exact hother _ none "sglang" List.mem_cons_self (by decide) fractional

end TaskSpec

end ServingPlane
