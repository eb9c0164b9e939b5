import ServingPlane.Api.Request
import ServingPlane.Proofs.Json.Defined
import ServingPlane.Settings.Basic

/-! # Taking recommendations

    A spec takes recommendations one after the other.  Each sets the
    replica count, and fills in of the tunables what is still unset; so a
    tunable is the first value that anybody set, and all else stays as the
    caller had it. -/

namespace ServingPlane

open Numeric

/-! ## The first value that is set -/

section First

variable {α : Type} {set : α → Bool} {values : List α} {v w : α}

/-- A value if it is set, and otherwise another. -/
def keep (set : α → Bool) (v w : α) : α := if set v then v else w

theorem keep_keep (set : α → Bool) (v w : α) : keep set (keep set v w) w = keep set v w := by
  by_cases hv : set v = true
  · rw [show keep set v w = v from if_pos hv]
    exact if_pos hv
  · rw [show keep set v w = w from if_neg hv, keep, ite_self]

/-- A value is the first of some that is set, or unset if none of them is. -/
def IsFirst (set : α → Bool) (values : List α) (v : α) : Prop := [v].find? set = values.find? set

theorem isFirst_singleton (v : α) : IsFirst set [v] v := rfl

/-- One more value counts only if none was set before. -/
theorem IsFirst.concat (h : IsFirst set values v) (r : α) :
    IsFirst set (values ++ [r]) (keep set v r) := by
  rw [IsFirst, List.find?_append, ← h, keep]
  by_cases hv : set v = true
  · rw [if_pos hv, List.find?_cons_of_pos hv, Option.some_or]
  · rw [if_neg hv, List.find?_cons_of_neg hv, List.find?_nil, Option.none_or]

/-- Of two values that are set alike, either will do. -/
theorem IsFirst.congr (h : IsFirst set values v) (hset : set v = set w)
    (heq : set v = true → v = w) : IsFirst set values w := by
  rw [IsFirst, ← h]
  by_cases hv : set v = true
  · rw [heq hv]
  · rw [List.find?_cons_of_neg hv, List.find?_cons_of_neg (hset ▸ hv)]

end First

namespace Numeric.Single

/-- The same number: one pattern, or zeros of either sign. -/
def Alike (x y : Single) : Prop := x = y ∨ (x.isZero = true ∧ y.isZero = true)

variable {x y z : Single}

theorem Alike.refl (x : Single) : Alike x x := .inl rfl

theorem Alike.trans (h : Alike x y) (h' : Alike y z) : Alike x z := by
  rcases h with rfl | ⟨hx, hy⟩
  · exact h'
  · rcases h' with rfl | ⟨-, hz⟩
    · exact .inr ⟨hx, hy⟩
    · exact .inr ⟨hx, hz⟩

theorem alike_of_eqv (h : x.eqv y = true) : Alike x y := by
  simp only [eqv, Bool.and_eq_true, Bool.or_eq_true, beq_iff_eq] at h
  rcases h.2 with hbits | hzero
  · obtain ⟨bits⟩ := x
    obtain ⟨bits'⟩ := y
    exact .inl (congrArg Single.mk hbits)
  · exact .inr hzero

theorem isNaN_of_eqv (h : x.eqv y = true) : y.isNaN = false := by
  simp only [eqv, Bool.and_eq_true, Bool.not_eq_true'] at h
  exact h.1.2

theorem isPositive_of_isZero (h : x.isZero = true) : x.isPositive = false := by
  simp [isPositive, h]

theorem Alike.isPositive (h : Alike x y) : x.isPositive = y.isPositive := by
  rcases h with rfl | ⟨hx, hy⟩
  · rfl
  · rw [isPositive_of_isZero hx, isPositive_of_isZero hy]

/-- Above zero the pattern tells the number. -/
theorem Alike.eq (h : Alike x y) (hx : x.isPositive = true) : x = y := by
  rcases h with rfl | ⟨hzero, -⟩
  · rfl
  · rw [isPositive_of_isZero hzero] at hx
    cases hx

end Numeric.Single

/-- A recommendation fills in what is unset; a fraction that is undefined
    is left alone like one above zero. -/
theorem VllmSettings.fill_eq (s : VllmSettings) (r : Recommendation) :
    s.fill r = { s with
      maxNumSeqs := keep (· ≠ 0) s.maxNumSeqs r.maxNumSeqs
      tensorParallelSize := keep (· ≠ 0) s.tensorParallelSize r.tensorParallelSize
      gpuMemoryUtilization := keep (fun x => x.isPositive || x.isNaN) s.gpuMemoryUtilization
        r.gpuMemoryUtilization } := by
  simp only [fill, keep, decide_eq_true_eq, ne_eq, ite_not]

theorem VllmSettings.fill_fill (s : VllmSettings) (r : Recommendation) :
    (s.fill r).fill r = s.fill r := by
  rw [fill_eq, fill_eq]
  dsimp only
  rw [keep_keep, keep_keep, keep_keep]

/-- The tunables of an engine. -/
def Engine.settings : Engine → VllmSettings
  | vllm s => s

namespace TaskSpec

/-- The tunables of the engine of a task. -/
def settings (s : TaskSpec) : VllmSettings := s.engine.settings

/-- The parameter count of the model family. -/
def param (s : TaskSpec) : Single := s.modelConfig.family.param

/-- The spec with another parameter count. -/
def withParam (s : TaskSpec) (param : Single) : TaskSpec :=
  { s with modelConfig := { s.modelConfig with family := { s.modelConfig.family with param } } }

variable {s given spec base : TaskSpec} {recs : List Recommendation} {r : Recommendation}

theorem settings_apply (s : TaskSpec) (r : Recommendation) :
    (s.apply r).settings = s.settings.fill r := by
  rw [settings, settings, apply]
  cases s.engine with
  | vllm v => rfl

/-- A recommendation that was taken has nothing to add. -/
theorem apply_apply (s : TaskSpec) (r : Recommendation) : (s.apply r).apply r = s.apply r := by
  have hengine : (s.engine.fill r).fill r = s.engine.fill r := by
    cases s.engine with
    | vllm v => exact congrArg Engine.vllm (v.fill_fill r)
  simp only [apply]
  rw [hengine]

/-- What a spec is after some recommendations: of each number among the
    tunables it has the first one that was set, by the caller or by a
    recommendation, and of the replica counts the last; the rest is as the
    caller had it. -/
structure Settled (given : TaskSpec) (recs : List Recommendation) (spec : TaskSpec) : Prop where
  maxNumSeqs : IsFirst (· ≠ 0) (given.settings.maxNumSeqs :: recs.map (·.maxNumSeqs))
    spec.settings.maxNumSeqs
  tensorParallelSize : IsFirst (· ≠ 0)
    (given.settings.tensorParallelSize :: recs.map (·.tensorParallelSize))
    spec.settings.tensorParallelSize
  gpuMemoryUtilization : given.settings.gpuMemoryUtilization.isNaN = false →
    IsFirst Single.isPositive
      (given.settings.gpuMemoryUtilization :: recs.map (·.gpuMemoryUtilization))
      spec.settings.gpuMemoryUtilization
  mode : spec.settings.mode = given.settings.mode
  trustRemoteCode : spec.settings.trustRemoteCode = given.settings.trustRemoteCode
  replica : spec.replica = ((recs.map (·.replicas)).getLast?).getD given.replica
  others : ∃ param, given.param.Alike param ∧
    spec = { given.withParam param with engine := spec.engine, replica := spec.replica }

theorem settled_given (given : TaskSpec) : Settled given [] given where
  maxNumSeqs := isFirst_singleton _
  tensorParallelSize := isFirst_singleton _
  gpuMemoryUtilization := fun _ => isFirst_singleton _
  mode := rfl
  trustRemoteCode := rfl
  replica := rfl
  others := ⟨given.param, .refl _, rfl⟩

/-- A fraction that is defined is kept if it is above zero. -/
theorem keep_of_defined {x y : Single} (h : x.isNaN = false) :
    keep (fun x => x.isPositive || x.isNaN) x y = keep Single.isPositive x y := by
  simp only [keep, h, Bool.or_false]

/-- One more recommendation, taken by a spec whose fraction is defined. -/
theorem Settled.apply (h : Settled given recs spec) (r : Recommendation)
    (hdefined : given.settings.gpuMemoryUtilization.isNaN = false →
      spec.settings.gpuMemoryUtilization.isNaN = false) :
    Settled given (recs ++ [r]) (spec.apply r) where
  maxNumSeqs := by
    rw [settings_apply, VllmSettings.fill_eq, List.map_append, ← List.cons_append]
    exact h.maxNumSeqs.concat _
  tensorParallelSize := by
    rw [settings_apply, VllmSettings.fill_eq, List.map_append, ← List.cons_append]
    exact h.tensorParallelSize.concat _
  gpuMemoryUtilization := by
    intro hgiven
    rw [settings_apply, VllmSettings.fill_eq, List.map_append, ← List.cons_append]
    dsimp only
    rw [keep_of_defined (hdefined hgiven)]
    exact (h.gpuMemoryUtilization hgiven).concat _
  mode := by
    rw [settings_apply]
    exact h.mode
  trustRemoteCode := by
    rw [settings_apply]
    exact h.trustRemoteCode
  replica := by
    rw [List.map_append, List.map_singleton, List.getLast?_concat]
    rfl
  others := by
    obtain ⟨param, halike, heq⟩ := h.others
    refine ⟨param, halike, ?_⟩
    rw [TaskSpec.apply]
    exact congrArg (fun s : TaskSpec => { s with
      replica := r.replicas, engine := spec.engine.fill r }) heq

/-- A spec that equals another differs from it by the sign of a zero. -/
theorem eq_of_eqv (h : spec.eqv base = true) :
    spec.settings.gpuMemoryUtilization.eqv base.settings.gpuMemoryUtilization = true ∧
    { spec.settings with gpuMemoryUtilization := base.settings.gpuMemoryUtilization }
      = base.settings ∧
    spec.param.eqv base.param = true ∧
    { spec.withParam base.param with engine := base.engine } = base := by
  simp only [eqv, Bool.and_eq_true, decide_eq_true_eq] at h
  obtain ⟨⟨hparam, hengine⟩, hothers⟩ := h
  suffices hengines : ∀ e e' : Engine, e.eqv e' = true →
      e.settings.gpuMemoryUtilization.eqv e'.settings.gpuMemoryUtilization = true ∧
      { e.settings with gpuMemoryUtilization := e'.settings.gpuMemoryUtilization }
        = e'.settings by
    obtain ⟨hfraction, hsettings⟩ := hengines _ _ hengine
    exact ⟨hfraction, hsettings, hparam, hothers⟩
  rintro ⟨v⟩ ⟨w⟩ h
  have h : v.eqv w = true := h
  rw [VllmSettings.eqv, Bool.and_eq_true, decide_eq_true_eq] at h
  exact h

/-- What a spec has settled to, one that equals it has. -/
theorem Settled.congr (h : Settled given recs spec) (heqv : spec.eqv base = true) :
    Settled given recs base := by
  obtain ⟨hfraction, hsettings, hparam, hothers⟩ := eq_of_eqv heqv
  have halike := Single.alike_of_eqv hfraction
  refine ⟨?_, ?_, fun hgiven => ?_, ?_, ?_, ?_, ?_⟩
  · rw [← hsettings]
    exact h.maxNumSeqs
  · rw [← hsettings]
    exact h.tensorParallelSize
  · exact (h.gpuMemoryUtilization hgiven).congr halike.isPositive halike.eq
  · rw [← hsettings]
    exact h.mode
  · rw [← hsettings]
    exact h.trustRemoteCode
  · rw [← hothers]
    exact h.replica
  · obtain ⟨param, hgiven, heq⟩ := h.others
    refine ⟨base.param, hgiven.trans ?_, ?_⟩
    · have hspec : spec.param = param := by
        rw [heq]
        rfl
      rw [← hspec]
      exact Single.alike_of_eqv hparam
    · have hreplica : base.replica = spec.replica := by
        rw [← hothers]
        rfl
      rw [hreplica]
      refine hothers.symm.trans ?_
      exact congrArg (fun s : TaskSpec => { s.withParam base.param with engine := base.engine }) heq

end TaskSpec

/-! ## What requests hold -/

section Reading

variable {d : Document}

theorem VllmSettings.isNaN_wideCodec {v : VllmSettings} (hd : d.Defined)
    (h : wideCodec.read d = .ok v) : v.gpuMemoryUtilization.isNaN = false := by
  have h : (shape .wideSingle).read d = .ok v := h
  refine RecordShape.keeps_read (P := fun v : VllmSettings =>
    v.gpuMemoryUtilization.isNaN = false) ?_ (by decide) hd h
  refine List.forall_mem_cons.mpr ⟨Field.keeps_optional fun _ _ _ _ _ hs => hs, ?_⟩
  refine List.forall_mem_cons.mpr ⟨Field.keeps_optional fun _ _ _ _ _ hs => hs, ?_⟩
  refine List.forall_mem_cons.mpr ⟨Field.keeps_optional fun _ _ _ hd hread _ => ?_, ?_⟩
  · exact Codec.isNaN_readSingle hread hd
  refine List.forall_mem_cons.mpr ⟨Field.keeps_optional fun _ _ _ _ _ hs => hs, ?_⟩
  exact List.forall_mem_singleton.mpr (Field.keeps_optional fun _ _ _ _ _ hs => hs)

theorem Codec.defined_json {v : Json} (h : Codec.json.read d = .ok v) (hd : d.Defined) :
    v.Defined := by
  have h : liftBreakage d.toJson = .ok v := h
  cases hjson : d.toJson with
  | error b =>
    rw [hjson] at h
    cases h
  | ok w =>
    rw [hjson] at h
    cases h
    exact Document.defined_toJson hjson hd

theorem Engine.isNaN_ofMembers {members : List (String × Json)} {e : Engine}
    (hd : ∀ p ∈ members, p.2.Defined) (h : ofMembers members = .ok e) :
    e.settings.gpuMemoryUtilization.isNaN = false := by
  obtain ⟨w, hw, h⟩ := bind_eq_ok.mp h
  have hmembers : ∀ p ∈ Document.ofMembers members, p.2.Defined :=
    Document.defined_object.mp (Document.defined_ofJson (Json.defined_object.mpr hd))
  have hsettings : w.settings.Defined := by
    have hfields : ∀ f ∈ wireShape.fields, f.Keeps fun w => w.settings.Defined :=
      List.forall_mem_cons.mpr ⟨Field.keeps_optional fun _ _ _ _ _ hs => hs,
        List.forall_mem_singleton.mpr (Field.keeps_optional fun _ _ _ hd hread _ =>
          Codec.defined_json hread hd)⟩
    exact RecordShape.keeps_readMap hfields (fun _ hn => absurd hn List.not_mem_nil) hmembers hw
  simp only [ofWire] at h
  split at h
  · split at h
    · rename_i v hv
      cases h
      refine VllmSettings.isNaN_wideCodec (Document.defined_ofJson ?_) hv
      split
      · exact fun _ hn => absurd hn List.not_mem_nil
      · exact hsettings
    · cases h
  · cases h

theorem TaskSpec.isNaN_read {s : TaskSpec} (hd : d.Defined) (h : codec.read d = .ok s) :
    s.settings.gpuMemoryUtilization.isNaN = false := by
  unfold codec codecIn at h
  dsimp only at h
  split at h
  · obtain ⟨⟨seen, read, kept⟩, hmembers, h⟩ := bind_eq_ok.mp h
    obtain ⟨-, -, h⟩ := bind_eq_ok.mp h
    obtain ⟨engine, hengine, h⟩ := bind_eq_ok.mp h
    cases h
    refine Engine.isNaN_ofMembers ?_ hengine
    refine (RecordShape.keeps_readMembers (P := fun _ => True)
      (R := fun kept => ∀ p ∈ kept, p.2.Defined) (fun _ _ _ _ _ _ _ _ => trivial) ?_
      (Document.defined_object.mp hd) trivial (fun _ hp => absurd hp List.not_mem_nil) hmembers).2
    intro key d kept kept' hd hkept hread
    obtain ⟨v, hv, hread⟩ := bind_eq_ok.mp hread
    cases hread
    split
    · refine List.forall_mem_append.mpr ⟨hkept, List.forall_mem_singleton.mpr ?_⟩
      exact Codec.defined_json hv hd
    · exact hkept
  · cases h

/-- A spec in a request has a fraction that is defined, also with its
    defaults filled in. -/
theorem ApiRequest.isNaN_readSpec {request : ApiRequest} {given : TaskSpec}
    (h : request.readSpec = .ok given) (serving : ServingSettings) :
    (given.fillDefaults serving).settings.gpuMemoryUtilization.isNaN = false := by
  show given.settings.gpuMemoryUtilization.isNaN = false
  unfold readSpec at h
  split at h
  · split at h
    · cases h
    · split at h
      · rename_i spec htext
        cases h
        obtain ⟨s, hread, htext⟩ := bind_eq_ok.mp htext
        obtain ⟨-, -, htext⟩ := bind_eq_ok.mp htext
        cases htext
        exact TaskSpec.isNaN_read (Document.defined_ofText _) hread
      · split at h <;> cases h
  · cases h

end Reading

end ServingPlane
