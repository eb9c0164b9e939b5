import ServingPlane.Proofs.Plane.Lineage
import ServingPlane.Proofs.Text.Blank

/-! # Registered tasks can be named

    What is valid to deploy has a name without white space and slashes,
    so the name survives trimming and stands in a path as one part.  No
    deploy enters anything else, and a recovery changes neither name nor
    model; so in any run, each task of the registry stands under its own
    name and can be named. -/

namespace ServingPlane

namespace TaskSpec

/-- The name is there and free of white space and slashes, and a model is named. -/
structure Addressable (spec : TaskSpec) : Prop where
  named : spec.name ≠ ""
  solid : Text.Solid spec.name.toList
  whole : '/' ∉ spec.name.toList
  model : ¬ Text.Blank spec.model.toList

/-- The check of a name finds neither white space nor slashes. -/
theorem legal_iff {cs : List Char} :
    cs.any (fun c => Text.isBlank c || c == '/') = false ↔ Text.Solid cs ∧ '/' ∉ cs := by
  rw [List.any_eq_false]
  constructor
  · intro h
    refine ⟨fun c hc => Bool.eq_false_iff.mpr fun hblank => ?_, fun hslash => ?_⟩
    · exact h c hc (by rw [hblank, Bool.true_or])
    · exact h '/' hslash (by decide)
  · rintro ⟨hsolid, hwhole⟩ c hc
    rw [hsolid c hc, Bool.false_or, beq_iff_eq]
    rintro rfl
    exact hwhole hc

/-- The check of a spec lets through just those that can be named. -/
theorem validate_eq_ok_iff {spec : TaskSpec} : spec.validate = .ok () ↔ spec.Addressable := by
  simp only [validate]
  constructor
  · intro h
    split at h
    · cases h
    · rename_i hname
      split at h
      · cases h
      · rename_i hlegal
        obtain ⟨hsolid, hwhole⟩ := legal_iff.mp (Bool.eq_false_iff.mpr hlegal)
        split at h
        · cases h
        · rename_i hmodel
          refine ⟨fun hempty => hname ?_, hsolid, hwhole, fun hblank => ?_⟩
          · rw [hempty]
            rfl
          · exact hmodel (Text.allBlank_iff.mpr hblank)
  · intro h
    have hname : ¬ Text.allBlank spec.name = true :=
      fun hblank => h.named (Text.eq_empty_of_blank h.solid (Text.allBlank_iff.mp hblank))
    rw [if_neg hname, if_neg (Bool.eq_false_iff.mp (legal_iff.mpr ⟨h.solid, h.whole⟩)),
      if_neg fun hblank => h.model (Text.allBlank_iff.mp hblank)]

variable {spec other : TaskSpec}

theorem Addressable.of_eq (h : spec.Addressable) (hname : other.name = spec.name)
    (hmodel : other.model = spec.model) : other.Addressable := by
  obtain ⟨hnamed, hsolid, hwhole, hmodelled⟩ := h
  exact ⟨hname ▸ hnamed, hname ▸ hsolid, hname ▸ hwhole, hmodel ▸ hmodelled⟩

/-- Specs that are equal as specs have one name and one model. -/
theorem Addressable.of_eqv (h : spec.Addressable) (heqv : spec.eqv other = true) :
    other.Addressable := by
  obtain ⟨-, -, -, hothers⟩ := eq_of_eqv heqv
  have hname := congrArg TaskSpec.name hothers
  have hmodel := congrArg TaskSpec.model hothers
  exact h.of_eq hname.symm hmodel.symm

/-- A recommendation changes neither name nor model. -/
theorem Addressable.apply (h : spec.Addressable) (r : Recommendation) : (spec.apply r).Addressable :=
  h.of_eq rfl rfl

end TaskSpec

/-- Each task stands under the name of its spec, and can be named. -/
def Registry.Addressable (r : Registry) : Prop :=
  ∀ name task, r.get? name = some task → task.spec.name = name ∧ task.spec.Addressable

theorem Registry.Addressable.wellNamed {r : Registry} (h : r.Addressable) : r.WellNamed :=
  fun name task htask => (h name task htask).1

/-- No change of a spec that was valid when it was deployed makes a task
    that cannot be named. -/
theorem Change.Leads.addressable {change : Change} {before after : Option TaskSpec}
    (h : change.Leads TaskSpec.Addressable before after)
    (hbefore : ∀ spec, before = some spec → spec.Addressable) {spec : TaskSpec}
    (hspec : after = some spec) : spec.Addressable := by
  cases change with
  | kept => exact hbefore spec (h.symm.trans hspec)
  | deployed given sizing =>
    obtain ⟨hgiven, -, -, hafter⟩ := h
    cases hafter.symm.trans hspec
    cases sizing with
    | none => exact hgiven
    | some r => exact hgiven.apply r
  | recovered r =>
    obtain ⟨-, old, base, hold, heqv, hafter⟩ := h
    cases hafter.symm.trans hspec
    -- the spec that is merged is equal, as specs are compared, to the one that stood there
    exact ((hbefore old hold).of_eqv heqv).apply r
  | removed => cases h.symm.trans hspec

namespace Schedule

variable {s : Schedule}

/-- Whoever takes a step, the tasks of the registry can be named after it if
    they could before. -/
theorem Sound.addressable_step (h : s.Sound) (hlawful : s.Lawful TaskSpec.Addressable)
    (haddressable : s.plane.registry.Addressable) (d : Detector) (action : Action) :
    (s.step d action).plane.registry.Addressable := by
  intro name task htask
  refine ⟨(h.step d action).named name task htask, ?_⟩
  obtain ⟨change, hleads⟩ := (h.lawful_step hlawful d fun _ _ _ hvalid =>
    TaskSpec.validate_eq_ok_iff.mp hvalid).1 name
  refine hleads.addressable (fun spec hspec => ?_) (congrArg (Option.map RegisteredTask.spec) htask)
  obtain ⟨old, hold, rfl⟩ := Option.map_eq_some_iff.mp hspec
  exact (haddressable name old hold).2

/-- In any run, each registered task stands under its own name and can be named. -/
theorem addressable_run (d : Detector) (capacity : Nat) (actions : List Action) :
    (run d capacity actions).plane.registry.Addressable := by
  induction actions using List.reverseRecOn with
  | nil => exact fun _ _ h => (nomatch h)
  | append_singleton actions action ih =>
    rw [run_concat]
    have hlawful : (run d capacity actions).Lawful TaskSpec.Addressable :=
      lawful_run d capacity fun _ _ hvalid => TaskSpec.validate_eq_ok_iff.mp hvalid
    exact (sound_run d capacity actions).addressable_step hlawful ih d action

end Schedule

end ServingPlane
