import ServingPlane.Proofs.Plane.Recovery

/-! # Deploys, step by step

    A deploy asks the advisor for a size if the task is scaled
    automatically, and then enters the spec that this leads to: into the
    queue and into the registry, or into neither. -/

namespace ServingPlane

namespace Detector

open Program Turn

variable {d : Detector} {spec : TaskSpec} {turns : List Turn}

/-- Queue a spec and register it, under the lock of the registry. -/
def enter (spec : TaskSpec) : Detection (Except DetectorError Unit) := do
  let registry ← ask .lockRegistry
  handOver registry (registry.register spec) spec ()

/-- A deploy of a spec that is valid: it is seeded, and entered if this works. -/
theorem deploy_of_valid (d : Detector) (h : spec.validate = .ok ()) :
    d.deploy spec = d.seed spec >>= fun
      | .error cause => pure (.error (.advisor cause))
      | .ok seeded => enter seeded := by
  simp only [deploy, h]
  congr 1

theorem deploy_of_invalid (d : Detector) {cause : TaskSpec.Invalid} (h : spec.validate = .error cause) :
    d.deploy spec = pure (.error (.invalidTask cause)) := by
  simp only [deploy, h]

/-- The turns by which a spec is seeded: the advisor is asked once if the
    task is scaled automatically, and not at all if not. -/
inductive Seeds (d : Detector) (spec : TaskSpec) : List Turn → Except AdvisorError TaskSpec → Prop
  | given (manual : spec.isAutoScaled = false) : Seeds d spec [] (.ok spec)
  | advised (auto : spec.isAutoScaled = true) (outcome : HttpOutcome) :
    Seeds d spec
      [.heard (.advise (d.advisor.request Advisor.sizing
        ⟨spec.modelConfig.family, spec.modelConfig.gpu⟩)) outcome]
      ((Advisor.readResult Advisor.sizing.result outcome).map spec.apply)

theorem Seeds.isHeard {seeded : Except AdvisorError TaskSpec} (h : Seeds d spec turns seeded) :
    ∀ turn ∈ turns, turn.IsHeard := by
  cases h with
  | given manual => exact fun _ hturn => absurd hturn List.not_mem_nil
  | advised auto outcome => exact List.forall_mem_singleton.mpr trivial

/-- Seeding does not rename a task. -/
theorem Seeds.name_eq {seeded : TaskSpec} (h : Seeds d spec turns (.ok seeded)) :
    seeded.name = spec.name := by
  generalize hseeded : Except.ok seeded = result at h
  cases h with
  | given manual =>
    cases hseeded
    rfl
  | advised auto outcome =>
    obtain ⟨r, -, rfl⟩ := map_eq_ok.mp hseeded.symm
    rfl

/-- A task that is scaled automatically is seeded by a recommendation. -/
theorem Seeds.advised_of_auto {seeded : TaskSpec} (h : Seeds d spec turns (.ok seeded))
    (hauto : spec.isAutoScaled = true) :
    ∃ outcome r, .heard (.advise (d.advisor.request Advisor.sizing
        ⟨spec.modelConfig.family, spec.modelConfig.gpu⟩)) outcome ∈ turns ∧
      Advisor.readResult Advisor.sizing.result outcome = .ok r ∧ spec.apply r = seeded := by
  generalize hseeded : Except.ok seeded = result at h
  cases h with
  | given manual =>
    rw [hauto] at manual
    cases manual
  | advised auto outcome =>
    obtain ⟨r, hread, happly⟩ := map_eq_ok.mp hseeded.symm
    exact ⟨outcome, r, List.mem_singleton.mpr rfl, hread, happly⟩

theorem makes_seed {seeded : Except AdvisorError TaskSpec} (h : (d.seed spec).Makes turns seeded) :
    Seeds d spec turns seeded := by
  simp only [seed] at h
  cases hauto : spec.isAutoScaled with
  | false =>
    rw [if_neg (by rw [hauto]; exact Bool.false_ne_true)] at h
    obtain ⟨rfl, rfl⟩ := h
    exact .given hauto
  | true =>
    rw [if_pos hauto] at h
    obtain ⟨advice, hconsult, rfl⟩ := makes_map.mp h
    obtain ⟨outcome, rfl, rfl⟩ := makes_consult hconsult
    exact .advised hauto outcome

/-- The turns of a deploy that comes to the registry: those by which the
    spec is seeded, and those by which it is entered. -/
theorem makes_deploy {result : Except DetectorError Unit} (h : (d.deploy spec).Makes turns result) :
    (∃ cause, spec.validate = .error cause ∧ result = .error (.invalidTask cause) ∧ turns = []) ∨
    spec.validate = .ok () ∧ ((∃ cause, Seeds d spec turns (.error cause) ∧
        result = .error (.advisor cause)) ∨
      ∃ asking rest seeded, turns = asking ++ rest ∧ Seeds d spec asking (.ok seeded) ∧
        (enter seeded).Makes rest result) := by
  cases hvalid : spec.validate with
  | error cause =>
    rw [deploy_of_invalid d hvalid] at h
    obtain ⟨rfl, rfl⟩ := h
    exact .inl ⟨cause, rfl, rfl, rfl⟩
  | ok =>
    rw [deploy_of_valid d hvalid] at h
    obtain ⟨asking, rest, seeded, rfl, hseed, hrest⟩ := makes_bind.mp h
    refine .inr ⟨rfl, ?_⟩
    cases seeded with
    | error cause =>
      obtain ⟨rfl, rfl⟩ := hrest
      rw [List.append_nil]
      exact .inl ⟨cause, makes_seed hseed, rfl⟩
    | ok seeded => exact .inr ⟨asking, rest, seeded, rfl, makes_seed hseed, hrest⟩

/-- A spec is entered into queue and registry, or nothing changes. -/
theorem makes_enter {r : Option Registry} {result : Except DetectorError Unit}
    (h : (enter spec).Makes turns result) (hfit : AllFit r turns) :
    (result = .error .queueClosed ∧ ∀ turn ∈ turns, turn.Quiet) ∨
    ∃ registry, result = .ok () ∧ HandsOver registry (registry.register spec) spec turns := by
  obtain ⟨asking, rest, registry, rfl, hquiet, -, hthen, hfit⟩ := makes_lock h hfit
  obtain ⟨-, ⟨rfl, hrest⟩ | ⟨rfl, hhands⟩⟩ := makes_handOver hthen hfit
  · exact .inl ⟨rfl, List.forall_mem_append.mpr ⟨hquiet, hrest⟩⟩
  · exact .inr ⟨registry, rfl, hhands.after hquiet⟩

/-- A task that is registered is queued for teardown and taken out of the
    registry, or nothing changes. -/
theorem makes_delete {r : Option Registry} {name : String} {result : Except DetectorError Bool}
    (h : (delete name).Makes turns result) (hfit : AllFit r turns) :
    (result ≠ .ok true ∧ ∀ turn ∈ turns, turn.Quiet) ∨
    ∃ (registry : Registry) (task : RegisteredTask), registry.get? name = some task ∧
      result = .ok true ∧
      HandsOver registry (registry.unregister name) task.spec.teardown turns := by
  obtain ⟨asking, rest, registry, rfl, hquiet, -, hthen, hfit⟩ := makes_lock h hfit
  cases htask : registry.get? name with
  | none =>
    rw [htask] at hthen
    obtain ⟨rfl, -⟩ := makes_release hthen hfit
    refine .inl ⟨by rintro ⟨⟩, List.forall_mem_append.mpr ⟨hquiet, ?_⟩⟩
    exact quiet_of_release hthen hfit
  | some task =>
    rw [htask] at hthen
    obtain ⟨-, ⟨rfl, hrest⟩ | ⟨rfl, hhands⟩⟩ := makes_handOver hthen hfit
    · exact .inl ⟨by rintro ⟨⟩, List.forall_mem_append.mpr ⟨hquiet, hrest⟩⟩
    · exact .inr ⟨registry, task, htask, rfl, hhands.after hquiet⟩

end Detector

end ServingPlane
