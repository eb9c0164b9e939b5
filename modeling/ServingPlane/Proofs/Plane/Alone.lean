import ServingPlane.Proofs.Plane.Behaviour
import ServingPlane.Proofs.Plane.Deployment

/-! # Requests that nobody disturbs

    What comes of a deploy or a delete while nobody else acts, for every
    plane and every reply of the advisor: how it ends, and the plane then.
    Each statement is an equivalence, so it also tells when the request
    ends at all: it waits for good while the registry is locked, and while
    the queue is full and the task does not wait. -/

namespace ServingPlane

/-- The queue turns an append away: nobody takes specs any more, and the
    task does not wait already. -/
def TaskQueue.Refuses (q : TaskQueue) (name : String) : Prop :=
  q.pending.contains name = false ∧ q.closed = true

/-- The queue takes an append at once: the task waits already, or there is a free slot. -/
def TaskQueue.Takes (q : TaskQueue) (name : String) : Prop :=
  q.pending.contains name = true ∨ (q.closed = false ∧ 0 < q.freeSlots)

theorem TaskQueue.append_eq_finished {q q' : TaskQueue} {spec : TaskSpec} {result : AppendResult} :
    q.append spec = (.finished result, q') ↔
      (q.Refuses spec.name ∧ result = .closed ∧ q' = q) ∨
      (q.Takes spec.name ∧ result = .accepted ∧ q' = q.record spec) := by
  simp only [append, Refuses, Takes]
  cases q.pending.contains spec.name with
  | true =>
    constructor
    · rintro ⟨⟩
      exact .inr ⟨.inl rfl, rfl, rfl⟩
    · rintro (⟨⟨⟨⟩, -⟩, -⟩ | ⟨-, rfl, rfl⟩)
      rfl
  | false =>
    cases q.closed with
    | true =>
      constructor
      · rintro ⟨⟩
        exact .inl ⟨⟨rfl, rfl⟩, rfl, rfl⟩
      · rintro (⟨-, rfl, rfl⟩ | ⟨⟨⟨⟩⟩ | ⟨⟨⟩, -⟩, -⟩)
        rfl
    | false =>
      simp only [Bool.false_eq_true, if_false]
      split
      · rename_i hfree
        constructor
        · rintro ⟨⟩
          exact .inr ⟨.inr ⟨trivial, hfree⟩, rfl, rfl⟩
        · rintro (⟨⟨-, ⟨⟩⟩, -⟩ | ⟨-, rfl, rfl⟩)
          rfl
      · rename_i hfull
        constructor
        · rintro ⟨⟩
        · rintro (⟨⟨-, ⟨⟩⟩, -⟩ | ⟨⟨⟨⟩⟩ | ⟨-, hfree⟩, -⟩)
          exact absurd hfree hfull

/-- What a turn heard from the outside. -/
def Turn.event? : Turn → Option OutsideEvent
  | heard e answer => some (.of e answer)
  | asked .. => none

namespace Detector

open Program

variable {d : Detector} {spec : TaskSpec} {w t : Watch} {α : Type}

theorem runs_ask {β : Type} {e : PlaneCall β} {f : β → Detection α} {a : α} :
    (ask e >>= f).Runs watching w a t ↔ ∃ answer q, w.plane.serve e = some (answer, q) ∧
      (f answer).Runs watching { w with plane := q } a t := by
  rw [runs_bind]
  constructor
  · rintro ⟨answer, _, hask, hrest⟩
    obtain ⟨q, hserve, rfl⟩ := Program.runs_ask.mp hask
    exact ⟨answer, q, hserve, hrest⟩
  · rintro ⟨answer, q, hserve, hrest⟩
    exact ⟨answer, _, Program.runs_ask.mpr ⟨q, hserve, rfl⟩, hrest⟩

theorem runs_lock {f : Registry → Detection α} {a : α} :
    (ask .lockRegistry >>= f).Runs watching w a t ↔ w.plane.locked = false ∧
      (f w.plane.registry).Runs watching { w with plane := { w.plane with locked := true } } a t := by
  rw [runs_ask]
  simp only [Plane.serve, Plane.whenFree]
  cases w.plane.locked with
  | true => exact ⟨by rintro ⟨_, _, ⟨⟩, -⟩, by rintro ⟨⟨⟩, -⟩⟩
  | false =>
    constructor
    · rintro ⟨_, _, ⟨⟩, hrest⟩
      exact ⟨rfl, hrest⟩
    · rintro ⟨-, hrest⟩
      exact ⟨_, _, rfl, hrest⟩

theorem runs_release {contents : Registry} {a b : α} :
    (ask (.unlockRegistry contents) >>= fun _ => pure a).Runs watching w b t ↔
      b = a ∧ t = { w with plane := { w.plane with registry := contents, locked := false } } := by
  rw [runs_ask]
  constructor
  · rintro ⟨_, _, ⟨⟩, hrest⟩
    exact hrest
  · intro hrest
    exact ⟨_, _, rfl, hrest⟩

theorem runs_handOver {registry contents : Registry} {a : α} {b : Except DetectorError α} :
    (handOver registry contents spec a).Runs watching w b t ↔
      (w.plane.queue.Refuses spec.name ∧ b = .error .queueClosed ∧
        t = { w with plane := { w.plane with registry, locked := false } }) ∨
      (w.plane.queue.Takes spec.name ∧ b = .ok a ∧
        t = { w with plane := { w.plane.exchanged contents spec with locked := false } }) := by
  simp only [handOver]
  rw [runs_ask]
  have hserve : ∀ {result : AppendResult} {q : Plane},
      w.plane.serve (.enqueue spec) = some (result, q) ↔
      ∃ queue, w.plane.queue.append spec = (.finished result, queue) ∧
        q = { w.plane with queue } := by
    intro result q
    simp only [Plane.serve]
    split
    · rename_i found queue happend
      rw [happend]
      constructor
      · rintro ⟨⟩
        exact ⟨queue, rfl, rfl⟩
      · rintro ⟨_, ⟨⟩, rfl⟩
        rfl
    · rename_i ticket queue happend
      rw [happend]
      exact ⟨by rintro ⟨⟩, by rintro ⟨_, ⟨⟩, -⟩⟩
  constructor
  · rintro ⟨result, q, hanswer, hrest⟩
    obtain ⟨queue, happend, rfl⟩ := hserve.mp hanswer
    obtain ⟨hrefuses, rfl, rfl⟩ | ⟨htakes, rfl, rfl⟩ := TaskQueue.append_eq_finished.mp happend
    · obtain ⟨rfl, rfl⟩ := runs_release.mp hrest
      exact .inl ⟨hrefuses, rfl, rfl⟩
    · obtain ⟨rfl, rfl⟩ := runs_release.mp hrest
      exact .inr ⟨htakes, rfl, rfl⟩
  · rintro (⟨hrefuses, rfl, rfl⟩ | ⟨htakes, rfl, rfl⟩)
    · exact ⟨.closed, _, hserve.mpr ⟨_, TaskQueue.append_eq_finished.mpr
        (.inl ⟨hrefuses, rfl, rfl⟩), rfl⟩, runs_release.mpr ⟨rfl, rfl⟩⟩
    · exact ⟨.accepted, _, hserve.mpr ⟨_, TaskQueue.append_eq_finished.mpr
        (.inr ⟨htakes, rfl, rfl⟩), rfl⟩, runs_release.mpr ⟨rfl, rfl⟩⟩

/-- The registry is locked, a spec is handed over, and all is as it was or
    both have taken it. -/
theorem runs_relock (spec : TaskSpec) {contents : Registry} {a : α} {b : Except DetectorError α}
    (hfree : w.plane.locked = false) :
    (handOver w.plane.registry contents spec a).Runs watching
        { w with plane := { w.plane with locked := true } } b t ↔
      (w.plane.queue.Refuses spec.name ∧ b = .error .queueClosed ∧ t = w) ∨
      (w.plane.queue.Takes spec.name ∧ b = .ok a ∧
        t = ⟨w.plane.exchanged contents spec, w.heard⟩) := by
  rw [runs_handOver]
  obtain ⟨plane, heard⟩ := w
  obtain ⟨registry, locked, queue, store⟩ := plane
  cases hfree
  exact Iff.rfl

theorem runs_enter {b : Except DetectorError Unit} :
    (enter spec).Runs watching w b t ↔ w.plane.locked = false ∧
      ((w.plane.queue.Refuses spec.name ∧ b = .error .queueClosed ∧ t = w) ∨
        (w.plane.queue.Takes spec.name ∧ b = .ok () ∧
          t = ⟨w.plane.exchanged (w.plane.registry.register spec) spec, w.heard⟩)) := by
  rw [enter, runs_lock]
  exact and_congr_right fun hfree => runs_relock spec hfree

theorem runs_delete {name : String} {b : Except DetectorError Bool} :
    (delete name).Runs watching w b t ↔ w.plane.locked = false ∧
      ((w.plane.registry.get? name = none ∧ b = .ok false ∧ t = w) ∨
        ∃ task, w.plane.registry.get? name = some task ∧
          ((w.plane.queue.Refuses task.spec.name ∧ b = .error .queueClosed ∧ t = w) ∨
            (w.plane.queue.Takes task.spec.name ∧ b = .ok true ∧
              t = ⟨w.plane.exchanged (w.plane.registry.unregister name) task.spec.teardown,
                w.heard⟩))) := by
  simp only [delete]
  rw [runs_lock]
  refine and_congr_right fun hfree => ?_
  cases htask : w.plane.registry.get? name with
  | none =>
    refine runs_release.trans ⟨?_, ?_⟩
    · rintro ⟨rfl, rfl⟩
      refine .inl ⟨rfl, rfl, ?_⟩
      rw [← hfree]
    · rintro (⟨-, rfl, rfl⟩ | ⟨_, ⟨⟩, -⟩)
      refine ⟨rfl, ?_⟩
      rw [← hfree]
  | some task =>
    refine Iff.trans (runs_relock task.spec.teardown hfree) ⟨?_, ?_⟩
    · intro h
      exact .inr ⟨task, rfl, h⟩
    · rintro (⟨⟨⟩, -⟩ | ⟨_, ⟨⟩, h⟩)
      exact h

/-! ## What is heard -/

/-- The plane as it was, with more heard from the outside. -/
def heardMore (w : Watch) (turns : List Turn) : Watch :=
  ⟨w.plane, w.heard ++ turns.filterMap Turn.event?⟩

theorem runs_seed {seeded : Except AdvisorError TaskSpec} :
    (d.seed spec).Runs watching w seeded t ↔
      ∃ asking, Seeds d spec asking seeded ∧ t = heardMore w asking := by
  simp only [seed]
  cases hauto : spec.isAutoScaled with
  | false =>
    simp only [Bool.false_eq_true, if_false]
    constructor
    · rintro ⟨rfl, rfl⟩
      exact ⟨[], .given hauto, congrArg (Watch.mk _) (List.append_nil _).symm⟩
    · rintro ⟨asking, hseeds, rfl⟩
      cases hseeds with
      | given => exact ⟨rfl, congrArg (Watch.mk _) (List.append_nil _)⟩
      | advised auto => cases hauto.symm.trans auto
  | true =>
    simp only [if_true]
    constructor
    · rintro ⟨outcome, _, rfl, rfl, rfl⟩
      exact ⟨_, .advised hauto outcome, rfl⟩
    · rintro ⟨asking, hseeds, rfl⟩
      cases hseeds with
      | given manual => cases hauto.symm.trans manual
      | advised auto outcome => exact ⟨outcome, _, rfl, rfl, rfl⟩

/-- What was heard from the advisor decides what a spec is seeded with. -/
theorem Seeds.unique {first second : List Turn} {seeded seeded' : Except AdvisorError TaskSpec}
    (h : Seeds d spec first seeded) (h' : Seeds d spec second seeded')
    (hheard : (heardMore w first).heard = (heardMore w second).heard) : seeded = seeded' := by
  have hevents := List.append_cancel_left hheard
  cases h with
  | given manual =>
    cases h' with
    | given => rfl
    | advised auto => cases manual.symm.trans auto
  | advised auto outcome =>
    cases h' with
    | given manual => cases manual.symm.trans auto
    | advised _ outcome' =>
      cases hevents
      rfl

/-! ## Deploys -/

/-- What comes of a deploy of a valid spec, while nobody else acts: how it
    ends, and the state then. -/
inductive DeployEnds (d : Detector) (spec : TaskSpec) (w : Watch) :
    Except DetectorError Unit → Watch → Prop
  | unadvised {asking : List Turn} {cause : AdvisorError}
    (seeds : Seeds d spec asking (.error cause)) :
    DeployEnds d spec w (.error (.advisor cause)) (heardMore w asking)
  | refused {asking : List Turn} {seeded : TaskSpec} (seeds : Seeds d spec asking (.ok seeded))
    (free : w.plane.locked = false) (refuses : w.plane.queue.Refuses seeded.name) :
    DeployEnds d spec w (.error .queueClosed) (heardMore w asking)
  | entered {asking : List Turn} {seeded : TaskSpec} (seeds : Seeds d spec asking (.ok seeded))
    (free : w.plane.locked = false) (takes : w.plane.queue.Takes seeded.name) :
    DeployEnds d spec w (.ok ()) ⟨w.plane.exchanged (w.plane.registry.register seeded) seeded,
      (heardMore w asking).heard⟩

theorem runs_deploy {b : Except DetectorError Unit} (hvalid : spec.validate = .ok ()) :
    (d.deploy spec).Runs watching w b t ↔ DeployEnds d spec w b t := by
  rw [deploy_of_valid d hvalid, runs_bind]
  constructor
  · rintro ⟨seeded, _, hseed, hrest⟩
    obtain ⟨asking, hseeds, rfl⟩ := runs_seed.mp hseed
    cases seeded with
    | error cause =>
      obtain ⟨rfl, rfl⟩ := hrest
      exact .unadvised hseeds
    | ok seeded =>
      obtain ⟨hfree, ⟨hrefuses, rfl, rfl⟩ | ⟨htakes, rfl, rfl⟩⟩ := runs_enter.mp hrest
      · exact .refused hseeds hfree hrefuses
      · exact .entered hseeds hfree htakes
  · rintro (hseeds | ⟨hseeds, hfree, hrefuses⟩ | ⟨hseeds, hfree, htakes⟩)
    · exact ⟨_, _, runs_seed.mpr ⟨_, hseeds, rfl⟩, rfl, rfl⟩
    · exact ⟨_, _, runs_seed.mpr ⟨_, hseeds, rfl⟩,
        runs_enter.mpr ⟨hfree, .inl ⟨hrefuses, rfl, rfl⟩⟩⟩
    · exact ⟨_, _, runs_seed.mpr ⟨_, hseeds, rfl⟩,
        runs_enter.mpr ⟨hfree, .inr ⟨htakes, rfl, rfl⟩⟩⟩

end Detector

end ServingPlane
