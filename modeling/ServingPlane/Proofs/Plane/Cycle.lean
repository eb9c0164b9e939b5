import ServingPlane.Proofs.Plane.Turn
import ServingPlane.Proofs.Queue.Slots

/-! # What a cycle may touch

    In a cycle each task has its turn, and what comes of it follows from
    what belongs to that task and from what the outside answers about it;
    any answers about one task go together with any about the others.  So
    no failure for one task shows in what happens to another, and over any
    number of cycles a task of which its owner decides keeps its spec and
    its history and is never queued. -/

namespace ServingPlane

theorem Registry.WellNamed.mem_specs {r : Registry} (h : r.WellNamed) {spec : TaskSpec} :
    spec ∈ r.specs ↔ ∃ task, r.get? spec.name = some task ∧ task.spec = spec := by
  rw [specs, Dict.values, List.map_map, List.mem_map]
  constructor
  · rintro ⟨⟨name, task⟩, hentry, rfl⟩
    have hget := Dict.get?_eq_some_iff.mpr hentry
    refine ⟨task, ?_, rfl⟩
    show r.get? task.spec.name = some task
    rw [h name task hget]
    exact hget
  · rintro ⟨task, hget, rfl⟩
    exact ⟨(task.spec.name, task), Dict.get?_eq_some_iff.mp hget, rfl⟩

namespace Detector

open Program

variable {d : Detector} {spec : TaskSpec} {specs : List TaskSpec} {w u t : Watch}
  {log : String → List OutsideEvent} {after : String → Holding}

/-! ## Turns in a row -/

/-- After turns of these tasks this was heard of each, and this has become
    of what belongs to it; the other tasks are as they were. -/
structure Cycled (specs : List TaskSpec) (log : String → List OutsideEvent)
    (after : String → Holding) (w t : Watch) : Prop where
  holding : ∀ spec ∈ specs, t.plane.holding spec.name = after spec.name
  touches : w.plane.Touches (specs.map (·.name)) t.plane
  heard : t.heard = w.heard ++ specs.flatMap fun spec => log spec.name

/-- A turn comes first. -/
theorem Cycled.cons (h : Came spec.name (log spec.name) (after spec.name) w u)
    (h' : Cycled specs log after u t) (hname : spec.name ∉ specs.map (·.name)) :
    Cycled (spec :: specs) log after w t where
  holding := by
    refine List.forall_mem_cons.mpr ⟨?_, h'.holding⟩
    rw [h'.touches.holding hname, h.holding]
  touches := h.touches.cons h'.touches hname
  heard := by rw [h'.heard, h.heard, List.flatMap_cons, List.append_assoc]

theorem Cycled.congr (h : Cycled specs log after w t) {log' : String → List OutsideEvent}
    {after' : String → Holding} (hlog : ∀ spec ∈ specs, log' spec.name = log spec.name)
    (hafter : ∀ spec ∈ specs, after' spec.name = after spec.name) :
    Cycled specs log' after' w t where
  holding := by
    intro spec hspec
    rw [h.holding spec hspec, hafter spec hspec]
  touches := h.touches
  heard := by rw [h.heard, List.flatMap_congr hlog]

/-- Each of these tasks has gone one of the ways of a visit. -/
def Visits (d : Detector) (w : Watch) (log : String → List OutsideEvent)
    (after : String → Holding) (specs : List TaskSpec) : Prop :=
  ∀ spec ∈ specs, Visit d spec w.plane.queue.closed (w.plane.holding spec.name) (log spec.name)
    (after spec.name)

/-- What is found of the others does not depend on a turn. -/
theorem visits_iff (h : w.plane.Touches [spec.name] u.plane)
    (hname : spec.name ∉ specs.map (·.name)) :
    Visits d u log after specs ↔ Visits d w log after specs := by
  refine forall₂_congr fun other hother => ?_
  have hapart : other.name ∉ [spec.name] := by
    intro hin
    exact hname (List.mem_map.mpr ⟨other, hother, List.mem_singleton.mp hin⟩)
  rw [h.closed, h.holding hapart]

/-- A cycle over different tasks never gets stuck, and its runs are all the
    combinations of the ways of the visits. -/
theorem behaves_cycle (hnames : (specs.map (·.name)).Nodup)
    (hready : w.plane.Ready (specs.map (·.name))) :
    (d.cycle specs).Guarded watching Watch.serves w ∧
    (∀ t, (d.cycle specs).Runs watching w () t → ∃ log after,
      Cycled specs log after w t ∧ Visits d w log after specs) ∧
    ∀ log after, Visits d w log after specs →
      ∃ t, (d.cycle specs).Runs watching w () t ∧ Cycled specs log after w t := by
  induction specs generalizing w with
  | nil =>
    have hstay : ∀ log after, Cycled [] log after w w := fun log after =>
      ⟨fun _ h => absurd h List.not_mem_nil, .refl _ _, (List.append_nil _).symm⟩
    refine ⟨trivial, ?_, fun log after _ => ⟨w, ⟨rfl, rfl⟩, hstay log after⟩⟩
    rintro t ⟨-, rfl⟩
    exact ⟨fun _ => [], fun _ => ⟨none, none, none⟩, hstay _ _, fun _ h =>
      absurd h List.not_mem_nil⟩
  | cons spec specs ih =>
    obtain ⟨hname, hnames⟩ := List.nodup_cons.mp hnames
    have hvisit := @behaves_visit d spec
    have hrest : ∀ {first last u}, Came spec.name first last w u →
        u.plane.Ready (specs.map (·.name)) := fun hcame =>
      hcame.touches.ready_rest hready hname
    refine ⟨?_, fun t hrun => ?_, fun log after hvisits => ?_⟩
    · refine guarded_bind.mpr ⟨hvisit.served w hready.head, fun a u hrun => ?_⟩
      obtain ⟨first, last, -, hcame⟩ := hvisit.does hready.head hrun
      exact (ih hnames (hrest hcame)).1
    · obtain ⟨⟨⟩, u, hrun, hcycle⟩ := runs_bind.mp hrun
      obtain ⟨first, last, hway, hcame⟩ := hvisit.does hready.head hrun
      obtain ⟨log, after, hcycled, hvisits⟩ := (ih hnames (hrest hcame)).2.1 t hcycle
      rw [visits_iff hcame.touches hname] at hvisits
      -- the names differ, so what was heard of the one does not hide what was heard of the others
      have hlog : ∀ other ∈ specs,
          Function.update log spec.name first other.name = log other.name := by
        intro other hother
        refine Function.update_of_ne (fun heq => hname ?_) _ _
        exact List.mem_map.mpr ⟨other, hother, heq⟩
      have hafter : ∀ other ∈ specs,
          Function.update after spec.name last other.name = after other.name := by
        intro other hother
        refine Function.update_of_ne (fun heq => hname ?_) _ _
        exact List.mem_map.mpr ⟨other, hother, heq⟩
      refine ⟨Function.update log spec.name first, Function.update after spec.name last, ?_, ?_⟩
      · refine .cons ?_ (hcycled.congr hlog hafter) hname
        rw [Function.update_self, Function.update_self]
        exact hcame
      · refine List.forall_mem_cons.mpr ⟨?_, fun other hother => ?_⟩
        · rw [Function.update_self, Function.update_self]
          exact hway
        · rw [hlog other hother, hafter other hother]
          exact hvisits other hother
    · obtain ⟨hway, hvisits⟩ := List.forall_mem_cons.mp hvisits
      obtain ⟨u, hrun, hcame⟩ := hvisit.may hready.head hway
      obtain ⟨t, hcycle, hcycled⟩ := (ih hnames (hrest hcame)).2.2 log after
        ((visits_iff hcame.touches hname).mpr hvisits)
      exact ⟨t, runs_bind.mpr ⟨(), u, hrun, hcycle⟩, .cons hcame hcycled hname⟩

/-! ## All tasks -/

variable {walk : Registry → List TaskSpec}

/-- The registry is read, and then it is the cycle's turn. -/
theorem runs_detectWalking (hfree : w.plane.locked = false) :
    (∀ t, (d.detectWalking walk).Runs watching w () t ↔
      (d.cycle (walk w.plane.registry)).Runs watching w () t) ∧
    ((d.cycle (walk w.plane.registry)).Guarded watching Watch.serves w →
      (d.detectWalking walk).Guarded watching Watch.serves w) := by
  have hread : w.plane.serve .readRegistry = some (w.plane.registry, w.plane) := by
    simp only [Plane.serve, Plane.whenFree]
    rw [hfree, if_neg Bool.false_ne_true]
  have hasked : (ask .readRegistry).settled w.plane = some (w.plane.registry, w.plane) :=
    settled_ask hread
  refine ⟨fun _ => runs_bind_of_settled watching_hosts hasked, fun hcycle => ?_⟩
  refine guarded_bind.mpr ⟨guarded_of_settled watching_hosts (fun hserved => hserved) hasked,
    fun registry u hrun => ?_⟩
  obtain ⟨rfl, rfl⟩ := (runs_of_settled watching_hosts hasked).mp hrun
  exact hcycle

/-- The visits of all registered tasks, told by their names. -/
theorem visits_registry_iff (hnamed : w.plane.registry.WellNamed)
    (hwalk : (walk w.plane.registry).Perm w.plane.registry.specs) :
    Visits d w log after (walk w.plane.registry) ↔
      ∀ name task, w.plane.registry.get? name = some task →
        Visit d task.spec w.plane.queue.closed (w.plane.holding name) (log name) (after name) := by
  constructor
  · intro hvisits name task hget
    have hname := hnamed name task hget
    have hspec : task.spec ∈ w.plane.registry.specs :=
      hnamed.mem_specs.mpr ⟨task, hname.symm ▸ hget, rfl⟩
    have hvisit := hvisits task.spec (hwalk.mem_iff.mpr hspec)
    rw [hname] at hvisit
    exact hvisit
  · intro hall spec hspec
    obtain ⟨task, hget, rfl⟩ := hnamed.mem_specs.mp (hwalk.mem_iff.mp hspec)
    exact hall _ task hget

/-- A cycle over the registry, in whatever order it is walked. -/
theorem behaves_detectWalking (hnamed : w.plane.registry.WellNamed)
    (hready : w.plane.Ready (Dict.keys w.plane.registry))
    (hwalk : (walk w.plane.registry).Perm w.plane.registry.specs) :
    (d.detectWalking walk).Guarded watching Watch.serves w ∧
    (∀ t, (d.detectWalking walk).Runs watching w () t → ∃ log after,
      Cycled (walk w.plane.registry) log after w t ∧
      Visits d w log after (walk w.plane.registry)) ∧
    ∀ log after, Visits d w log after (walk w.plane.registry) →
      ∃ t, (d.detectWalking walk).Runs watching w () t ∧
        Cycled (walk w.plane.registry) log after w t := by
  obtain ⟨hruns, hserved⟩ := @runs_detectWalking d w walk hready.free
  have hkeys : ((walk w.plane.registry).map (·.name)).Perm (Dict.keys w.plane.registry) := by
    rw [← hnamed.map_name_specs]
    exact hwalk.map _
  obtain ⟨hguarded, hdoes, hmay⟩ := @behaves_cycle d _ w
    (hkeys.nodup_iff.mpr (Dict.keys_nodup _)) (hready.perm hkeys)
  refine ⟨hserved hguarded, fun t hrun => hdoes t ((hruns t).mp hrun), fun log after hvisits => ?_⟩
  obtain ⟨t, hrun, hcycled⟩ := hmay log after hvisits
  exact ⟨t, (hruns t).mpr hrun, hcycled⟩

/-! ## Round after round -/

/-- Any number of cycles, between which the scaler may take from the queue. -/
inductive Rounds (d : Detector) : Watch → Watch → Prop where
  | start (w : Watch) : Rounds d w w
  | cycle {w u t : Watch} (h : Rounds d w u)
    (hready : u.plane.Ready (Dict.keys u.plane.registry))
    (hrun : d.detectOnce.Runs watching u () t) : Rounds d w t
  | popped {w u : Watch} (h : Rounds d w u) : Rounds d w { u with plane := u.plane.pop.2 }

/-- A task keeps its spec and its history; what waits of it may be taken. -/
structure Spared (before after : Holding) : Prop where
  spec : after.entry.map (·.spec) = before.entry.map (·.spec)
  history : after.history = before.history
  waits : after.waits = before.waits ∨ after.waits = none

/-- Nobody is asked about a task of which its owner decides, so that its turn
    leaves all but the status. -/
theorem Turned.kept_of_manual {spec : TaskSpec} {log : List OutsideEvent} {before after : Holding}
    (h : Turned d spec log before after) (hmanual : spec.isAutoScaled = false) :
    Kept before after := by
  have hverdicts := h.verdicts
  have hadvice := h.advice
  have hdue : due spec log = false := by
    simp only [due]
    rw [hmanual, Bool.false_and]
  rw [hdue] at hverdicts
  have hunasked : d.replies Advisor.detection log = [] :=
    List.length_eq_zero_iff.mp (Nat.le_zero.mp hverdicts)
  rw [hunasked] at hadvice
  have hunadvised : d.replies Advisor.recovery log = [] :=
    List.length_eq_zero_iff.mp (Nat.le_zero.mp hadvice)
  rcases h.effect with hkept | ⟨outcome, houtcome, -⟩
  · exact hkept
  · rw [hunadvised] at houtcome
    exact absurd houtcome List.not_mem_nil

/-- A turn leaves the task its name. -/
theorem Turned.name_eq {spec : TaskSpec} {log : List OutsideEvent} {before after : Holding}
    (h : Turned d spec log before after) {old new : RegisteredTask}
    (hold : before.entry = some old) (hspec : old.spec = spec) (hnew : after.entry = some new) :
    new.spec.name = spec.name := by
  rcases h.effect with hkept | ⟨-, -, recommended, -, hfollowed⟩
  · have hsame := hkept.spec
    rw [hold, hnew] at hsame
    have hsame : new.spec = old.spec := Option.some.inj hsame
    rw [hsame, hspec]
  · have hsame := hfollowed.entry
    rw [hold, hnew] at hsame
    have hsame : new.spec = spec.apply recommended := Option.some.inj hsame
    rw [hsame]
    rfl

/-- After a cycle tasks still stand under their own names. -/
theorem Cycled.wellNamed (h : Cycled (walk w.plane.registry) log after w t)
    (hvisits : Visits d w log after (walk w.plane.registry))
    (hnamed : w.plane.registry.WellNamed)
    (hwalk : (walk w.plane.registry).Perm w.plane.registry.specs) :
    t.plane.registry.WellNamed := by
  intro name new hnew
  by_cases hin : name ∈ (walk w.plane.registry).map (·.name)
  · obtain ⟨spec, hspec, rfl⟩ := List.mem_map.mp hin
    obtain ⟨old, hold, hsame⟩ := hnamed.mem_specs.mp (hwalk.mem_iff.mp hspec)
    have hentry : (after spec.name).entry = some new := by
      rw [← h.holding spec hspec]
      exact hnew
    exact (hvisits spec hspec).turned.name_eq hold hsame hentry
  · rw [h.touches.entry name hin] at hnew
    exact hnamed name new hnew

/-- A cycle spares a task of which its owner decides. -/
theorem Cycled.spared (h : Cycled (walk w.plane.registry) log after w t)
    (hvisits : Visits d w log after (walk w.plane.registry))
    (hnamed : w.plane.registry.WellNamed)
    (hwalk : (walk w.plane.registry).Perm w.plane.registry.specs) {name : String}
    {task : RegisteredTask} (hget : w.plane.registry.get? name = some task)
    (hmanual : task.spec.isAutoScaled = false) :
    Spared (w.plane.holding name) (t.plane.holding name) := by
  have hname := hnamed name task hget
  have hspec : task.spec ∈ walk w.plane.registry :=
    hwalk.mem_iff.mpr (hnamed.mem_specs.mpr ⟨task, hname.symm ▸ hget, rfl⟩)
  have hholding := h.holding task.spec hspec
  have hkept := (hvisits task.spec hspec).turned.kept_of_manual hmanual
  rw [← hholding, hname] at hkept
  exact ⟨hkept.spec, hkept.history, .inl hkept.waits⟩

theorem Spared.trans {before mid after : Holding} (h : Spared before mid) (h' : Spared mid after) :
    Spared before after where
  spec := h'.spec.trans h.spec
  history := h'.history.trans h.history
  waits := by
    rcases h'.waits with hsame | hnone
    · rw [hsame]
      exact h.waits
    · exact .inr hnone

/-- A take removes what waits of one task. -/
theorem pending_takeFirst (names : List String) (q : TaskQueue) (name : String) :
    (TaskQueue.takeFirst names q).2.pending.get? name = q.pending.get? name ∨
      (TaskQueue.takeFirst names q).2.pending.get? name = none := by
  induction names with
  | nil => exact .inl rfl
  | cons first names ih =>
    simp only [TaskQueue.takeFirst]
    cases q.pending.get? first with
    | none => exact ih
    | some spec =>
      by_cases hname : name = first
      · rw [hname]
        exact .inr (Dict.get?_erase_self ..)
      · exact .inl (Dict.get?_erase_of_ne _ hname)

theorem spared_pop (p : Plane) (name : String) :
    Spared (p.holding name) (p.pop.2.holding name) := by
  have hpop : p.pop.2 = { p with queue := p.queue.pop.2 } := by
    simp only [Plane.pop]
    cases p.queue.pop with
    | mk result queue => cases result <;> rfl
  rw [hpop]
  refine ⟨rfl, rfl, ?_⟩
  show p.queue.pop.2.pending.get? name = _ ∨ p.queue.pop.2.pending.get? name = none
  rw [TaskQueue.pop_eq_grant]
  exact pending_takeFirst p.queue.channel p.queue name

/-- However many rounds there are, a task of which its owner decides is spared. -/
theorem Rounds.spared (h : Rounds d w t) (hnamed : w.plane.registry.WellNamed) :
    t.plane.registry.WellNamed ∧ ∀ name task, w.plane.registry.get? name = some task →
      task.spec.isAutoScaled = false → Spared (w.plane.holding name) (t.plane.holding name) := by
  induction h with
  | start => exact ⟨hnamed, fun _ _ _ _ => ⟨rfl, rfl, .inl rfl⟩⟩
  | @cycle u t _ hready hrun ih =>
    obtain ⟨hnamed', hspared⟩ := ih
    rw [detectOnce_eq] at hrun
    obtain ⟨log, after, hcycled, hvisits⟩ :=
      (behaves_detectWalking hnamed' hready (List.Perm.refl _)).2.1 t hrun
    refine ⟨hcycled.wellNamed hvisits hnamed' (List.Perm.refl _), fun name task hget hmanual => ?_⟩
    have hearlier := hspared name task hget hmanual
    -- the task is still there, and with the spec that it had
    have hspec := hearlier.spec
    rw [show (w.plane.holding name).entry = some task from hget] at hspec
    obtain ⟨now, hnow, hsame⟩ := Option.map_eq_some_iff.mp hspec
    exact hearlier.trans (hcycled.spared hvisits hnamed' (List.Perm.refl _) hnow
      (hsame.symm ▸ hmanual))
  | @popped u _ ih =>
    obtain ⟨hnamed', hspared⟩ := ih
    have hregistry : u.plane.pop.2.registry = u.plane.registry := by
      simp only [Plane.pop]
      cases u.plane.queue.pop with
      | mk result queue => cases result <;> rfl
    refine ⟨hregistry.symm ▸ hnamed', fun name task hget hmanual => ?_⟩
    exact (hspared name task hget hmanual).trans (spared_pop u.plane name)

/-- While nobody else is at work and the queue has room, a cycle never gets
    stuck, and in whatever order it walks the registry, each task has its
    turn, in which it goes one of the ways of a visit.  It is asked about
    once if the advisor decides of it and it was seen running, and a recovery
    is asked for once on an alarm, as long as no collection panics because
    its window leaves the calendar; its spec, its place in the queue and its history
    change only by a recommendation that could be read; its status is what
    was seen, reported once; and nothing becomes of it if it was not seen.
    Any ways of the tasks go together, so that no failure for one alters what
    happens to another.  And over any number of cycles a task of which its
    owner decides keeps its spec and its history and is not queued. -/
theorem cycle_keeps_tasks_apart {walk : Registry → List TaskSpec}
    (hnamed : w.plane.registry.WellNamed) (hready : w.plane.Ready (Dict.keys w.plane.registry))
    (hwalk : (walk w.plane.registry).Perm w.plane.registry.specs) :
    d.detectOnce = d.detectWalking Registry.specs ∧
    (d.detectWalking walk).Guarded watching Watch.serves w ∧
    (∀ t, (d.detectWalking walk).Runs watching w () t → ∃ log after,
      Cycled (walk w.plane.registry) log after w t ∧
      ∀ name task, w.plane.registry.get? name = some task →
        Visit d task.spec w.plane.queue.closed (w.plane.holding name) (log name) (after name) ∧
        Turned d task.spec (log name) (w.plane.holding name) (after name)) ∧
    (∀ log after, (∀ name task, w.plane.registry.get? name = some task →
        Visit d task.spec w.plane.queue.closed (w.plane.holding name) (log name) (after name)) →
      ∃ t, (d.detectWalking walk).Runs watching w () t ∧
        Cycled (walk w.plane.registry) log after w t) ∧
    ∀ t, Rounds d w t → ∀ name task, w.plane.registry.get? name = some task →
      task.spec.isAutoScaled = false → Spared (w.plane.holding name) (t.plane.holding name) := by
  obtain ⟨hserved, hdoes, hmay⟩ := @behaves_detectWalking d w walk hnamed hready hwalk
  refine ⟨d.detectOnce_eq, hserved, fun t hrun => ?_, fun log after hall => ?_,
    fun t hrounds => (hrounds.spared hnamed).2⟩
  · obtain ⟨log, after, hcycled, hvisits⟩ := hdoes t hrun
    rw [visits_registry_iff hnamed hwalk] at hvisits
    refine ⟨log, after, hcycled, fun name task hget => ?_⟩
    exact ⟨hvisits name task hget, (hvisits name task hget).turned⟩
  · exact hmay log after ((visits_registry_iff hnamed hwalk).mpr hall)

/-- A task of which the advisor decides. -/
def followed : TaskSpec := { TaskSpec.blank with name := "chat", strategy := .auto }

/-- A task of which its owner decides. -/
def owned : TaskSpec := { TaskSpec.blank with name := "code" }

/-- The two tasks, just registered. -/
def bothRegistered : Watch where
  plane := { Plane.new 2 with
    registry := Registry.register (Registry.register .empty followed) owned }
  heard := []

/-- The one runs, but that cannot be reported, and the advisor cannot be
    reached; the other cannot be seen. -/
def failing (name : String) : List OutsideEvent :=
  if name = "chat" then
    [.askedRunning followed (.ok true), .askedInstances followed (.ok [])] ++
      ([.reported "chat" .running [] (.error "refused")] ++
        ([.shown ⟨1700000000, 0⟩, .gathered (attentive.metrics.requests
            ⟨⟨1699989200, 0⟩, ⟨1700000000, 0⟩, "60s"⟩ followed) []] ++
          [.advised (attentive.advisor.request Advisor.detection
            (MetricsCollection.recoveryRequest followed .unset []).detection) (.error "refused")]))
  else [.askedRunning owned (.error (.engine "gone"))]

/-- The one is noted as running, and nothing becomes of the other, in this
    cycle or any later one. -/
theorem cycle_keeps_tasks_apart_of_failures :
    ∃ t, attentive.detectOnce.Runs watching bothRegistered () t ∧
      (t.plane.holding "chat").entry = some ⟨followed, .running⟩ ∧
      t.plane.holding "code" = bothRegistered.plane.holding "code" ∧
      Spared (bothRegistered.plane.holding "code") (t.plane.holding "code") := by
  have hnamed : bothRegistered.plane.registry.WellNamed :=
    (Registry.wellNamed_empty.of_reflects (Registry.reflects_register _ _)).of_reflects
      (Registry.reflects_register _ _)
  have hready : bothRegistered.plane.Ready (Dict.keys bothRegistered.plane.registry) :=
    ⟨rfl, fun _ => by decide⟩
  have hwindow : attentive.window ⟨1700000000, 0⟩
      = some ⟨⟨1699989200, 0⟩, ⟨1700000000, 0⟩, "60s"⟩ := by decide +kernel
  obtain ⟨hsame, -, -, hmay, hspared⟩ := @cycle_keeps_tasks_apart attentive bothRegistered
    Registry.specs hnamed hready (List.Perm.refl _)
  let after (name : String) : Holding :=
    if name = "chat" then (bothRegistered.plane.holding "chat").noted .running
    else bothRegistered.plane.holding "code"
  have hways : ∀ name task, bothRegistered.plane.registry.get? name = some task →
      Visit attentive task.spec bothRegistered.plane.queue.closed
        (bothRegistered.plane.holding name) (failing name) (after name) := by
    intro name task hget
    have hentry := Dict.get?_eq_some_iff.mp hget
    have hentries : Dict.entries bothRegistered.plane.registry
        = [("chat", .new followed), ("code", .new owned)] := rfl
    rw [hentries] at hentry
    rcases List.mem_cons.mp hentry with heq | hentry
    · cases heq
      exact .observed (.seen true []) (.treated [] (.error "refused") rfl (.calm
        (.answered (.error "refused") (.gathered _ [] hwindow rfl)) rfl))
    · cases List.mem_singleton.mp hentry
      exact .observed (.unanswered _) (.unseen _)
  obtain ⟨t, hrun, hcycled⟩ := hmay failing after hways
  have hchat : t.plane.holding "chat" = after "chat" :=
    hcycled.holding followed (List.mem_cons_self ..)
  have hcode : t.plane.holding "code" = after "code" :=
    hcycled.holding owned (List.mem_cons_of_mem _ (List.mem_singleton_self _))
  refine ⟨t, hsame ▸ hrun, ?_, hcode, ?_⟩
  · rw [hchat]
    rfl
  · exact hspared t (.cycle (.start _) hready (hsame ▸ hrun)) "code" (.new owned) rfl rfl

end Detector

end ServingPlane
