import ServingPlane.Detector
import ServingPlane.Proofs.Dict
import ServingPlane.Proofs.Program

/-! # How the detector's programs treat registry and queue

    A program may queue a spec only while it holds the registry, and the
    registry that it then releases must tell of that spec and of nothing
    else; without the lock it may change statuses only.  Every program of
    the detector keeps to this, whatever it is answered, and only a deploy
    enters a task that was not there.  The discipline is one predicate on
    programs, which follows them call by call. -/

namespace ServingPlane

namespace Registry

/-- Each task stands under the name of its spec. -/
def WellNamed (r : Registry) : Prop := ∀ name task, r.get? name = some task → task.spec.name = name

/-- A change that leaves the registered specs alone. -/
def KeepsSpecs (change : Registry → Registry) : Prop :=
  ∀ r name, ((change r).get? name).map (·.spec) = (r.get? name).map (·.spec)

/-- The registry after a spec was queued: its task has that spec, or is gone
    and the spec has no replicas; all other tasks are as they were, and the
    task is new only if it is admitted. -/
structure Reflects (admits : String → Prop) (before : Registry) (spec : TaskSpec)
    (after : Registry) : Prop where
  others : ∀ name, name ≠ spec.name → after.get? name = before.get? name
  own : (∃ task, after.get? spec.name = some task ∧ task.spec = spec ∧
      (before.get? spec.name = none → admits spec.name)) ∨
    after.get? spec.name = none ∧ spec.replica = 0

theorem wellNamed_empty : WellNamed .empty := fun _ _ h => (nomatch h)

theorem WellNamed.of_keepsSpecs {r : Registry} (h : r.WellNamed) {change : Registry → Registry}
    (hchange : KeepsSpecs change) : (change r).WellNamed := by
  intro name task htask
  have hspec := hchange r name
  rw [htask] at hspec
  obtain ⟨old, hold, heq⟩ := Option.map_eq_some_iff.mp hspec.symm
  rw [← show old.spec = task.spec from heq]
  exact h name old hold

theorem WellNamed.of_reflects {admits : String → Prop} {before after : Registry} {spec : TaskSpec}
    (h : before.WellNamed) (hreflects : Reflects admits before spec after) : after.WellNamed := by
  intro name task htask
  by_cases hname : name = spec.name
  · subst hname
    rcases hreflects.own with ⟨own, hown, hspec, -⟩ | ⟨hnone, -⟩
    · rw [htask] at hown
      cases hown
      rw [hspec]
    · rw [htask] at hnone
      exact nomatch hnone
  · rw [hreflects.others name hname] at htask
    exact h name task htask

theorem keepsSpecs_setStatus (name : String) (status : TaskStatus) :
    KeepsSpecs (·.setStatus name status) := by
  intro r other
  show ((Dict.modify r name _).get? other).map _ = _
  rw [Dict.get?_modify]
  by_cases hname : other = name
  · rw [if_pos hname, hname, Option.map_map]
    rfl
  · rw [if_neg hname]

theorem reflects_register (r : Registry) (spec : TaskSpec) :
    Reflects (· = spec.name) r spec (r.register spec) where
  others := fun _ hname => Dict.get?_insert_of_ne _ _ hname
  own := .inl ⟨.new spec, Dict.get?_insert_self _ _ _, rfl, fun _ => rfl⟩

theorem reflects_unregister {r : Registry} {admits : String → Prop} {spec : TaskSpec}
    (hreplica : spec.replica = 0) : Reflects admits r spec (r.unregister spec.name) where
  others := fun _ hname => Dict.get?_erase_of_ne _ hname
  own := .inr ⟨Dict.get?_erase_self _ _, hreplica⟩

theorem reflects_setSpec {r : Registry} {admits : String → Prop} {spec : TaskSpec}
    {task : RegisteredTask} (htask : r.get? spec.name = some task) :
    Reflects admits r spec (r.setSpec spec.name spec) where
  others := by
    intro name hname
    show (Dict.modify r spec.name _).get? name = _
    rw [Dict.get?_modify, if_neg hname]
  own := by
    refine .inl ⟨{ task with spec }, ?_, rfl, fun hnone => ?_⟩
    · show (Dict.modify r spec.name _).get? spec.name = _
      rw [Dict.get?_modify, if_pos rfl, htask]
      rfl
    · rw [htask] at hnone
      exact nomatch hnone

end Registry

/-- What a program has in hand between two calls. -/
inductive Custody where
  | free
  /-- It holds the registry. -/
  | held (r : Registry)
  /-- It holds the registry, and a spec of its own was queued. -/
  | queued (r : Registry) (spec : TaskSpec)

namespace PlaneCall

/-- Whether a program may make a call with what it has in hand. -/
def Allowed (admits : String → Prop) : {β : Type} → PlaneCall β → Custody → Prop
  | _, .readRegistry, c => c = .free
  | _, .updateRegistry change, c => c = .free ∧ Registry.KeepsSpecs change
  | _, .lockRegistry, c => c = .free
  | _, .unlockRegistry contents, c =>
    match c with
    | .free => False
    | .held r => contents = r
    | .queued r spec => Registry.Reflects admits r spec contents
  | _, .enqueue _, c => ∃ r, c = .held r
  | _, .queuedCount, c => c = .free
  | _, .appendHistory .., c => c = .free
  | _, .listHistory _, c => c = .free

/-- What a program has in hand after a call. -/
def custody : {β : Type} → PlaneCall β → β → Custody → Custody
  | _, .lockRegistry, r, _ => .held r
  | _, .unlockRegistry _, _, _ => .free
  | _, .enqueue spec, .accepted, .held r => .queued r spec
  | _, _, _, c => c

/-- What is known of an answer. -/
def Answers : {β : Type} → PlaneCall β → β → Prop
  | _, .lockRegistry, r => Registry.WellNamed r
  | _, _, _ => True

end PlaneCall

/-- A program that, with the given in hand, keeps to the discipline: it
    makes allowed calls only, and ends with nothing in hand. -/
def Program.Orderly (admits : String → Prop) {α : Type} : Detection α → Custody → Prop
  | .done _, c => c = .free
  | .call (.inl e) k, c =>
    e.Allowed admits c ∧ ∀ b, e.Answers b → (k b).Orderly admits (e.custody b c)
  | .call (.inr _) k, c => c = .free ∧ ∀ b, (k b).Orderly admits .free

namespace Program

variable {admits : String → Prop} {α β : Type} {c : Custody}

/-- A program goes on with nothing in hand but a result of its kind. -/
theorem Orderly.bind_always {p : Detection α} {f : α → Detection β} {post : α → Prop}
    (hp : p.Orderly admits c) (hpost : p.Always post)
    (hf : ∀ a, post a → (f a).Orderly admits .free) : (p >>= f).Orderly admits c := by
  show (p.bind f).Orderly admits c
  induction p generalizing c with
  | done a =>
    rw [show c = .free from hp]
    exact hf a hpost
  | call e k ih =>
    cases e with
    | inl e => exact ⟨hp.1, fun b hb => ih b (hp.2 b hb) (hpost b)⟩
    | inr e => exact ⟨hp.1, fun b => ih b (hp.2 b) (hpost b)⟩

theorem always_true (p : Detection α) : p.Always fun _ => True := by
  induction p with
  | done a => trivial
  | call e k ih => exact ih

/-- A program goes on with nothing in hand. -/
theorem Orderly.bind {p : Detection α} {f : α → Detection β} (hp : p.Orderly admits c)
    (hf : ∀ a, (f a).Orderly admits .free) : (p >>= f).Orderly admits c :=
  hp.bind_always (always_true p) fun a _ => hf a

/-- Programs over another interface, each of whose calls is orderly. -/
theorem orderly_interpret {E : Type → Type} {answer : ∀ {δ : Type}, E δ → Detection δ}
    (hanswer : ∀ {δ : Type} (e : E δ), (answer e).Orderly admits .free) (p : Program E α) :
    (p.interpret answer).Orderly admits .free := by
  induction p with
  | done a => rfl
  | call e k ih => exact (hanswer e).bind ih

end Program

namespace Detector

open Program

variable {admits : String → Prop} {α β : Type} {d : Detector} {spec : TaskSpec}

theorem orderly_askOutside (call : OutsideCall α) : (askOutside call).Orderly admits .free :=
  ⟨rfl, fun _ => rfl⟩

theorem orderly_consult (e : Advisor.Endpoint α β) (input : α) :
    (d.consult e input).Orderly admits .free :=
  orderly_interpret (fun | .send _ => orderly_askOutside _) _

theorem orderly_collect : (d.collect spec).Orderly admits .free :=
  orderly_interpret (fun | .now => orderly_askOutside _ | .gather _ => orderly_askOutside _) _

theorem orderly_seed : (d.seed spec).Orderly admits .free := by
  simp only [seed]
  by_cases hauto : spec.isAutoScaled = true
  · rw [if_pos hauto]
    exact (orderly_consult _ _).bind fun _ => rfl
  · rw [if_neg hauto]
    rfl

/-- Sizing does not rename a task. -/
theorem always_seed :
    (d.seed spec).Always fun seeded => ∀ s, seeded = .ok s → s.name = spec.name := by
  simp only [seed]
  by_cases hauto : spec.isAutoScaled = true
  · rw [if_pos hauto]
    refine always_bind fun sizing s hs => ?_
    cases sizing with
    | error e => exact nomatch hs
    | ok r =>
      cases hs
      rfl
  · rw [if_neg hauto]
    intro s hs
    cases hs
    rfl

/-- A deploy enters its own task and no other. -/
theorem orderly_deploy : (d.deploy spec).Orderly (· = spec.name) .free := by
  simp only [deploy]
  cases spec.validate with
  | error cause => rfl
  | ok =>
    refine orderly_seed.bind_always always_seed fun seeded hseeded => ?_
    cases seeded with
    | error cause => rfl
    | ok s =>
      have hname : s.name = spec.name := hseeded s rfl
      refine ⟨rfl, fun registry _ => ⟨⟨registry, rfl⟩, fun answer _ => ?_⟩⟩
      cases answer with
      | closed => exact ⟨rfl, fun _ _ => rfl⟩
      | accepted => exact ⟨hname ▸ Registry.reflects_register registry s, fun _ _ => rfl⟩

theorem orderly_delete (name : String) : (delete name).Orderly admits .free := by
  refine ⟨rfl, fun registry hnamed => ?_⟩
  dsimp only [Program.bind]
  cases htask : registry.get? name with
  | none => exact ⟨rfl, fun _ _ => rfl⟩
  | some task =>
    have hname : task.spec.teardown.name = name := hnamed name task htask
    refine ⟨⟨registry, rfl⟩, fun answer _ => ?_⟩
    cases answer with
    | closed => exact ⟨rfl, fun _ _ => rfl⟩
    | accepted => exact ⟨hname ▸ Registry.reflects_unregister rfl, fun _ _ => rfl⟩

theorem orderly_observe : (observe spec).Orderly admits .free := by
  refine ⟨rfl, fun running => ?_⟩
  cases running with
  | error cause => rfl
  | ok running =>
    refine ⟨rfl, fun runtime => ?_⟩
    cases runtime with
    | error cause => rfl
    | ok runtime => exact ⟨⟨rfl, Registry.keepsSpecs_setStatus _ _⟩, fun _ _ => rfl⟩

theorem orderly_isTaskRunning : (isTaskRunning spec).Orderly admits .free :=
  orderly_observe.bind fun seen => by
    cases seen with
    | error cause => rfl
    | ok seen => rfl

theorem orderly_describe (name : String) : (describe name).Orderly admits .free := by
  refine ⟨rfl, fun registry _ => ?_⟩
  dsimp only [Program.bind]
  cases registry.get? name with
  | none => rfl
  | some task =>
    refine ⟨rfl, fun runtime => ?_⟩
    cases runtime with
    | error cause => rfl
    | ok runtime =>
      show Orderly admits (if _ then _ else _) _
      by_cases hrunning : runtime.any RuntimeInstance.isRunning = true
      · rw [if_pos hrunning]
        exact ⟨⟨rfl, Registry.keepsSpecs_setStatus _ _⟩, fun _ _ => rfl⟩
      · rw [if_neg hrunning]
        rfl

theorem orderly_isAnomalous : (d.isAnomalous spec).Orderly admits .free := by
  refine Orderly.bind (orderly_collect.bind fun metrics => ?_) fun verdict => ?_
  · cases metrics with
    | error cause => rfl
    | ok request => exact (orderly_consult _ _).bind fun _ => rfl
  · cases verdict with
    | error cause => rfl
    | ok verdict => rfl

theorem orderly_recommendation : (d.recommendation spec).Orderly admits .free := by
  refine orderly_collect.bind fun metrics => ?_
  cases metrics with
  | error cause => rfl
  | ok request => exact (orderly_consult _ _).bind fun _ => rfl

/-- A recovered spec is queued only in place of the spec it was computed from. -/
theorem orderly_install {updated : TaskSpec} (hname : updated.name = spec.name) :
    (install spec updated).Orderly admits .free := by
  refine ⟨rfl, fun registry _ => ?_⟩
  show Orderly admits (if _ then _ else _) _
  by_cases hthere : (registry.get? spec.name).any (·.spec.eqv spec) = true
  · rw [if_pos hthere]
    refine ⟨⟨registry, rfl⟩, fun answer _ => ?_⟩
    cases answer with
    | closed => exact ⟨rfl, fun _ _ => rfl⟩
    | accepted =>
      -- the registry was looked at under the lock, so the task is still there
      cases htask : registry.get? spec.name with
      | none =>
        rw [htask] at hthere
        exact absurd hthere Bool.false_ne_true
      | some task =>
        rw [← hname] at htask ⊢
        exact ⟨Registry.reflects_setSpec htask, fun _ _ => rfl⟩
  · rw [if_neg hthere]
    exact ⟨rfl, fun _ _ => rfl⟩

theorem orderly_recover : (d.recover spec).Orderly admits .free := by
  simp only [recover]
  cases spec.currentConfig with
  | none => rfl
  | some previous =>
    refine orderly_recommendation.bind fun recommended => ?_
    cases recommended with
    | error cause => rfl
    | ok recommended =>
      have hinstall : (install spec (spec.apply recommended)).Orderly admits .free :=
        orderly_install rfl
      refine hinstall.bind fun installed => ?_
      cases installed with
      | error cause => rfl
      | ok there =>
        cases there with
        | false => rfl
        | true =>
          refine ⟨rfl, fun now => ⟨rfl, fun answer _ => ?_⟩⟩
          cases answer with
          | error cause => rfl
          | ok => rfl

theorem orderly_visit : (d.visit spec).Orderly admits .free := by
  refine orderly_observe.bind fun seen => ?_
  cases seen with
  | error cause => rfl
  | ok seen =>
    obtain ⟨status, runtime⟩ := seen
    -- what follows the report, made or not
    have htreat : (show Detection Unit from do
        if spec.isAutoScaled && status == .running then
          if ← d.isAnomalous spec then
            let _ ← d.recover spec).Orderly admits .free := by
      dsimp only
      by_cases hauto : (spec.isAutoScaled && status == .running) = true
      · rw [if_pos hauto]
        refine orderly_isAnomalous.bind fun anomalous => ?_
        cases anomalous with
        | false => rfl
        | true => exact orderly_recover.bind fun _ => rfl
      · rw [if_neg hauto]
        rfl
    dsimp only
    by_cases hreports : d.reports = true
    · rw [if_pos hreports]
      exact (orderly_askOutside _).bind fun _ => htreat
    · rw [if_neg hreports]
      exact htreat

/-- A detection cycle is orderly, however many tasks it visits. -/
theorem orderly_cycle (specs : List TaskSpec) : (d.cycle specs).Orderly admits .free := by
  induction specs with
  | nil => rfl
  | cons spec specs ih => exact orderly_visit.bind fun _ => ih

theorem orderly_detectWalking (walk : Registry → List TaskSpec) :
    (d.detectWalking walk).Orderly admits .free :=
  ⟨rfl, fun _ _ => orderly_cycle _⟩

end Detector

end ServingPlane
