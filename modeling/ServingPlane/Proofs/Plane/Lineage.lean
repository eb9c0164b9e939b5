import ServingPlane.Proofs.Plane.Deployment
import ServingPlane.Proofs.Task.Merge

/-! # Where registered specs come from

    A spec enters the registry as it was deployed, or sized by the advisor
    if it is scaled automatically; from then on only recoveries change it,
    each by one recommendation, until it is deployed anew or deleted.  So
    in any run, however its requests are interleaved, a registered spec is
    a deployed one with some recommendations taken in a row, and each of
    its tunables is the first value that anybody set. -/

namespace ServingPlane

/-- The spec of a task, if it is registered. -/
def Registry.spec? (r : Registry) (name : String) : Option TaskSpec := (r.get? name).map (·.spec)

namespace Registry

variable (r : Registry) {name other : String} {spec : TaskSpec}

theorem spec?_register (spec : TaskSpec) :
    (r.register spec).spec? name = if name = spec.name then some spec else r.spec? name := by
  rw [spec?, register, Dict.get?_insert, spec?]
  split <;> rfl

theorem spec?_unregister :
    (r.unregister other).spec? name = if name = other then none else r.spec? name := by
  rw [spec?, unregister, Dict.get?_erase, spec?]
  split <;> rfl

theorem spec?_setSpec (h : r.spec? other ≠ none) :
    (r.setSpec other spec).spec? name = if name = other then some spec else r.spec? name := by
  rw [spec?, setSpec, Dict.get?_modify, spec?]
  split
  · cases htask : r.get? other with
    | none => exact absurd (congrArg _ htask) h
    | some task => rfl
  · rfl

end Registry

/-- What becomes of the registered spec of a task. -/
inductive Change where
  | kept
  /-- Deployed, with the advisor's sizing if it is scaled automatically. -/
  | deployed (given : TaskSpec) (sizing : Option Recommendation)
  | recovered (recommended : Recommendation)
  | removed

/-- The advisor gives a recommendation in some reply of an endpoint. -/
def Advised {α : Type} (e : Advisor.Endpoint α Recommendation) (r : Recommendation) : Prop :=
  ∃ outcome, Advisor.readResult e.result outcome = .ok r

namespace Change

/-- A change leads from one spec of a task, or none, to the next.  A spec
    is recovered from one that equals it. -/
def Leads (asked : TaskSpec → Prop) (before after : Option TaskSpec) : Change → Prop
  | kept => after = before
  | deployed given sizing =>
    asked given ∧ sizing.isSome = given.isAutoScaled ∧ (∀ r ∈ sizing, Advised Advisor.sizing r) ∧
      after = some ((sizing.map given.apply).getD given)
  | recovered r =>
    Advised Advisor.recovery r ∧
      ∃ spec base, before = some spec ∧ spec.eqv base = true ∧ after = some (base.apply r)
  | removed => after = none

/-- The deployed spec behind a registered one, and the recommendations that
    it took. -/
def account (known : Option (TaskSpec × List Recommendation)) :
    Change → Option (TaskSpec × List Recommendation)
  | kept => known
  | deployed given sizing => some (given, sizing.toList)
  | recovered r => known.map fun (given, recs) => (given, recs ++ [r])
  | removed => none

/-- The account after the first of some changes. -/
def accountOf (changes : Nat → Change) : Nat → Option (TaskSpec × List Recommendation)
  | 0 => none
  | k + 1 => (changes k).account (accountOf changes k)

end Change

/-! ## Programs that change specs lawfully -/

namespace PlaneCall

/-- Whether a program may make a call that changes the registry, with the
    registry that it holds: statuses may change at any time, and specs as
    changes lead to. -/
def Lawful (asked : TaskSpec → Prop) : {β : Type} → PlaneCall β → Option Registry → Prop
  | _, .updateRegistry change, held => held = none ∧ Registry.KeepsSpecs change
  | _, .unlockRegistry contents, held =>
    ∃ r, held = some r ∧ ∀ name, ∃ change : Change,
      change.Leads asked (r.spec? name) (contents.spec? name)
  | _, _, _ => True

/-- The registry that a program holds after a call. -/
def holding : {β : Type} → PlaneCall β → β → Option Registry → Option Registry
  | _, .lockRegistry, r, _ => some r
  | _, .unlockRegistry _, _, _ => none
  | _, _, _, held => held

end PlaneCall

namespace Program

/-- A program that holds the given registry, or none, makes lawful calls
    only, and ends without it. -/
def Lawful (asked : TaskSpec → Prop) {α : Type} : Detection α → Option Registry → Prop
  | .done _, held => held = none
  | .call (.inl e) k, held => e.Lawful asked held ∧ ∀ b, (k b).Lawful asked (e.holding b held)
  | .call (.inr _) k, held => ∀ b, (k b).Lawful asked held

variable {asked : TaskSpec → Prop} {α β : Type} {held : Option Registry}

theorem Lawful.bind_always {p : Detection α} {f : α → Detection β} {post : α → Prop}
    (hp : p.Lawful asked held) (hpost : p.Always post)
    (hf : ∀ a, post a → (f a).Lawful asked none) : (p >>= f).Lawful asked held := by
  show (p.bind f).Lawful asked held
  induction p generalizing held with
  | done a =>
    rw [show held = none from hp]
    exact hf a hpost
  | call e k ih =>
    cases e with
    | inl e => exact ⟨hp.1, fun b => ih b (hp.2 b) (hpost b)⟩
    | inr e => exact fun b => ih b (hp b) (hpost b)

theorem Lawful.bind {p : Detection α} {f : α → Detection β} (hp : p.Lawful asked held)
    (hf : ∀ a, (f a).Lawful asked none) : (p >>= f).Lawful asked held :=
  hp.bind_always (always_true p) fun a _ => hf a

theorem lawful_interpret {E : Type → Type} {answer : ∀ {δ : Type}, E δ → Detection δ}
    (hanswer : ∀ {δ : Type} (e : E δ), (answer e).Lawful asked none) (p : Program E α) :
    (p.interpret answer).Lawful asked none := by
  induction p with
  | done a => rfl
  | call e k ih => exact (hanswer e).bind ih

end Program

namespace Detector

open Program

variable {asked : TaskSpec → Prop} {α β : Type} {d : Detector} {spec updated : TaskSpec}

theorem lawful_askOutside (call : OutsideCall α) : (askOutside call).Lawful asked none :=
  fun _ => rfl

theorem lawful_consult (e : Advisor.Endpoint α β) (input : α) :
    (d.consult e input).Lawful asked none :=
  lawful_interpret (fun | .send _ => lawful_askOutside _) _

theorem lawful_collect : (d.collect spec).Lawful asked none :=
  lawful_interpret (fun | .now => lawful_askOutside _ | .gather _ => lawful_askOutside _) _

/-- To release the registry as it was found changes nothing. -/
theorem lawful_release (registry : Registry) (a : α) :
    (ask (.unlockRegistry registry) >>= fun _ => pure a).Lawful asked (some registry) :=
  ⟨⟨registry, rfl, fun _ => ⟨.kept, rfl⟩⟩, fun _ => rfl⟩

/-- A hand-over of the registry with specs that changes lead to. -/
theorem lawful_handOver (registry contents : Registry) (a : α)
    (h : ∀ name, ∃ change : Change, change.Leads asked (registry.spec? name) (contents.spec? name)) :
    (handOver registry contents spec a).Lawful asked (some registry) := by
  refine ⟨trivial, fun answer => ?_⟩
  cases answer with
  | closed => exact lawful_release registry _
  | accepted => exact ⟨⟨registry, rfl, h⟩, fun _ => rfl⟩

/-- What a deploy queues and registers. -/
def Sized (given seeded : TaskSpec) : Prop :=
  ∃ sizing : Option Recommendation, sizing.isSome = given.isAutoScaled ∧
    (∀ r ∈ sizing, Advised Advisor.sizing r) ∧ seeded = (sizing.map given.apply).getD given

theorem always_sized :
    (d.seed spec).Always fun seeded => ∀ s, seeded = .ok s → Sized spec s := by
  simp only [seed]
  by_cases hauto : spec.isAutoScaled = true
  · rw [if_pos hauto]
    intro outcome s hs
    have hs : (Advisor.readResult Advisor.sizing.result outcome).map spec.apply = .ok s := hs
    cases hadvice : Advisor.readResult Advisor.sizing.result outcome with
    | error e =>
      rw [hadvice] at hs
      cases hs
    | ok r =>
      rw [hadvice] at hs
      cases hs
      refine ⟨some r, hauto.symm, fun r' hr' => ?_, rfl⟩
      cases hr'
      exact ⟨outcome, hadvice⟩
  · rw [if_neg hauto]
    intro s hs
    cases hs
    refine ⟨none, (Bool.eq_false_iff.mpr hauto).symm, fun _ hr => ?_, rfl⟩
    exact absurd hr (Option.not_mem_none _)

theorem lawful_seed : (d.seed spec).Lawful asked none := by
  simp only [seed]
  split
  · exact (lawful_consult _ _).bind fun _ => rfl
  · rfl

theorem lawful_enter {given : TaskSpec} (hasked : asked given) (h : Sized given spec) :
    (enter spec).Lawful asked none := by
  obtain ⟨sizing, hauto, hadvised, hspec⟩ := h
  refine ⟨trivial, fun registry => lawful_handOver registry _ () fun name => ?_⟩
  rw [Registry.spec?_register]
  split
  · exact ⟨.deployed given sizing, hasked, hauto, hadvised, congrArg some hspec⟩
  · exact ⟨.kept, rfl⟩

theorem lawful_deploy (hasked : spec.validate = .ok () → asked spec) :
    (d.deploy spec).Lawful asked none := by
  cases hvalid : spec.validate with
  | error cause =>
    rw [deploy_of_invalid d hvalid]
    rfl
  | ok =>
    rw [deploy_of_valid d hvalid]
    refine lawful_seed.bind_always always_sized fun seeded hsized => ?_
    cases seeded with
    | error cause => rfl
    | ok seeded => exact lawful_enter (hasked hvalid) (hsized seeded rfl)

theorem lawful_delete (name : String) : (delete name).Lawful asked none := by
  refine ⟨trivial, fun registry => ?_⟩
  dsimp only [Program.bind]
  cases registry.get? name with
  | none => exact lawful_release registry _
  | some task =>
    refine lawful_handOver registry (registry.unregister name) true fun other => ?_
    rw [Registry.spec?_unregister]
    split
    · exact ⟨.removed, rfl⟩
    · exact ⟨.kept, rfl⟩

theorem lawful_observe : (observe spec).Lawful asked none := by
  intro running
  cases running with
  | error cause => rfl
  | ok running =>
    intro runtime
    cases runtime with
    | error cause => rfl
    | ok runtime => exact ⟨⟨rfl, Registry.keepsSpecs_setStatus _ _⟩, fun _ => rfl⟩

theorem lawful_isTaskRunning : (isTaskRunning spec).Lawful asked none :=
  lawful_observe.bind fun seen => by
    cases seen with
    | error cause => rfl
    | ok seen => rfl

theorem lawful_describe (name : String) : (describe name).Lawful asked none := by
  refine ⟨trivial, fun registry => ?_⟩
  dsimp only [Program.bind]
  cases registry.get? name with
  | none => rfl
  | some task =>
    intro runtime
    cases runtime with
    | error cause => rfl
    | ok runtime =>
      show Program.Lawful asked (if _ then _ else _) _
      split
      · exact ⟨⟨rfl, Registry.keepsSpecs_setStatus _ _⟩, fun _ => rfl⟩
      · rfl

theorem lawful_isAnomalous : (d.isAnomalous spec).Lawful asked none := by
  refine Lawful.bind (lawful_collect.bind fun metrics => ?_) fun verdict => ?_
  · cases metrics with
    | error cause => rfl
    | ok request => exact (lawful_consult _ _).bind fun _ => rfl
  · cases verdict with
    | error cause => rfl
    | ok verdict => rfl

theorem lawful_recommendation : (d.recommendation spec).Lawful asked none := by
  refine lawful_collect.bind fun metrics => ?_
  cases metrics with
  | error cause => rfl
  | ok request => exact (lawful_consult _ _).bind fun _ => rfl

/-- What is recommended is advice in a reply. -/
theorem always_advised : (d.recommendation spec).Always fun advice =>
    ∀ r, advice = .ok r → Advised Advisor.recovery r := by
  refine always_bind fun metrics => ?_
  cases metrics with
  | error cause => exact fun r h => by cases h
  | ok request =>
    intro outcome r h
    refine ⟨outcome, ?_⟩
    have h : (Advisor.readResult Advisor.recovery.result outcome).mapError DetectorError.advisor
        = .ok r := h
    cases hadvice : Advisor.readResult Advisor.recovery.result outcome with
    | error cause =>
      rw [hadvice] at h
      cases h
    | ok advised =>
      rw [hadvice] at h
      cases h
      rfl

theorem lawful_install {r : Recommendation} (hadvised : Advised Advisor.recovery r) :
    (install spec (spec.apply r)).Lawful asked none := by
  refine ⟨trivial, fun registry => ?_⟩
  show Program.Lawful asked (if _ then _ else _) _
  by_cases hthere : (registry.get? spec.name).any (·.spec.eqv spec) = true
  · rw [if_pos hthere]
    obtain ⟨task, htask, heqv⟩ := Registry.has_iff.mp hthere
    have hspec : registry.spec? spec.name = some task.spec := congrArg _ htask
    refine lawful_handOver registry (registry.setSpec spec.name _) true fun name => ?_
    rw [Registry.spec?_setSpec _ (by rw [hspec]; exact Option.some_ne_none _)]
    split
    · rename_i hname
      subst hname
      exact ⟨.recovered r, hadvised, task.spec, spec, hspec, heqv, rfl⟩
    · exact ⟨.kept, rfl⟩
  · rw [if_neg hthere]
    exact lawful_release registry _

theorem lawful_recover : (d.recover spec).Lawful asked none := by
  simp only [recover]
  cases spec.currentConfig with
  | none => rfl
  | some previous =>
    refine lawful_recommendation.bind_always always_advised fun advice hadvised => ?_
    cases advice with
    | error cause => rfl
    | ok recommended =>
      refine Lawful.bind (lawful_install (hadvised recommended rfl)) fun installed => ?_
      cases installed with
      | error cause => rfl
      | ok there =>
        cases there with
        | false => rfl
        | true =>
          refine fun now => ⟨trivial, fun answer => ?_⟩
          cases answer with
          | error cause => rfl
          | ok => rfl

theorem lawful_visit : (d.visit spec).Lawful asked none := by
  refine lawful_observe.bind fun seen => ?_
  cases seen with
  | error cause => rfl
  | ok seen =>
    obtain ⟨status, runtime⟩ := seen
    -- what follows the report, made or not
    have htreat : (show Detection Unit from do
        if spec.isAutoScaled && status == .running then
          if ← d.isAnomalous spec then
            let _ ← d.recover spec).Lawful asked none := by
      dsimp only
      split
      · refine lawful_isAnomalous.bind fun anomalous => ?_
        cases anomalous with
        | false => rfl
        | true => exact lawful_recover.bind fun _ => rfl
      · rfl
    dsimp only
    split
    · exact (lawful_askOutside _).bind fun _ => htreat
    · exact htreat

theorem lawful_cycle (specs : List TaskSpec) : (d.cycle specs).Lawful asked none := by
  induction specs with
  | nil => rfl
  | cons spec specs ih => exact lawful_visit.bind fun _ => ih

theorem lawful_detectWalking (walk : Registry → List TaskSpec) :
    (d.detectWalking walk).Lawful asked none :=
  ⟨trivial, fun _ => lawful_cycle _⟩

end Detector

/-- Each request is served lawfully, if what it may deploy was asked for;
    a spec that is not valid is never deployed. -/
theorem Request.lawful_program {asked : TaskSpec → Prop} (d : Detector) {request : Request}
    (h : ∀ spec, request = .deploy spec → spec.validate = .ok () → asked spec) :
    (request.program d).Lawful asked none := by
  cases request with
  | deploy spec => exact (Detector.lawful_deploy (h spec rfl)).bind fun _ => rfl
  | delete name => exact (Detector.lawful_delete name).bind fun _ => rfl
  | recover spec => exact Detector.lawful_recover.bind fun _ => rfl
  | detectOnce walk => exact Detector.lawful_detectWalking walk.order
  | describe name => exact (Detector.lawful_describe name).bind fun _ => rfl
  | isRunning spec => exact Detector.lawful_isTaskRunning.bind fun _ => rfl

/-! ## Turns that change specs lawfully -/

section Turns

variable {asked : TaskSpec → Prop} {r : Option Registry} {p q : Plane} {β : Type}

/-- A registry that is as it was leads from each spec to itself. -/
theorem Change.leads_of_eq {before after : Registry} (h : after = before) (name : String) :
    ∃ change : Change, change.Leads asked (before.spec? name) (after.spec? name) :=
  ⟨.kept, congrArg (Registry.spec? · name) h⟩

/-- After a call a request holds what it knows that it holds, and the call
    has changed specs lawfully. -/
def Turn.Follows (asked : TaskSpec → Prop) (r : Option Registry) (e : PlaneCall β) (b : β)
    (p q : Plane) : Prop :=
  Turn.held r (.asked e (some b) p q) = e.holding b r ∧
    ∀ name, ∃ change : Change, change.Leads asked (p.registry.spec? name) (q.registry.spec? name)

/-- A call that leaves the registry alone, and the request with what it holds. -/
theorem Turn.Fits.follows_of_eq {e : PlaneCall β} {b : β}
    (h : (Turn.asked e (some b) p q).Fits r) (hregistry : q.registry = p.registry)
    (hholds : e.holds r.isSome = r.isSome) (hholding : e.holding b r = r) :
    Turn.Follows asked r e b p q := by
  refine ⟨?_, Change.leads_of_eq hregistry⟩
  rw [hholding, Turn.held, hholds]
  cases r with
  | none => rfl
  | some contents => exact congrArg some (hregistry.trans (h.1 contents rfl))

theorem Turn.Fits.follows {e : PlaneCall β} {b : β} (hlawful : e.Lawful asked r)
    (h : (Turn.asked e (some b) p q).Fits r) : Turn.Follows asked r e b p q := by
  have hfree : ∀ {e : PlaneCall β} {next : β × Plane}, p.serve e = p.whenFree next →
      p.serve e = some (b, q) → (b, q) = next := by
    intro e next hnext hserve
    rw [hnext, Plane.whenFree] at hserve
    split at hserve
    · cases hserve
    · exact (Option.some.inj hserve).symm
  cases e with
  | readRegistry =>
    cases hfree rfl (h.served rfl)
    exact h.follows_of_eq rfl rfl rfl
  | updateRegistry change =>
    obtain ⟨rfl, hkeeps⟩ := hlawful
    cases hfree rfl (h.served rfl)
    exact ⟨rfl, fun name => ⟨.kept, hkeeps p.registry name⟩⟩
  | lockRegistry =>
    obtain ⟨rfl, halike⟩ := h.lockRegistry
    exact ⟨congrArg some halike.registry, Change.leads_of_eq halike.registry⟩
  | unlockRegistry contents =>
    obtain ⟨found, rfl, hleads⟩ := hlawful
    obtain rfl := h.unlockRegistry
    rw [← h.1 found rfl] at hleads
    exact ⟨rfl, hleads⟩
  | enqueue spec =>
    have hregistry : q.registry = p.registry := by
      obtain ⟨-, stage, -, -, rfl⟩ := h
      rfl
    exact h.follows_of_eq hregistry rfl rfl
  | queuedCount =>
    cases h.served rfl
    exact h.follows_of_eq rfl rfl rfl
  | appendHistory task record limit =>
    obtain ⟨answer, store, hserve, -⟩ := p.serve_appendHistory task record limit
    cases hserve.symm.trans (h.served rfl)
    exact h.follows_of_eq rfl rfl rfl
  | listHistory task =>
    cases h.served rfl
    exact h.follows_of_eq rfl rfl rfl

end Turns

namespace Schedule

variable {asked : TaskSpec → Prop} {d : Detector} {s : Schedule} {i : Nat} {a : Activity}
  {r : Option Registry}

/-- The requests under way are lawful from where they stand. -/
def Lawful (asked : TaskSpec → Prop) (s : Schedule) : Prop :=
  ∀ i a, s.activities i = some a → ∃ r, s.Holds i r ∧ a.program.Lawful asked r

/-- The specs of the registry have changed lawfully. -/
def Leads (asked : TaskSpec → Prop) (before after : Schedule) : Prop :=
  ∀ name, ∃ change : Change,
    change.Leads asked (before.plane.registry.spec? name) (after.plane.registry.spec? name)

theorem leads_of_eq {before after : Schedule}
    (h : after.plane.registry = before.plane.registry) : Leads asked before after :=
  Change.leads_of_eq h

/-- A step of a request changes specs lawfully, and leaves the request lawful. -/
theorem Sound.lawful_advance (h : s.Sound) (hi : s.activities i = some a) (hr : s.Holds i r)
    (hlawful : a.program.Lawful asked r) (outside : ∀ {β : Type}, OutsideCall β → β) :
    Leads asked s (s.advance i outside) ∧
    ∀ b, (s.advance i outside).activities i = some b →
      ∃ r', (s.advance i outside).Holds i r' ∧ b.program.Lawful asked r' := by
  have hnext := h.holds_advance hr outside
  cases hprogram : a.program with
  | done =>
    obtain ⟨-, hstep⟩ := advance_of_done outside hi hprogram
    rw [hstep]
    refine ⟨leads_of_eq rfl, fun b hb => ?_⟩
    rw [show (s.put i none).activities i = none from Function.update_self ..] at hb
    cases hb
  | call e k =>
    rw [hprogram] at hlawful
    cases e with
    | inr e =>
      obtain ⟨hturn, hstep⟩ := advance_of_hear outside hi hprogram
      rw [hturn, hstep] at hnext
      obtain ⟨hnone, -⟩ | ⟨turn, hturn, -, hholds⟩ := hnext
      · cases hnone
      cases hturn
      rw [hstep]
      refine ⟨leads_of_eq rfl, fun b hb => ⟨r, hholds, ?_⟩⟩
      cases (Function.update_self ..).symm.trans hb
      exact hlawful (outside e)
    | inl e =>
      obtain ⟨hturn, hstep⟩ := advance_of_ask outside hi hprogram
      rw [hturn, hstep] at hnext
      obtain ⟨hnone, -⟩ | ⟨turn, hturn, hfits, hholds⟩ := hnext
      · cases hnone
      cases hturn
      rw [hstep]
      rw [Leads, plane_resume]
      cases hanswer : (s.plane.attempt a.stage e).answer with
      | none =>
        rw [hanswer] at hholds
        refine ⟨Change.leads_of_eq (Plane.alike_of_unanswered hanswer).registry,
          fun b hb => ⟨r, hholds, ?_⟩⟩
        simp only [resume] at hb
        rw [hanswer] at hb
        cases (Function.update_self ..).symm.trans hb
        exact hprogram ▸ hlawful
      | some answer =>
        rw [hanswer] at hholds hfits
        obtain ⟨hheld, hleads⟩ := hfits.follows hlawful.1
        refine ⟨hleads, fun b hb => ⟨_, hholds, ?_⟩⟩
        simp only [resume] at hb
        rw [hanswer] at hb
        cases (Function.update_self ..).symm.trans hb
        rw [hheld]
        exact hlawful.2 answer

/-- A request that is given up is over, if it was under way. -/
theorem abandon_cases (s : Schedule) (i : Nat) :
    (s.abandon i).activities i = none ∨ s.abandon i = s := by
  simp only [abandon]
  cases s.activities i with
  | none => exact .inr rfl
  | some a =>
    dsimp only
    cases a.awaits with
    | false => exact .inr rfl
    | true => exact .inl (Function.update_self ..)

/-- Every step changes specs lawfully, and leaves the requests lawful. -/
theorem Sound.lawful_step (h : s.Sound) (hlawful : s.Lawful asked) (d : Detector) {action : Action}
    (hasked : ∀ i spec, action = .begin i (.deploy spec) → spec.validate = .ok () → asked spec) :
    Leads asked s (s.step d action) ∧ (s.step d action).Lawful asked := by
  have hothers : ∀ i, action.replaces i = false → action.advances i = false →
      ∀ b, (s.step d action).activities i = some b →
        ∃ r, (s.step d action).Holds i r ∧ b.program.Lawful asked r := by
    intro i hreplaces hadvances b hb
    rw [activities_step d hreplaces hadvances] at hb
    obtain ⟨r, hholds, hprogram⟩ := hlawful i b hb
    exact ⟨r, h.holds_step d hholds hreplaces hadvances, hprogram⟩
  cases action with
  | begin i request =>
    cases hi : s.activities i with
    | some a =>
      have hstep : s.step d (.begin i request) = s := by
        simp only [Schedule.step]
        rw [hi]
      rw [hstep]
      exact ⟨leads_of_eq rfl, hlawful⟩
    | none =>
      have hstep : s.step d (.begin i request)
          = s.put i (some ⟨request, request.program d, false, .arrived⟩) := by
        simp only [Schedule.step]
        rw [hi]
      refine ⟨leads_of_eq (by rw [hstep]; rfl), fun j b hb => ?_⟩
      by_cases hj : i = j
      · subst hj
        rw [hstep] at hb ⊢
        cases (Function.update_self ..).symm.trans hb
        refine ⟨none, ⟨_, hb, rfl, by rintro _ ⟨⟩⟩, ?_⟩
        exact Request.lawful_program d fun spec hrequest => hasked i spec (hrequest ▸ rfl)
      · exact hothers j (decide_eq_false hj) rfl b hb
  | advance i outside =>
    cases hi : s.activities i with
    | none =>
      rw [show s.step d (.advance i outside) = s from advance_of_none outside hi]
      exact ⟨leads_of_eq rfl, hlawful⟩
    | some a =>
      obtain ⟨r, hholds, hprogram⟩ := hlawful i a hi
      obtain ⟨hleads, hself⟩ := h.lawful_advance hi hholds hprogram outside
      refine ⟨hleads, fun j b hb => ?_⟩
      by_cases hj : i = j
      · subst hj
        exact hself b hb
      · exact hothers j rfl (decide_eq_false hj) b hb
  | abandon i =>
    refine ⟨leads_of_eq (registry_abandon s i), fun j b hb => ?_⟩
    by_cases hj : i = j
    · subst hj
      rcases s.abandon_cases i with hgone | hsame
      · cases hgone.symm.trans hb
      · rw [show s.step d (.abandon i) = s from hsame] at hb ⊢
        exact hlawful i b hb
    · exact hothers j (decide_eq_false hj) rfl b hb
  | take waits =>
    obtain ⟨consumer, hstep⟩ := s.step_take d waits
    exact ⟨leads_of_eq (by rw [hstep]), fun j => hothers j rfl rfl⟩
  | consume => exact ⟨leads_of_eq rfl, fun j => hothers j rfl rfl⟩
  | abandonTake => exact ⟨leads_of_eq rfl, fun j => hothers j rfl rfl⟩
  | close => exact ⟨leads_of_eq rfl, fun j => hothers j rfl rfl⟩
  | write store => exact ⟨leads_of_eq rfl, fun j => hothers j rfl rfl⟩

/-! ## Whole runs -/

/-- Some action of a run has a spec deployed. -/
def Deploys (actions : List Action) (spec : TaskSpec) : Prop :=
  ∃ i, Action.begin i (.deploy spec) ∈ actions

/-- The spec of a task after the first steps of a run, if it is registered then. -/
def specAfter (d : Detector) (capacity : Nat) (actions : List Action) (name : String) (k : Nat) :
    Option TaskSpec :=
  (run d capacity (actions.take k)).plane.registry.spec? name

variable {capacity : Nat} {actions : List Action}

theorem run_concat (d : Detector) (capacity : Nat) (actions : List Action) (action : Action) :
    run d capacity (actions ++ [action]) = (run d capacity actions).step d action :=
  List.foldl_concat ..

/-- In a run whose deploys were asked for, all requests under way are lawful. -/
theorem lawful_run (d : Detector) (capacity : Nat)
    (hasked : ∀ spec, Deploys actions spec → spec.validate = .ok () → asked spec) :
    (run d capacity actions).Lawful asked := by
  induction actions using List.reverseRecOn with
  | nil => exact fun _ _ h => (nomatch h)
  | append_singleton actions action ih =>
    rw [run_concat]
    have hearlier : (run d capacity actions).Lawful asked :=
      ih fun spec ⟨i, hi⟩ => hasked spec ⟨i, List.mem_append_left _ hi⟩
    refine ((sound_run d capacity actions).lawful_step hearlier d fun i spec haction => ?_).2
    exact hasked spec ⟨i, haction ▸ List.mem_append_right _ List.mem_cons_self⟩

/-- Along a run each step changes specs lawfully. -/
theorem leads_specAfter (d : Detector) (capacity : Nat) (actions : List Action) (name : String)
    (k : Nat) :
    ∃ change : Change, change.Leads (Deploys actions) (specAfter d capacity actions name k)
      (specAfter d capacity actions name (k + 1)) := by
  rcases Nat.lt_or_ge k actions.length with hk | hk
  · have hdeploys : ∀ spec, Deploys (actions.take k) spec → spec.validate = .ok () →
        Deploys actions spec := fun spec ⟨i, hi⟩ _ => ⟨i, List.mem_of_mem_take hi⟩
    simp only [specAfter]
    rw [List.take_succ_eq_append_getElem hk, run_concat]
    refine ((sound_run d capacity _).lawful_step (lawful_run d capacity hdeploys) d ?_).1 name
    exact fun i spec haction _ => ⟨i, haction ▸ List.getElem_mem hk⟩
  · simp only [specAfter]
    rw [List.take_of_length_le hk, List.take_of_length_le (Nat.le_succ_of_le hk)]
    exact ⟨.kept, rfl⟩

/-- However its specs changed, a registered spec is the one last deployed,
    settled by the recommendations since. -/
theorem settled_specAfter {name : String} {changes : Nat → Change}
    (hchanges : ∀ k, (changes k).Leads asked (specAfter d capacity actions name k)
      (specAfter d capacity actions name (k + 1))) (k : Nat) {spec : TaskSpec}
    (hspec : specAfter d capacity actions name k = some spec) :
    ∃ given recs, Change.accountOf changes k = some (given, recs) ∧ asked given ∧
      TaskSpec.Settled given recs spec := by
  induction k generalizing spec with
  | zero => cases hspec
  | succ k ih =>
    have hchange := hchanges k
    rw [Change.accountOf]
    cases hkind : changes k with
    | kept =>
      rw [hkind] at hchange
      exact ih (hchange.symm.trans hspec)
    | deployed given sizing =>
      rw [hkind] at hchange
      obtain ⟨hasked, -, -, hafter⟩ := hchange
      refine ⟨given, sizing.toList, rfl, hasked, ?_⟩
      cases hafter.symm.trans hspec
      cases sizing with
      | none => exact TaskSpec.settled_given given
      | some r => exact (TaskSpec.settled_given given).apply r id
    | recovered r =>
      rw [hkind] at hchange
      obtain ⟨-, old, base, hbefore, heqv, hafter⟩ := hchange
      obtain ⟨given, recs, haccount, hasked, hsettled⟩ := ih hbefore
      refine ⟨given, recs ++ [r], ?_, hasked, ?_⟩
      · rw [haccount]
        rfl
      · cases hafter.symm.trans hspec
        refine (hsettled.congr heqv).apply r fun _ => ?_
        exact Numeric.Single.isNaN_of_eqv (TaskSpec.eq_of_eqv heqv).1
    | removed =>
      rw [hkind] at hchange
      cases hchange.symm.trans hspec

/-- What is set first wins over whole runs.  However requests, takes,
    cancellations and writes are interleaved, each step changes the spec of
    a task by at most one deploy, recovery or delete; and whichever changes
    explain a run, a registered spec is the one last deployed, settled by
    the recommendations that it took since.  To take one twice is to take
    it once, and the fraction of a card in a request is defined. -/
theorem first_setting_wins (d : Detector) (capacity : Nat) (actions : List Action) :
    (∀ name, ∃ changes : Nat → Change, ∀ k, (changes k).Leads (Deploys actions)
      (specAfter d capacity actions name k) (specAfter d capacity actions name (k + 1))) ∧
    (∀ name (changes : Nat → Change),
      (∀ k, (changes k).Leads (Deploys actions) (specAfter d capacity actions name k)
        (specAfter d capacity actions name (k + 1))) →
      ∀ k spec, specAfter d capacity actions name k = some spec →
        ∃ given recs, Change.accountOf changes k = some (given, recs) ∧
          Deploys actions given ∧ TaskSpec.Settled given recs spec) ∧
    (∀ (spec : TaskSpec) r, (spec.apply r).apply r = spec.apply r) ∧
    ∀ (request : ApiRequest) (given : TaskSpec) serving, request.readSpec = .ok given →
      (given.fillDefaults serving).settings.gpuMemoryUtilization.isNaN = false := by
  refine ⟨fun name => ?_, fun name changes hchanges k spec => settled_specAfter hchanges k,
    TaskSpec.apply_apply, fun _ _ serving hread => ApiRequest.isNaN_readSpec hread serving⟩
  choose changes hchanges using leads_specAfter d capacity actions name
  exact ⟨changes, hchanges⟩

/-- A reply of the advisor with this result. -/
def replying (result : String) : HttpOutcome := .ok ⟨200, "\x7b\"result\": " ++ result ++ "\x7d"⟩

/-- An outside without metrics, whose advisor gives this result. -/
def advising (result : String) : {β : Type} → OutsideCall β → β
  | _, .isRunning _ => .ok true
  | _, .instances _ => .ok []
  | _, .now => ⟨1700000000, 0⟩
  | _, .gather _ => []
  | _, .advise _ => replying result
  | _, .report .. => .ok ()

/-- A task that is scaled automatically, with a limit of its own. -/
def limited : TaskSpec :=
  { pair with strategy := .auto, engine := .vllm { VllmSettings.unset with maxNumSeqs := 7 } }

/-- The advisor's sizing of the task. -/
def sizing : Recommendation := ⟨3, 2, .zero, 3⟩

/-- The task is deployed with this sizing, and then recovered to half a
    card and one replica. -/
def tuned : List Action :=
  .begin 0 (.deploy limited) :: List.replicate 8 (.advance 0
      (advising "\x7b\"max_num_seqs\": 3, \"tensor_parallel_size\": 2, \"replicas\": 3\x7d"))
    ++ .begin 1 (.recover (limited.apply sizing)) :: List.replicate 13 (.advance 1
      (advising "\x7b\"tensor_parallel_size\": 4, \"gpu_memory_utilization\": 0.5, \"replicas\": 1\x7d"))

/-- The task in the end: its own limit, the first size, the first part of a
    card, and the last replica count. -/
def settled : TaskSpec :=
  { limited with engine := .vllm ⟨7, 2, ⟨0x3f000000⟩, "", false⟩, replica := 1 }

/-- A request that names a task and its model. -/
def naming : ApiRequest :=
  ⟨.post, "/deploy", some "application/json", "\x7b\"name\": \"chat\", \"model\": \"model\"\x7d"⟩

/-- What it asks for. -/
def named : TaskSpec := { TaskSpec.blank with name := "chat", model := "model" }

theorem specAfter_tuned : specAfter watchful 1 tuned "chat" 23 = some settled := by
  decide +kernel

theorem readSpec_naming : naming.readSpec = .ok named := by
  decide +kernel

/-- The run has an explanation, and by it the task in the end is settled. -/
theorem first_setting_wins_of_tuned :
    specAfter watchful 1 tuned "chat" 23 = some settled ∧ naming.readSpec = .ok named ∧
    (∃ changes : Nat → Change,
      (∀ k, (changes k).Leads (Deploys tuned) (specAfter watchful 1 tuned "chat" k)
        (specAfter watchful 1 tuned "chat" (k + 1))) ∧
      ∃ given recs, Change.accountOf changes 23 = some (given, recs) ∧ Deploys tuned given ∧
        TaskSpec.Settled given recs settled) ∧
    (named.fillDefaults default).settings.gpuMemoryUtilization.isNaN = false := by
  obtain ⟨hexplained, hsettled, -, hdefined⟩ := first_setting_wins watchful 1 tuned
  obtain ⟨changes, hchanges⟩ := hexplained "chat"
  exact ⟨specAfter_tuned, readSpec_naming,
    ⟨changes, hchanges, hsettled "chat" changes hchanges 23 settled specAfter_tuned⟩,
    hdefined naming named default readSpec_naming⟩

end Schedule

end ServingPlane
