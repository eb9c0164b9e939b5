import ServingPlane.Proofs.Plane.Turns

/-! # Recoveries

    A recovery either does all it is for or leaves nothing behind.  What
    it does is read off its turns: it asks the outside, which changes
    nothing; it locks the registry and looks whether the spec that the
    advice was for is still there; and only if it is, one turn queues the
    new spec, one replaces the entry, and one puts the change on record.
    A call that waits meanwhile changes nothing, and the registry that was
    looked at is the one the spec is queued under, since nobody else
    touches it before it is released. -/

namespace ServingPlane

/-- The registry has a spec under its name.  Specs are compared as the
    detector does it, floating-point fields as numbers: the two zeros are
    equal, and an undefined value is not equal to itself. -/
def Registry.Has (r : Registry) (spec : TaskSpec) : Prop :=
  ∃ task, r.get? spec.name = some task ∧ task.spec.eqv spec = true

theorem Registry.has_iff {r : Registry} {spec : TaskSpec} :
    (r.get? spec.name).any (·.spec.eqv spec) = true ↔ r.Has spec := by
  cases htask : r.get? spec.name with
  | none =>
    refine ⟨by rintro ⟨⟩, ?_⟩
    rintro ⟨task, hsome, -⟩
    rw [htask] at hsome
    cases hsome
  | some task =>
    refine ⟨fun h => ⟨task, htask, h⟩, ?_⟩
    rintro ⟨found, hsome, heqv⟩
    rw [htask] at hsome
    cases hsome
    exact heqv

namespace Turn

variable {r : Option Registry} {turns : List Turn} {p q : Plane}

/-- The plane is the same after the turn as before. -/
def Quiet : Turn → Prop
  | heard _ _ => True
  | asked _ _ before after => before.Alike after

/-- The registry as it was when the request locked it, if the turn did so. -/
def locked? : Turn → Option Registry
  | asked .lockRegistry (some _) before _ => some before.registry
  | _ => none

/-- The turn is an answer from the outside. -/
def IsHeard : Turn → Prop
  | heard _ _ => True
  | asked .. => False

theorem quiet_of_isHeard {turn : Turn} (h : turn.IsHeard) : turn.Quiet := by
  cases turn with
  | heard e answer => trivial
  | asked => cases h

/-- The plane could not answer yet, and is the same after the turn as before. -/
def Vain : Turn → Prop
  | asked _ none before after => before.Alike after
  | _ => False

theorem quiet_of_vain {turn : Turn} (h : turn.Vain) : turn.Quiet := by
  cases turn with
  | heard => cases h
  | asked e answer =>
    cases answer with
    | none => exact h
    | some => cases h

theorem locked?_of_vain (h : ∀ turn ∈ turns, turn.Vain) : turns.filterMap locked? = [] := by
  refine List.filterMap_eq_nil_iff.mpr fun turn hturn => ?_
  have hvain := h turn hturn
  cases turn with
  | heard => cases hvain
  | asked e answer =>
    cases answer with
    | none => cases e <;> rfl
    | some => cases hvain

theorem locked?_of_isHeard (h : ∀ turn ∈ turns, turn.IsHeard) : turns.filterMap locked? = [] := by
  refine List.filterMap_eq_nil_iff.mpr fun turn hturn => ?_
  cases turn with
  | heard e answer => rfl
  | asked => exact (h _ hturn).elim

end Turn

namespace Plane

variable {p q : Plane}

/-- A spec was queued and nothing else happened: its task waits with it,
    and waits last unless it waited before. -/
structure Queues (p : Plane) (spec : TaskSpec) (q : Plane) : Prop where
  pending : q.queue.pending = p.queue.pending.insert spec.name spec
  channel : q.queue.channel = if p.queue.pending.contains spec.name then p.queue.channel
    else p.queue.channel ++ [spec.name]
  registry : q.registry = p.registry
  store : q.store = p.store

/-- The entry of a task took a new spec and nothing else happened; the
    status is the one it had. -/
structure Replaces (p : Plane) (name : String) (spec : TaskSpec) (q : Plane) : Prop where
  entry : q.registry.get? name = (p.registry.get? name).map fun task => { task with spec }
  others : ∀ other, other ≠ name → q.registry.get? other = p.registry.get? other
  queue : q.queue = p.queue
  store : q.store = p.store

/-- A record was put in front of the history of a task and nothing else happened. -/
structure Records (p : Plane) (name : String) (record : RecoveryRecord) (q : Plane) : Prop where
  history : ∃ earlier, p.store.listHistory name = .ok earlier ∧
    q.store.history = p.store.history.insert name
      (Store.historyCodec.write ((record :: earlier).take Detector.historyLimit)).compact
  containers : q.store.containers = p.store.containers
  registry : q.registry = p.registry
  queue : q.queue = p.queue

/-- A queue that tells of a spec as recording it does. -/
theorem queues_of_record {spec : TaskSpec} {queue : TaskQueue}
    (hpending : queue.pending = (p.queue.record spec).pending)
    (hchannel : queue.channel = (p.queue.record spec).channel) :
    p.Queues spec { p with queue } := by
  rw [TaskQueue.record_eq] at hpending hchannel
  exact ⟨hpending, hchannel, rfl, rfl⟩

end Plane

namespace Turn

variable {r : Option Registry} {p q : Plane}

/-- What the plane served. -/
theorem Fits.served {β : Type} {e : PlaneCall β} {answer : β} (he : e.isAppend = false)
    (h : (asked e (some answer) p q).Fits r) : p.serve e = some (answer, q) := by
  obtain ⟨-, stage, -, hanswer, rfl⟩ := h
  cases hserve : p.serve e with
  | none =>
    rw [Plane.attempt_of_serve_eq_none he hserve] at hanswer
    cases hanswer
  | some served =>
    obtain ⟨found, plane⟩ := served
    rw [Plane.attempt_of_serve_eq_some he hserve] at hanswer ⊢
    rw [Option.some.inj hanswer]

theorem Fits.lockRegistry {registry : Registry}
    (h : (asked .lockRegistry (some registry) p q).Fits r) :
    registry = p.registry ∧ p.Alike q := by
  have hserve := h.served rfl
  simp only [Plane.serve, Plane.whenFree] at hserve
  by_cases hlocked : p.locked = true
  · rw [if_pos hlocked] at hserve
    cases hserve
  · rw [if_neg hlocked] at hserve
    cases hserve
    exact ⟨rfl, rfl, rfl, rfl, rfl⟩

theorem Fits.unlockRegistry {contents : Registry} {answer : Unit}
    (h : (asked (.unlockRegistry contents) (some answer) p q).Fits r) :
    q = { p with registry := contents, locked := false } := by
  have hserve := h.served rfl
  cases hserve
  rfl

theorem Fits.enqueue_closed {spec : TaskSpec}
    (h : (asked (.enqueue spec) (some .closed) p q).Fits r) : p.Alike q := by
  obtain ⟨-, stage, -, hanswer, rfl⟩ := h
  refine Plane.alike_of_append (p.queue.advance_step spec stage) fun hafter => ?_
  simp only [Plane.attempt] at hanswer
  rw [hafter] at hanswer
  cases hanswer

theorem Fits.enqueue_accepted {spec : TaskSpec}
    (h : (asked (.enqueue spec) (some .accepted) p q).Fits r) : p.Queues spec q := by
  obtain ⟨-, stage, hstage, hanswer, rfl⟩ := h
  simp only [Plane.attempt] at hanswer ⊢
  have hstep := p.queue.advance_step spec stage
  generalize (p.queue.advance spec stage).1 = after at hanswer hstep
  generalize (p.queue.advance spec stage).2 = queue at hstep ⊢
  cases hstep with
  | replaced => exact Plane.queues_of_record rfl rfl
  | recorded ticket =>
    have hleave :
        ((p.queue.leave ticket).record spec).grant.pending = (p.queue.record spec).pending ∧
        ((p.queue.leave ticket).record spec).grant.channel = (p.queue.record spec).channel := by
      simp only [TaskQueue.grant]
      rw [TaskQueue.record_eq, TaskQueue.record_eq]
      exact ⟨rfl, rfl⟩
    exact Plane.queues_of_record hleave.1 hleave.2
  | still =>
    -- an append that has ended takes no further steps
    cases stage with
    | ended result => cases hstage
    | _ => cases hanswer
  | _ => cases hanswer

theorem Fits.appendHistory {name : String} {record : RecoveryRecord}
    (h : (asked (.appendHistory name record Detector.historyLimit) (some (.ok ())) p q).Fits r) :
    p.Records name record q := by
  have hserve := h.served rfl
  simp only [Plane.serve, Store.appendHistory] at hserve
  cases hread : Store.lookup Store.historyCodec p.store.history name with
  | error cause =>
    rw [hread] at hserve
    cases hserve
  | ok earlier =>
    rw [hread] at hserve
    cases hserve
    refine ⟨⟨earlier.getD [], ?_, rfl⟩, rfl, rfl, rfl⟩
    simp only [Store.listHistory]
    rw [hread]
    rfl

end Turn

namespace Program

open Turn

variable {α : Type} {turns : List Turn} {a : α}

/-- A program that only asks the outside. -/
theorem isHeard_interpret {E : Type → Type} {answer : ∀ {δ : Type}, E δ → Detection δ}
    (hanswer : ∀ {δ : Type} (e : E δ) (turns : List Turn) (b : δ),
      (answer e).Makes turns b → ∀ turn ∈ turns, turn.IsHeard) {p : Program E α}
    (h : (p.interpret answer).Makes turns a) : ∀ turn ∈ turns, turn.IsHeard := by
  induction p generalizing turns with
  | done a =>
    obtain ⟨rfl, -⟩ := h
    exact fun _ hturn => absurd hturn List.not_mem_nil
  | call e k ih =>
    obtain ⟨first, rest, b, rfl, hfirst, hrest⟩ := makes_bind.mp h
    intro turn hturn
    rcases List.mem_append.mp hturn with hmem | hmem
    · exact hanswer e first b hfirst turn hmem
    · exact ih b hrest turn hmem

end Program

namespace Detector

open Turn

variable {d : Detector} {spec updated : TaskSpec} {r : Option Registry} {turns : List Turn}
  {α β : Type}

theorem makes_askOutside {e : OutsideCall α} {a : α} :
    (askOutside e).Makes turns a ↔ turns = [heard e a] := by
  constructor
  · rintro ⟨answer, _, rfl, rfl, rfl⟩
    rfl
  · rintro rfl
    exact ⟨a, [], rfl, rfl, rfl⟩

/-- A program asks the plane: in vain at first, and then with an answer. -/
theorem makes_ask_vain {e : PlaneCall β} {f : β → Detection α} {a : α}
    (h : (ask e >>= f).Makes turns a) (hfit : AllFit r turns) :
    ∃ stalls answer p q rest, turns = stalls ++ asked e (some answer) p q :: rest ∧
      (∀ turn ∈ stalls, turn.Vain) ∧ (asked e (some answer) p q).Fits r ∧
      (f answer).Makes rest a ∧ AllFit (held r (asked e (some answer) p q)) rest := by
  obtain ⟨stalls, answer, p, q, rest, rfl, hk⟩ := h
  refine ⟨_, answer, p, q, rest, rfl, ?_⟩
  induction stalls with
  | nil => exact ⟨fun _ hturn => absurd hturn List.not_mem_nil, hfit.1, hk, hfit.2⟩
  | cons stall stalls ih =>
    obtain ⟨⟨-, stage, -, hanswer, hplane⟩, hrest⟩ := hfit
    obtain ⟨hvain, hlast⟩ := ih hrest
    have halike : stall.1.Alike stall.2 := hplane ▸ Plane.alike_of_unanswered hanswer
    exact ⟨List.forall_mem_cons.mpr ⟨halike, hvain⟩, hlast⟩

/-- What is asked in vain neither changes nor locks anything. -/
theorem makes_ask {e : PlaneCall β} {f : β → Detection α} {a : α}
    (h : (ask e >>= f).Makes turns a) (hfit : AllFit r turns) :
    ∃ stalls answer p q rest, turns = stalls ++ asked e (some answer) p q :: rest ∧
      (∀ turn ∈ stalls, turn.Quiet) ∧ stalls.filterMap locked? = [] ∧
      (asked e (some answer) p q).Fits r ∧ (f answer).Makes rest a ∧
      AllFit (held r (asked e (some answer) p q)) rest := by
  obtain ⟨stalls, answer, p, q, rest, rfl, hvain, hlast⟩ := makes_ask_vain h hfit
  exact ⟨stalls, answer, p, q, rest, rfl, fun turn hturn => quiet_of_vain (hvain turn hturn),
    locked?_of_vain hvain, hlast⟩

/-- Collecting metrics only asks the outside. -/
theorem isHeard_collect {result : Except MetricsError RecoveryRequest}
    (h : (d.collect spec).Makes turns result) : ∀ turn ∈ turns, turn.IsHeard := by
  refine Program.isHeard_interpret (fun e turns b he => ?_) h
  cases e with
  | _ =>
    obtain rfl := makes_askOutside.mp he
    exact List.forall_mem_singleton.mpr trivial

/-- The advisor is asked once. -/
theorem makes_consult {e : Advisor.Endpoint α β} {input : α} {result : Except AdvisorError β}
    (h : (d.consult e input).Makes turns result) :
    ∃ outcome, turns = [heard (.advise (d.advisor.request e input)) outcome] ∧
      result = Advisor.readResult e.result outcome := by
  obtain ⟨outcome, _, rfl, rfl, rfl⟩ := h
  exact ⟨outcome, rfl, rfl⟩

/-- A recommendation is what the advisor replied, or what went wrong with
    the metrics or with the advisor; only the outside is asked. -/
theorem makes_recommendation {result : Except DetectorError Recommendation}
    (h : (d.recommendation spec).Makes turns result) :
    (∀ turn ∈ turns, turn.IsHeard) ∧
    ((∃ cause, result = .error (.metrics cause)) ∨ (∃ cause, result = .error (.advisor cause)) ∨
    ∃ recommended request outcome, result = .ok recommended ∧
      heard (.advise (d.advisor.request Advisor.recovery request)) outcome ∈ turns ∧
      Advisor.readResult Advisor.recovery.result outcome = .ok recommended) := by
  obtain ⟨first, rest, collected, rfl, hcollect, hrest⟩ := Program.makes_bind.mp h
  have hfirst := isHeard_collect hcollect
  cases collected with
  | error cause =>
    obtain ⟨rfl, rfl⟩ := hrest
    rw [List.append_nil]
    exact ⟨hfirst, .inl ⟨cause, rfl⟩⟩
  | ok request =>
    obtain ⟨advice, hconsult, rfl⟩ := Program.makes_map.mp hrest
    obtain ⟨outcome, rfl, hadvice⟩ := makes_consult hconsult
    refine ⟨List.forall_mem_append.mpr ⟨hfirst, List.forall_mem_singleton.mpr trivial⟩, ?_⟩
    cases advice with
    | error cause => exact .inr (.inl ⟨cause, rfl⟩)
    | ok recommended =>
      refine .inr (.inr ⟨recommended, request, outcome, rfl, ?_, hadvice.symm⟩)
      exact List.mem_append_right _ List.mem_cons_self

/-- A program releases the registry and ends. -/
theorem makes_release {contents : Registry} {a b : α}
    (h : (ask (.unlockRegistry contents) >>= fun _ => pure a).Makes turns b)
    (hfit : AllFit r turns) :
    b = a ∧ turns.filterMap locked? = [] ∧
    ∃ waiting p, turns = waiting ++ [asked (.unlockRegistry contents) (some ()) p
        { p with registry := contents, locked := false }] ∧
      (∀ turn ∈ waiting, turn.Quiet) ∧ ∀ registry, r = some registry → p.registry = registry := by
  obtain ⟨waiting, answer, p, q, rest, rfl, hwaiting, hlocked, hfits, ⟨rfl, rfl⟩, -⟩ :=
    makes_ask h hfit
  obtain rfl := hfits.unlockRegistry
  refine ⟨rfl, ?_, waiting, p, rfl, hwaiting, hfits.1⟩
  rw [List.filterMap_append, hlocked]
  rfl

/-- To release the registry as it was found changes nothing. -/
theorem quiet_of_release {registry : Registry} {a b : α}
    (h : (ask (.unlockRegistry registry) >>= fun _ => pure a).Makes turns b)
    (hfit : AllFit (some registry) turns) : ∀ turn ∈ turns, turn.Quiet := by
  obtain ⟨-, -, waiting, p, rfl, hwaiting, hregistry⟩ := makes_release h hfit
  refine List.forall_mem_append.mpr ⟨hwaiting, List.forall_mem_singleton.mpr ?_⟩
  exact ⟨(hregistry registry rfl).symm, rfl, rfl, rfl⟩

/-- A program locks the registry, and goes on with what it finds in it. -/
theorem makes_lock {f : Registry → Detection α} {a : α}
    (h : (ask .lockRegistry >>= f).Makes turns a) (hfit : AllFit r turns) :
    ∃ asking rest registry, turns = asking ++ rest ∧ (∀ turn ∈ asking, turn.Quiet) ∧
      asking.filterMap locked? = [registry] ∧ (f registry).Makes rest a ∧
      AllFit (some registry) rest := by
  obtain ⟨waiting, registry, p, q, rest, rfl, hwaiting, hlocked, hlock, hthen, hfit⟩ :=
    makes_ask h hfit
  obtain ⟨rfl, halike⟩ := hlock.lockRegistry
  have hheld : held r (asked .lockRegistry (some p.registry) p q) = some p.registry :=
    congrArg some halike.registry
  rw [hheld] at hfit
  refine ⟨waiting ++ [asked .lockRegistry (some p.registry) p q], rest, p.registry,
    List.append_cons .., ?_, ?_, hthen, hfit⟩
  · exact List.forall_mem_append.mpr ⟨hwaiting, List.forall_mem_singleton.mpr halike⟩
  · rw [List.filterMap_append, hlocked]
    rfl

/-! ## Handing a spec over -/

/-- Queue a spec while holding the registry, and release the registry with
    other contents; or with the ones that were found, if the queue is closed. -/
def handOver (registry contents : Registry) (spec : TaskSpec) (a : α) :
    Detection (Except DetectorError α) := do
  match ← ask (.enqueue spec) with
  | .closed =>
    ask (.unlockRegistry registry)
    return .error .queueClosed
  | .accepted =>
    ask (.unlockRegistry contents)
    return .ok a

/-- The turns of a hand-over that went through: in one of them the spec is
    queued, in the last one the registry gets its new contents. -/
inductive HandsOver (registry contents : Registry) (spec : TaskSpec) : List Turn → Prop
  | intro {asking waiting : List Turn} {p p' q : Plane}
    (found : p.registry = registry)
    (queues : p.Queues spec p')
    (kept : q.registry = registry)
    (quiet : ∀ turn ∈ asking ++ waiting, turn.Quiet) :
    HandsOver registry contents spec (asking ++ .asked (.enqueue spec) (some .accepted) p p' ::
      (waiting ++ [.asked (.unlockRegistry contents) (some ()) q
        { q with registry := contents, locked := false }]))

theorem HandsOver.after {registry contents : Registry} {first rest : List Turn}
    (h : HandsOver registry contents spec rest) (hfirst : ∀ turn ∈ first, turn.Quiet) :
    HandsOver registry contents spec (first ++ rest) := by
  obtain ⟨found, queues, kept, quiet⟩ := h
  rw [← List.append_assoc]
  refine .intro found queues kept ?_
  rw [List.append_assoc]
  exact List.forall_mem_append.mpr ⟨hfirst, quiet⟩

/-- A hand-over goes through, or finds the queue closed and leaves all as it was. -/
theorem makes_handOver {registry contents : Registry} {a : α} {result : Except DetectorError α}
    (h : (handOver registry contents spec a).Makes turns result)
    (hfit : AllFit (some registry) turns) :
    turns.filterMap locked? = [] ∧
    (result = .error .queueClosed ∧ (∀ turn ∈ turns, turn.Quiet) ∨
      result = .ok a ∧ HandsOver registry contents spec turns) := by
  obtain ⟨asking, answer, p, q, rest, rfl, hasking, hlocked, henqueue, hthen, hfit⟩ :=
    makes_ask h hfit
  have hregistry : p.registry = registry := henqueue.1 registry rfl
  rw [List.filterMap_append, hlocked]
  cases answer with
  | closed =>
    have halike := henqueue.enqueue_closed
    have hheld : held (some registry) (asked (.enqueue spec) (some .closed) p q)
        = some registry := congrArg some (halike.registry.trans hregistry)
    rw [hheld] at hfit
    obtain ⟨rfl, hlast, -⟩ := makes_release hthen hfit
    refine ⟨hlast, .inl ⟨rfl, List.forall_mem_append.mpr ⟨hasking, ?_⟩⟩⟩
    exact List.forall_mem_cons.mpr ⟨halike, quiet_of_release hthen hfit⟩
  | accepted =>
    have hqueues := henqueue.enqueue_accepted
    have hheld : held (some registry) (asked (.enqueue spec) (some .accepted) p q)
        = some registry := congrArg some (hqueues.registry.trans hregistry)
    rw [hheld] at hfit
    obtain ⟨rfl, hlast, waiting, q', rfl, hwaiting, hkept⟩ := makes_release hthen hfit
    refine ⟨hlast, .inr ⟨rfl, ?_⟩⟩
    exact .intro hregistry hqueues (hkept registry rfl)
      (List.forall_mem_append.mpr ⟨hasking, hwaiting⟩)

/-! ## Installing a spec -/

/-- The turns of an installation that went through: in one of them the spec
    is queued, in the last one it replaces the entry. -/
inductive Installs (spec updated : TaskSpec) : List Turn → Prop
  | intro {asking waiting : List Turn} {p p' q q' : Plane} {contents : Registry}
    (there : p.registry.Has spec)
    (queues : p.Queues updated p')
    (kept : q.registry = p.registry)
    (replaces : q.Replaces spec.name updated q')
    (quiet : ∀ turn ∈ asking ++ waiting, turn.Quiet) :
    Installs spec updated (asking ++ .asked (.enqueue updated) (some .accepted) p p' ::
      (waiting ++ [.asked (.unlockRegistry contents) (some ()) q q']))

theorem replaces_setSpec {name : String} {p : Plane} {registry : Registry}
    (h : p.registry = registry) :
    p.Replaces name updated
      { p with registry := registry.setSpec name updated, locked := false } where
  entry := by
    show (Dict.modify registry name _).get? name = _
    rw [Dict.get?_modify, if_pos rfl, h]
  others := by
    intro other hother
    show (Dict.modify registry name _).get? other = _
    rw [Dict.get?_modify, if_neg hother, h]
  queue := rfl
  store := rfl

/-- A spec that was in the registry was handed over in exchange for another. -/
theorem HandsOver.installs {registry : Registry}
    (h : HandsOver registry (registry.setSpec spec.name updated) updated turns)
    (hhas : registry.Has spec) : Installs spec updated turns := by
  obtain ⟨found, queues, kept, quiet⟩ := h
  exact .intro (found.symm ▸ hhas) queues (kept.trans found.symm) (replaces_setSpec kept) quiet

/-- An installation finds its spec in the registry or not, and changes
    nothing unless both the queue and the registry take the new one. -/
theorem makes_install {result : Except DetectorError Bool}
    (h : (install spec updated).Makes turns result) (hfit : AllFit r turns) :
    ∃ registry, turns.filterMap locked? = [registry] ∧
      ((result = .ok false ∧ ¬ registry.Has spec ∧ ∀ turn ∈ turns, turn.Quiet) ∨
      (result = .error .queueClosed ∧ registry.Has spec ∧ ∀ turn ∈ turns, turn.Quiet) ∨
      (result = .ok true ∧ registry.Has spec ∧ Installs spec updated turns)) := by
  obtain ⟨asking, rest, registry, rfl, hquiet, hlocked, hthen, hfit⟩ := makes_lock h hfit
  refine ⟨registry, ?_⟩
  rw [List.filterMap_append, hlocked]
  by_cases hthere : (registry.get? spec.name).any (·.spec.eqv spec) = true
  · rw [if_pos hthere] at hthen
    have hhas := Registry.has_iff.mp hthere
    obtain ⟨hlast, ⟨rfl, hrest⟩ | ⟨rfl, hhands⟩⟩ := makes_handOver hthen hfit
    · refine ⟨?_, .inr (.inl ⟨rfl, hhas, List.forall_mem_append.mpr ⟨hquiet, hrest⟩⟩)⟩
      rw [hlast]
      rfl
    · refine ⟨?_, .inr (.inr ⟨rfl, hhas, (hhands.after hquiet).installs hhas⟩)⟩
      rw [hlast]
      rfl
  · rw [if_neg hthere] at hthen
    obtain ⟨rfl, hlast, -⟩ := makes_release hthen hfit
    have hrest := quiet_of_release hthen hfit
    refine ⟨?_, .inl ⟨rfl, fun hhas => hthere (Registry.has_iff.mpr hhas), ?_⟩⟩
    · rw [hlast]
      rfl
    · exact List.forall_mem_append.mpr ⟨hquiet, hrest⟩

/-- The turns by which a change of a task is put on record: the clock is
    read, and then the record is put in front of the history. -/
inductive Files (name : String) (recommended previous : Recommendation) : List Turn → Prop
  | intro {stamping : List Turn} {now : Instant} {p q : Plane}
    (clock : .heard .now now ∈ stamping)
    (records : p.Records name ⟨.ofInt now.millis, true, recommended, previous⟩ q)
    (quiet : ∀ turn ∈ stamping, turn.Quiet) :
    Files name recommended previous (stamping ++ [.asked (.appendHistory name
      ⟨.ofInt now.millis, true, recommended, previous⟩ historyLimit) (some (.ok ())) p q])

/-- A recovery ends with its record, unless the store fails. -/
theorem makes_filing {recommended previous : Recommendation}
    {result : Except DetectorError (Option TaskSpec)}
    (h : (show Detection (Except DetectorError (Option TaskSpec)) from do
        let record : RecoveryRecord :=
          ⟨.ofInt (← askOutside .now).millis, true, recommended, previous⟩
        match ← ask (.appendHistory spec.name record historyLimit) with
        | .error cause => return .error (.store cause)
        | .ok () => return .ok (some updated)).Makes turns result) (hfit : AllFit r turns) :
    turns.filterMap locked? = [] ∧ ((∃ cause, result = .error (.store cause)) ∨
      result = .ok (some updated) ∧ Files spec.name recommended previous turns) := by
  obtain ⟨now, rest, rfl, hrecord⟩ := h
  obtain ⟨stalls, answer, p, q, rest, rfl, hstalls, hlocked, hfits, hend, -⟩ :=
    makes_ask hrecord hfit.2
  have hnone : (stalls ++ asked (.appendHistory spec.name
      ⟨.ofInt now.millis, true, recommended, previous⟩ historyLimit) (some answer) p q ::
      rest).filterMap locked? = rest.filterMap locked? := by
    rw [List.filterMap_append, hlocked]
    rfl
  cases answer with
  | error cause =>
    obtain ⟨rfl, rfl⟩ := hend
    exact ⟨hnone, .inl ⟨cause, rfl⟩⟩
  | ok =>
    obtain ⟨rfl, rfl⟩ := hend
    refine ⟨hnone, .inr ⟨rfl, .intro List.mem_cons_self hfits.appendHistory ?_⟩⟩
    exact List.forall_mem_cons.mpr ⟨trivial, hstalls⟩

/-! ## Recoveries as a whole -/

/-- The turns of a recovery that went through.  The spec that is queued is
    the old one with the advisor's reply applied; it is queued while the
    registry has the old one, replaces it there, and one record of the
    change is put in front of the history.  Nothing else happens. -/
inductive Recovered (d : Detector) (spec updated : TaskSpec) : List Turn → Prop
  | intro {asking installing filing : List Turn} {recommended previous : Recommendation}
    {request : RecoveryRequest} {outcome : HttpOutcome}
    (advised : .heard (.advise (d.advisor.request Advisor.recovery request)) outcome ∈ asking)
    (reply : Advisor.readResult Advisor.recovery.result outcome = .ok recommended)
    (applied : updated = spec.apply recommended)
    (replaced : spec.currentConfig = some previous)
    (quiet : ∀ turn ∈ asking, turn.Quiet)
    (installs : Installs spec updated installing)
    (files : Files spec.name recommended previous filing) :
    Recovered d spec updated (asking ++ (installing ++ filing))

/-- All or nothing: what the result of a recovery says about its turns.  A
    recovery that the store failed is not looked at. -/
structure AllOrNothing (d : Detector) (spec : TaskSpec) (turns : List Turn)
    (result : Except DetectorError (Option TaskSpec)) : Prop where
  all : ∀ updated, result = .ok (some updated) → Recovered d spec updated turns
  dropped : result = .ok none ↔ ∃ registry ∈ turns.filterMap locked?, ¬ registry.Has spec
  nothing : result = .ok none ∨ (∃ cause, result = .error cause ∧ ∀ e, cause ≠ .store e) →
    ∀ turn ∈ turns, turn.Quiet

/-- A recovery that never came to the registry. -/
theorem allOrNothing_of_unasked {cause : DetectorError} (hlocked : turns.filterMap locked? = [])
    (hquiet : ∀ turn ∈ turns, turn.Quiet) : AllOrNothing d spec turns (.error cause) where
  all := fun _ h => by cases h
  dropped := by
    rw [hlocked]
    refine ⟨by rintro ⟨⟩, ?_⟩
    rintro ⟨registry, hregistry, -⟩
    exact absurd hregistry List.not_mem_nil
  nothing := fun _ => hquiet

/-- A recovery that found another spec, or none. -/
theorem allOrNothing_of_missed {registry : Registry}
    (hlocked : turns.filterMap locked? = [registry]) (hmissing : ¬ registry.Has spec)
    (hquiet : ∀ turn ∈ turns, turn.Quiet) : AllOrNothing d spec turns (.ok none) where
  all := fun _ h => by cases h
  dropped := by
    rw [hlocked]
    exact ⟨fun _ => ⟨registry, List.mem_singleton.mpr rfl, hmissing⟩, fun _ => rfl⟩
  nothing := fun _ => hquiet

/-- A recovery that found its spec in the registry. -/
theorem allOrNothing_of_found {result : Except DetectorError (Option TaskSpec)}
    {registry : Registry} (hlocked : turns.filterMap locked? = [registry])
    (hhas : registry.Has spec) (hresult : result ≠ .ok none)
    (hall : ∀ updated, result = .ok (some updated) → Recovered d spec updated turns)
    (hnothing : (∃ cause, result = .error cause ∧ ∀ e, cause ≠ .store e) →
      ∀ turn ∈ turns, turn.Quiet) : AllOrNothing d spec turns result where
  all := hall
  dropped := by
    rw [hlocked]
    refine ⟨fun h => absurd h hresult, ?_⟩
    rintro ⟨found, hfound, hmissing⟩
    rw [List.mem_singleton.mp hfound] at hmissing
    exact absurd hhas hmissing
  nothing := fun h => hnothing (h.resolve_left hresult)

/-- Turns that fit the plane and make up a recovery are all or nothing. -/
theorem allOrNothing_of_makes {result : Except DetectorError (Option TaskSpec)}
    (h : (d.recover spec).Makes turns result) (hfit : AllFit r turns) :
    AllOrNothing d spec turns result := by
  simp only [recover] at h
  cases hconfig : spec.currentConfig with
  | none =>
    rw [hconfig] at h
    obtain ⟨rfl, rfl⟩ := h
    exact allOrNothing_of_unasked rfl fun _ hturn => absurd hturn List.not_mem_nil
  | some previous =>
    rw [hconfig] at h
    obtain ⟨asking, later, advice, rfl, hadvice, hlater⟩ := Program.makes_bind.mp h
    obtain ⟨hheard, hadvice⟩ := makes_recommendation hadvice
    have hasking : ∀ turn ∈ asking, turn.Quiet :=
      fun turn hturn => quiet_of_isHeard (hheard turn hturn)
    have hunlocked : asking.filterMap locked? = [] := locked?_of_isHeard hheard
    rcases hadvice with
      ⟨cause, rfl⟩ | ⟨cause, rfl⟩ | ⟨recommended, request, outcome, rfl, hadvised, hreply⟩
    · obtain ⟨rfl, rfl⟩ := hlater
      rw [List.append_nil]
      exact allOrNothing_of_unasked hunlocked hasking
    · obtain ⟨rfl, rfl⟩ := hlater
      rw [List.append_nil]
      exact allOrNothing_of_unasked hunlocked hasking
    obtain ⟨installing, filing, installed, rfl, hinstall, hfiling⟩ := Program.makes_bind.mp hlater
    obtain ⟨hfit, hfitFiling⟩ := allFit_append.mp (allFit_append.mp hfit).2
    obtain ⟨registry, hregistry, hinstalled⟩ := makes_install hinstall hfit
    -- the registry is locked once, by the installation
    have honce : filing.filterMap locked? = [] →
        (asking ++ (installing ++ filing)).filterMap locked? = [registry] := by
      intro hnone
      rw [List.filterMap_append, List.filterMap_append, hunlocked, hregistry, hnone]
      rfl
    rcases hinstalled with ⟨rfl, hhas, hquiet⟩ | ⟨rfl, hhas, hquiet⟩ | ⟨rfl, hhas, hinstalls⟩
    · obtain ⟨rfl, rfl⟩ := hfiling
      refine allOrNothing_of_missed (honce rfl) hhas ?_
      rw [List.append_nil]
      exact List.forall_mem_append.mpr ⟨hasking, hquiet⟩
    · obtain ⟨rfl, rfl⟩ := hfiling
      refine allOrNothing_of_found (honce rfl) hhas (by rintro ⟨⟩) (by rintro _ ⟨⟩)
        fun _ => ?_
      rw [List.append_nil]
      exact List.forall_mem_append.mpr ⟨hasking, hquiet⟩
    · obtain ⟨hnone, ⟨cause, rfl⟩ | ⟨rfl, hfiles⟩⟩ := makes_filing hfiling hfitFiling
      · refine allOrNothing_of_found (honce hnone) hhas (by rintro ⟨⟩)
          (by rintro _ ⟨⟩) ?_
        rintro ⟨_, ⟨⟩, hstore⟩
        exact absurd rfl (hstore cause)
      · refine allOrNothing_of_found (honce hnone) hhas (by rintro ⟨⟩) ?_ ?_
        · rintro _ ⟨⟩
          exact .intro hadvised hreply rfl hconfig hasking hinstalls hfiles
        · rintro ⟨_, h, -⟩
          cases h

end Detector

namespace Schedule

/-- Whatever else is under way, and however it is interleaved: a recovery
    that is not given up is all or nothing. -/
theorem recover_all_or_nothing (d : Detector) (capacity : Nat) (earlier later : List Action)
    (i : Nat) (spec : TaskSpec) (hfree : (run d capacity earlier).activities i = none)
    (hown : ∀ action ∈ later, action.replaces i = false) :
    let s := (run d capacity earlier).step d (.begin i (.recover spec))
    let turns := s.turns d i later
    ((later.foldl (step d) s).activities i = none →
      ∃! result, (d.recover spec).Makes turns result) ∧
    ∀ result, (d.recover spec).Makes turns result → d.AllOrNothing spec turns result := by
  intro s turns
  have hsound : s.Sound := (sound_run d capacity earlier).step d _
  have hi : s.activities i
      = some ⟨.recover spec, (Request.recover spec).program d, false, .arrived⟩ := by
    show (step d _ _).activities i = _
    simp only [step]
    rw [hfree]
    exact Function.update_self ..
  have hholds : s.Holds i none := ⟨_, hi, rfl, by rintro _ ⟨⟩⟩
  refine ⟨fun hover => ?_, fun result hresult => ?_⟩
  · obtain ⟨result, hresult⟩ := makes_turns (leaves_recover spec hfree) hown hover
    exact ⟨result, hresult, fun other hother => Program.makes_unique hother hresult⟩
  · exact Detector.allOrNothing_of_makes hresult (hsound.allFit_turns d hholds hown)

/-- An outside without metrics, whose advisor leaves all open and asks for no replicas. -/
def dismissive : {β : Type} → OutsideCall β → β
  | _, .isRunning _ => .ok true
  | _, .instances _ => .ok []
  | _, .now => ⟨1700000000, 0⟩
  | _, .gather _ => []
  | _, .advise _ => .ok ⟨200, "\x7b\"result\": \x7b\x7d\x7d"⟩
  | _, .report .. => .ok ()

/-- A detector whose servers are as good as any. -/
def watchful : Detector := ⟨⟨⟨"metrics"⟩, ⟨0, 0⟩, "1m"⟩, ⟨"advisor"⟩, false⟩

/-- A task with two replicas. -/
def pair : TaskSpec := { TaskSpec.blank with name := "chat", model := "model", replica := 2 }

/-- The task is deployed, and taken from the queue. -/
def deployed : List Action :=
  .begin 0 (.deploy pair) :: List.replicate 7 (.advance 0 dismissive)
    ++ [.take true, .consume, .consume]

/-- The task is to be deleted while its recovery holds the registry. -/
def raced : List Action :=
  List.replicate 5 (.advance 1 dismissive) ++ [.begin 2 (.delete "chat"), .advance 2 dismissive]
    ++ List.replicate 8 (.advance 1 dismissive) ++ List.replicate 4 (.advance 2 dismissive)

/-- The recovery under way. -/
def recovering : Schedule := (run watchful 1 deployed).step watchful (.begin 1 (.recover pair))

/-- The recovery goes through; the delete, which has to wait, then takes
    the recovered task away. -/
theorem recover_all_or_nothing_of_waiting_delete :
    (run watchful 1 deployed).activities 1 = none ∧
    (∀ action ∈ raced, action.replaces 1 = false) ∧
    (raced.foldl (step watchful) recovering).plane.registry.get? "chat" = none ∧
    ∃ updated, (watchful.recover pair).Makes (recovering.turns watchful 1 raced)
        (.ok (some updated)) ∧
      updated.replica = 0 ∧
      watchful.Recovered pair updated (recovering.turns watchful 1 raced) := by
  have hfree : (run watchful 1 deployed).activities 1 = none := rfl
  have hown : ∀ action ∈ raced, action.replaces 1 = false := by decide
  have hmakes : ∃ updated, (watchful.recover pair).Makes (recovering.turns watchful 1 raced)
      (.ok (some updated)) ∧ updated.replica = 0 :=
    -- the clock, the metrics and the advisor answer; of the calls to the
    -- plane only the append has to wait, three times
    ⟨_, ⟨_, _, rfl, _, _, rfl, _, _, rfl, [], _, _, _, _, rfl, [(_, _), (_, _), (_, _)], _, _, _, _,
      rfl, [], _, _, _, _, rfl, _, _, rfl, [], _, _, _, _, rfl, rfl, rfl⟩, rfl⟩
  obtain ⟨updated, hmakes, hreplica⟩ := hmakes
  have hall := (recover_all_or_nothing watchful 1 deployed raced 1 pair hfree hown).2 _ hmakes
  exact ⟨hfree, hown, rfl, updated, hmakes, hreplica, hall.all updated rfl⟩

end Schedule

end ServingPlane
