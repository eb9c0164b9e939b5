import ServingPlane.Plane
import ServingPlane.Proofs.Detector.Discipline
import ServingPlane.Proofs.Queue.Tickets
import ServingPlane.Proofs.Store.Records

/-! # Schedules of the control plane

    Any number of requests to the detector are under way beside the one
    consumer of the queue.  A schedule lets any of them go one step on, in
    any order, with any answers from the outside; a request may be given
    up wherever it waits for something.  An append that a request makes
    goes on in its own steps, so that it may stand before the queue while
    others act. -/

namespace ServingPlane

/-- An order in which a cycle visits the registered tasks, each of them once. -/
structure Walk where
  order : Registry → List TaskSpec
  all : ∀ registry, (order registry).Perm registry.specs

/-- What callers ask of the detector.  Each cycle has an order of its own. -/
inductive Request where
  | deploy (spec : TaskSpec)
  | delete (name : String)
  | recover (spec : TaskSpec)
  | detectOnce (walk : Walk)
  | describe (name : String)
  | isRunning (spec : TaskSpec)

namespace Request

/-- The program that serves a request. -/
def program (d : Detector) : Request → Detection Unit
  | deploy spec => do let _ ← d.deploy spec
  | delete name => do let _ ← Detector.delete name
  | recover spec => do let _ ← d.recover spec
  | detectOnce walk => d.detectWalking walk.order
  | describe name => do let _ ← Detector.describe name
  | isRunning spec => do let _ ← Detector.isTaskRunning spec

/-- The tasks that a request may enter into the registry. -/
def Admits : Request → String → Prop
  | deploy spec, name => name = spec.name
  | _, _ => False

theorem orderly_program (d : Detector) (request : Request) :
    (request.program d).Orderly request.Admits .free := by
  cases request with
  | deploy spec => exact Detector.orderly_deploy.bind fun _ => rfl
  | delete name => exact (Detector.orderly_delete name).bind fun _ => rfl
  | recover spec => exact Detector.orderly_recover.bind fun _ => rfl
  | detectOnce walk => exact Detector.orderly_detectWalking walk.order
  | describe name => exact (Detector.orderly_describe name).bind fun _ => rfl
  | isRunning spec => exact Detector.orderly_isTaskRunning.bind fun _ => rfl

end Request

/-- The result of an append that has ended. -/
def AppendStage.result? : AppendStage → Option AppendResult
  | .ended result => some result
  | _ => none

/-- What a call comes to for now: an answer, or none as yet. -/
structure Served (β : Type) where
  answer : Option β
  /-- How far an append has come by it. -/
  stage : AppendStage
  plane : Plane
  /-- The spec whose append took effect by it, if one did. -/
  accepted : List TaskSpec

/-- Serve a call as far as it can go on in one step. -/
def Plane.attempt (p : Plane) (stage : AppendStage) : {β : Type} → PlaneCall β → Served β
  | _, .enqueue spec =>
    let (after, queue) := p.queue.advance spec stage
    ⟨after.result?, after, { p with queue }, if stage.takesEffect after then [spec] else []⟩
  | _, call =>
    match p.serve call with
    | some (answer, plane) => ⟨some answer, .arrived, plane, []⟩
    | none => ⟨none, .arrived, p, []⟩

/-- Whether a call is an append, which takes several steps. -/
def PlaneCall.isAppend : {β : Type} → PlaneCall β → Bool
  | _, .enqueue _ => true
  | _, _ => false

section Attempt

variable {β : Type} {p plane : Plane} {stage : AppendStage} {e : PlaneCall β} {answer : β}

/-- Any other call is served or has to wait. -/
theorem Plane.attempt_of_serve_eq_none (he : e.isAppend = false) (h : p.serve e = none) :
    p.attempt stage e = ⟨none, .arrived, p, []⟩ := by
  cases e with
  | enqueue => exact nomatch he
  | _ => simp only [attempt, h]

theorem Plane.attempt_of_serve_eq_some (he : e.isAppend = false)
    (h : p.serve e = some (answer, plane)) :
    p.attempt stage e = ⟨some answer, .arrived, plane, []⟩ := by
  cases e with
  | enqueue => exact nomatch he
  | _ => simp only [attempt, h]

/-- A longer history is put on record or not; nothing else changes. -/
theorem Plane.serve_appendHistory (p : Plane) (task : String) (record : RecoveryRecord)
    (limit : Nat) : ∃ answer store, p.serve (.appendHistory task record limit)
      = some (answer, { p with store }) ∧ store.containers = p.store.containers := by
  dsimp only [Plane.serve]
  cases hstore : p.store.appendHistory task record limit with
  | error cause => exact ⟨_, p.store, rfl, rfl⟩
  | ok store => exact ⟨_, store, rfl, Store.containers_appendHistory hstore⟩

end Attempt

/-- Whether a program holds the registry after a call. -/
def PlaneCall.holds : {β : Type} → PlaneCall β → Bool → Bool
  | _, .lockRegistry, _ => true
  | _, .unlockRegistry _, _ => false
  | _, _, holds => holds

/-- Whether a program can be given up before a call.  Those that never wait
    for anybody are made in one go with what comes before them. -/
def DetectorCall.awaits : {β : Type} → DetectorCall β → Bool
  | _, .inl (.unlockRegistry _) => false
  | _, .inl (.appendHistory ..) => false
  | _, .inl (.listHistory _) => false
  | _, .inr .now => false
  | _, _ => true

/-- A request under way. -/
structure Activity where
  request : Request
  /-- What is left to do. -/
  program : Detection Unit
  /-- It holds the registry. -/
  holds : Bool
  /-- How far its append has come, if one is what it does next. -/
  stage : AppendStage

namespace Activity

/-- The append that comes next, if one does. -/
def append (a : Activity) : Option (TaskSpec × AppendStage) :=
  match a.program with
  | .call (.inl (.enqueue spec)) _ => some (spec, a.stage)
  | _ => none

/-- Whether it can be given up now. -/
def awaits (a : Activity) : Bool :=
  match a.program with
  | .call e _ => DetectorCall.awaits e
  | .done _ => false

/-- The plane once a request was given up: it leaves the queue, and
    releases the registry if it holds it. -/
def leave (a : Activity) (p : Plane) : Plane :=
  let queue :=
    match a.append with
    | some (_, stage) => p.queue.giveUp stage
    | none => p.queue
  if a.holds then { p with queue }.release else { p with queue }

theorem unlisted_append {a : Activity} (h : a.stage = .arrived) :
    TaskQueue.Unlisted a.append := by
  simp only [append]
  split
  · rw [h]
    exact TaskQueue.unlisted_some rfl
  · exact TaskQueue.unlisted_none

end Activity

/-- The control plane with the requests under way and the consumer. -/
structure Schedule where
  plane : Plane
  activities : Nat → Option Activity
  consumer : Consumer
  /-- The specs whose appends took effect, oldest first. -/
  accepted : List TaskSpec

namespace Schedule

/-- What may happen next. -/
inductive Action where
  /-- A request arrives. -/
  | begin (i : Nat) (request : Request)
  /-- A request goes one step on; what it may ask of the outside is answered so. -/
  | advance (i : Nat) (outside : ∀ {β : Type}, OutsideCall β → β)
  /-- A request is given up. -/
  | abandon (i : Nat)
  /-- The consumer asks for a spec. -/
  | take (waits : Bool)
  /-- The consumer goes one step on. -/
  | consume
  /-- The consumer gives up what it asked for. -/
  | abandonTake
  /-- The consumer goes away. -/
  | close
  /-- Somebody else writes the store. -/
  | write (store : Store)

/-- Nothing registered, queued, recorded or under way. -/
def start (capacity : Nat) : Schedule := ⟨.new capacity, fun _ => none, .idle, []⟩

/-- Put down how far a request has come, or that it is over. -/
def put (s : Schedule) (i : Nat) (activity : Option Activity) : Schedule :=
  { s with activities := Function.update s.activities i activity }

/-- A request goes on with what its call came to. -/
def resume {β : Type} (s : Schedule) (i : Nat) (a : Activity) (e : PlaneCall β)
    (k : β → Detection Unit) (served : Served β) : Schedule :=
  let next := { s with plane := served.plane, accepted := s.accepted ++ served.accepted }
  match served.answer with
  | none => next.put i (some { a with stage := served.stage })
  | some b =>
    next.put i (some { a with program := k b, holds := e.holds a.holds, stage := .arrived })

/-- A request goes one step on. -/
def advance (s : Schedule) (i : Nat) (outside : ∀ {β : Type}, OutsideCall β → β) : Schedule :=
  match s.activities i with
  | none => s
  | some a =>
    match a.program with
    | .done _ => s.put i none
    | .call (.inr e) k => s.put i (some { a with program := k (outside e), stage := .arrived })
    | .call (.inl e) k => s.resume i a e k (s.plane.attempt a.stage e)

/-- A request is given up, where it can be. -/
def abandon (s : Schedule) (i : Nat) : Schedule :=
  match s.activities i with
  | none => s
  | some a => if a.awaits then { s with plane := a.leave s.plane }.put i none else s

/-- The consumer goes one step on; with what it gets by it. -/
def consume (s : Schedule) : Option PopResult × Schedule :=
  let (consumer, queue, result) := s.plane.queue.consume s.consumer
  (result, { s with plane := { s.plane with queue }, consumer })

/-- One step; what cannot happen now changes nothing. -/
def step (d : Detector) (s : Schedule) : Action → Schedule
  | .begin i request =>
    match s.activities i with
    | none => s.put i (some ⟨request, request.program d, false, .arrived⟩)
    | some _ => s
  | .advance i outside => s.advance i outside
  | .abandon i => s.abandon i
  | .take waits =>
    match s.consumer with
    | .idle => if s.plane.queue.closed then s else { s with consumer := .receiving waits }
    | _ => s
  | .consume => s.consume.2
  | .abandonTake => { s with consumer := .idle }
  | .close => { s with plane := s.plane.closeQueue, consumer := .idle }
  | .write store => { s with plane := { s.plane with store } }

/-- Any number of steps from nothing. -/
def run (d : Detector) (capacity : Nat) (actions : List Action) : Schedule :=
  actions.foldl (step d) (start capacity)

/-- The appends of the requests under way. -/
def appends (s : Schedule) : Nat → Option (TaskSpec × AppendStage) :=
  (Option.bind · Activity.append) ∘ s.activities

theorem appends_put (s : Schedule) (i : Nat) (activity : Option Activity) :
    (s.put i activity).appends = Function.update s.appends i (activity.bind Activity.append) :=
  Function.comp_update ..

end Schedule

end ServingPlane
