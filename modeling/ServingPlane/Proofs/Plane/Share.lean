import ServingPlane.Detector
import ServingPlane.Plane
import ServingPlane.Proofs.Program
import ServingPlane.Proofs.Queue.Steps
import ServingPlane.Proofs.Store.History

/-! # What belongs to one task

    Registry, queue and store hold a share of every task: its entry, the
    spec it waits with, its history.  A program is confined to a task if
    its answer, what it makes of the share, whom it asks for advice and
    what it reports all follow from the share it finds, whatever the clock
    shows, and if it touches no other share.  One program after another is
    confined again, so that what holds of the calls holds of a visit.
    A history counts up to the times of its records. -/

namespace ServingPlane

/-! ## Histories up to times -/

/-- A record, its time aside. -/
def RecoveryRecord.untimed (r : RecoveryRecord) : RecoveryRecord := { r with timestamp := 0 }

theorem RecoveryRecord.reread_untimed (r : RecoveryRecord) :
    r.untimed.reread = r.reread.map untimed := by
  simp only [reread, untimed]
  cases r.recommended.reread with
  | error fault => rfl
  | ok recommended => cases r.previous.reread <;> rfl

namespace Store

/-- The history of a task, times aside. -/
def untimedHistory (s : Store) (task : String) : Except StoreError (List RecoveryRecord) :=
  (s.listHistory task).map (·.map RecoveryRecord.untimed)

/-- What a history can be listed as once a record was put in front of it. -/
def refiled (record : RecoveryRecord) (limit : Nat) (earlier : List RecoveryRecord) :
    Except StoreError (List RecoveryRecord) :=
  (((record :: earlier).take limit).mapM RecoveryRecord.reread).mapError .undecodable

theorem mapM_reread_untimed (records : List RecoveryRecord) :
    (records.map RecoveryRecord.untimed).mapM RecoveryRecord.reread
      = (records.mapM RecoveryRecord.reread).map (·.map RecoveryRecord.untimed) := by
  induction records with
  | nil => rfl
  | cons r records ih =>
    rw [List.map_cons, List.mapM_cons, List.mapM_cons, ih, r.reread_untimed]
    cases r.reread with
    | error fault => rfl
    | ok read => cases records.mapM RecoveryRecord.reread <;> rfl

theorem refiled_untimed (record : RecoveryRecord) (limit : Nat) (earlier : List RecoveryRecord) :
    refiled record.untimed limit (earlier.map RecoveryRecord.untimed)
      = (refiled record limit earlier).map (·.map RecoveryRecord.untimed) := by
  rw [refiled, refiled, ← List.map_cons, ← List.map_take, mapM_reread_untimed]
  cases ((record :: earlier).take limit).mapM RecoveryRecord.reread <;> rfl

variable {s t : Store} {task : String} {record : RecoveryRecord} {limit : Nat}

theorem listHistory_congr (h : t.history.get? task = s.history.get? task) :
    t.listHistory task = s.listHistory task := by
  rw [listHistory, listHistory, lookup, lookup, h]

theorem listHistory_of_text {records : List RecoveryRecord}
    (h : s.history.get? task = some (historyCodec.write records).compact) :
    s.listHistory task = (records.mapM RecoveryRecord.reread).mapError .undecodable := by
  rw [listHistory, lookup, h]
  dsimp only
  rw [ofText_historyCodec]
  cases records.mapM RecoveryRecord.reread <;> rfl

/-- A record is put in front of a history that can be listed, and otherwise
    nothing happens. -/
theorem appendHistory_cases (s : Store) (task : String) (record : RecoveryRecord) (limit : Nat) :
    (∃ cause, s.listHistory task = .error cause ∧
      s.appendHistory task record limit = .error cause) ∨
    ∃ earlier t, s.listHistory task = .ok earlier ∧ s.appendHistory task record limit = .ok t ∧
      t.listHistory task = refiled record limit earlier ∧ t.containers = s.containers ∧
      ∀ other, other ≠ task → t.history.get? other = s.history.get? other := by
  rw [appendHistory_eq]
  cases s.listHistory task with
  | error cause => exact .inl ⟨cause, rfl, rfl⟩
  | ok earlier =>
    refine .inr ⟨earlier, _, rfl, rfl, listHistory_of_text (Dict.get?_insert_self ..), rfl, ?_⟩
    intro other hother
    exact Dict.get?_insert_of_ne _ _ hother

end Store

/-! ## Shares of the plane -/

/-- What of the plane belongs to one task. -/
structure Share where
  entry : Option RegisteredTask
  /-- The spec that the task waits with. -/
  waits : Option TaskSpec
  /-- Its history, times aside. -/
  history : Except StoreError (List RecoveryRecord)

namespace Plane

variable {p q r : Plane} {name : String} {names : List String}

/-- The share of a task. -/
def share (p : Plane) (name : String) : Share :=
  ⟨p.registry.get? name, p.queue.pending.get? name, p.store.untimedHistory name⟩

/-- Those of the names under which a spec waits in the second plane and none in the first. -/
def entered (p q : Plane) (names : List String) : List String :=
  names.filter fun name => !p.queue.pending.contains name && q.queue.pending.contains name

/-- Nobody holds the registry, and each of these tasks finds a free slot of
    the queue, unless it waits already or nobody will take it. -/
structure Ready (p : Plane) (names : List String) : Prop where
  free : p.locked = false
  room : p.queue.closed = false →
    (names.filter fun name => !p.queue.pending.contains name).length ≤ p.queue.freeSlots

/-- Between two states of the plane only the shares of these tasks differ;
    those that come to wait enter the channel in the order of the list, and
    none ceases to wait. -/
structure Touches (names : List String) (p q : Plane) : Prop where
  entry : ∀ other, other ∉ names → q.registry.get? other = p.registry.get? other
  locked : q.locked = p.locked
  waits : ∀ other, other ∉ names → q.queue.pending.get? other = p.queue.pending.get? other
  kept : ∀ other, p.queue.pending.contains other = true → q.queue.pending.contains other = true
  queue : q.queue =
    { p.queue with pending := q.queue.pending, channel := p.queue.channel ++ entered p q names }
  history : ∀ other, other ∉ names → q.store.history.get? other = p.store.history.get? other
  containers : q.store.containers = p.store.containers

theorem entered_self (p : Plane) (names : List String) : entered p p names = [] :=
  List.filter_eq_nil_iff.mpr fun name _ => by cases p.queue.pending.contains name <;> decide

theorem entered_singleton (p q : Plane) (name : String) : entered p q [name] =
    if !p.queue.pending.contains name && q.queue.pending.contains name then [name] else [] := by
  rw [entered, List.filter_cons, List.filter_nil]

/-- The queue is as it was. -/
theorem touches_of_queue_eq (hqueue : q.queue = p.queue) (hlocked : q.locked = p.locked)
    (hentry : ∀ other, other ∉ names → q.registry.get? other = p.registry.get? other)
    (hhistory : ∀ other, other ∉ names → q.store.history.get? other = p.store.history.get? other)
    (hcontainers : q.store.containers = p.store.containers) : Touches names p q where
  entry := hentry
  locked := hlocked
  waits _ _ := by rw [hqueue]
  kept _ h := by rwa [hqueue]
  queue := by
    have hentered : entered p q names = [] := by
      rw [entered, hqueue]
      exact entered_self p names
    rw [hentered, List.append_nil, hqueue]
  history := hhistory
  containers := hcontainers

theorem Touches.refl (names : List String) (p : Plane) : Touches names p p :=
  touches_of_queue_eq rfl rfl (fun _ _ => rfl) (fun _ _ => rfl) rfl

namespace Touches

theorem closed (h : Touches names p q) : q.queue.closed = p.queue.closed := by rw [h.queue]

theorem freeSlots (h : Touches names p q) :
    q.queue.freeSlots = p.queue.freeSlots - (entered p q names).length := by
  rw [h.queue]
  simp only [TaskQueue.freeSlots, TaskQueue.heldSlots, List.length_append]
  omega

theorem contains (h : Touches names p q) {other : String} (hother : other ∉ names) :
    q.queue.pending.contains other = p.queue.pending.contains other := by
  rw [Dict.contains, Dict.contains, h.waits other hother]

/-- The share of another task. -/
theorem share (h : Touches names p q) {other : String} (hother : other ∉ names) :
    q.share other = p.share other := by
  rw [Plane.share, Plane.share, h.entry other hother, h.waits other hother, Store.untimedHistory,
    Store.untimedHistory, Store.listHistory_congr (h.history other hother)]

/-- What two stretches touch together; a task that came to wait in the
    first still waits after the second. -/
theorem trans_of_entered {rest all : List String} (h : Touches names p q)
    (h' : Touches rest q r) (hnames : ∀ name ∈ names, name ∈ all) (hrest : ∀ name ∈ rest, name ∈ all)
    (hentered : entered p r all = entered p q names ++ entered q r rest) : Touches all p r where
  entry other hother := (h'.entry other fun hin => hother (hrest other hin)).trans
    (h.entry other fun hin => hother (hnames other hin))
  locked := h'.locked.trans h.locked
  waits other hother := (h'.waits other fun hin => hother (hrest other hin)).trans
    (h.waits other fun hin => hother (hnames other hin))
  kept other hother := h'.kept other (h.kept other hother)
  queue := by
    rw [hentered, ← List.append_assoc]
    conv_lhs => rw [h'.queue, h.queue]
  history other hother := (h'.history other fun hin => hother (hrest other hin)).trans
    (h.history other fun hin => hother (hnames other hin))
  containers := h'.containers.trans h.containers

/-- The same task twice. -/
theorem trans (h : Touches [name] p q) (h' : Touches [name] q r) : Touches [name] p r := by
  refine h.trans_of_entered h' (fun _ hin => hin) (fun _ hin => hin) ?_
  rw [entered_singleton, entered_singleton, entered_singleton]
  have hfirst := h.kept name
  have hsecond := h'.kept name
  revert hfirst hsecond
  cases p.queue.pending.contains name <;> cases q.queue.pending.contains name <;>
    cases r.queue.pending.contains name <;> simp

/-- One task, and then others. -/
theorem cons (h : Touches [name] p q) (h' : Touches names q r) (hname : name ∉ names) :
    Touches (name :: names) p r := by
  refine h.trans_of_entered h' (by simp) (fun _ hin => List.mem_cons_of_mem _ hin) ?_
  have hown : r.queue.pending.contains name = q.queue.pending.contains name := h'.contains hname
  have hothers : entered p r names = entered q r names := by
    refine List.filter_congr fun other hother => ?_
    rw [h.contains fun hin => hname (List.mem_singleton.mp hin ▸ hother)]
  rw [← hothers, entered_singleton, ← hown]
  simp only [entered, List.filter_cons]
  split <;> rfl

/-- A task that was ready still is. -/
theorem ready (h : Touches [name] p q) (hready : p.Ready [name]) : q.Ready [name] where
  free := h.locked.trans hready.free
  room hopen := by
    have hroom := hready.room (h.closed.symm.trans hopen)
    have hslots := h.freeSlots
    have hkept := h.kept name
    rw [entered_singleton] at hslots
    rw [List.filter_cons, List.filter_nil] at hroom ⊢
    revert hroom hslots hkept
    cases p.queue.pending.contains name <;> cases q.queue.pending.contains name <;> simp
    omega

/-- The others are still ready: at most the slot of the one was taken. -/
theorem ready_rest (h : Touches [name] p q) (hready : p.Ready (name :: names))
    (hname : name ∉ names) : q.Ready names where
  free := h.locked.trans hready.free
  room hopen := by
    have hroom := hready.room (h.closed.symm.trans hopen)
    have hslots := h.freeSlots
    have hothers : (names.filter fun other => !q.queue.pending.contains other)
        = names.filter fun other => !p.queue.pending.contains other := by
      refine List.filter_congr fun other hother => ?_
      rw [h.contains fun hin => hname (List.mem_singleton.mp hin ▸ hother)]
    rw [hothers]
    rw [entered_singleton] at hslots
    rw [List.filter_cons] at hroom
    revert hroom hslots
    cases p.queue.pending.contains name <;> cases q.queue.pending.contains name <;> simp <;> omega

end Touches

theorem Ready.head (h : p.Ready (name :: names)) : p.Ready [name] where
  free := h.free
  room hopen := by
    have hroom := h.room hopen
    rw [List.filter_cons] at hroom
    rw [List.filter_cons, List.filter_nil]
    revert hroom
    cases p.queue.pending.contains name <;> simp
    omega

end Plane

/-! ## The world around the detector -/

/-- The plane, and what the detector asked and told others so far. -/
structure World where
  plane : Plane
  /-- The requests to the advisor. -/
  advised : List HttpRequest
  /-- The reports of observed statuses. -/
  reported : List (String × TaskStatus × List RuntimeInstance)

/-- A backend that answers by the spec, and servers that answer by the request. -/
structure Outside where
  isRunning : TaskSpec → Except BackendError Bool
  instances : TaskSpec → Except BackendError (List RuntimeInstance)
  metrics : HttpRequest → HttpOutcome
  advice : HttpRequest → HttpOutcome
  /-- The instants that the clock may show. -/
  clock : Instant → Prop

/-- The plane serves its own calls and the outside the others; nobody else
    is at work.  The replies of the metrics server come in any order. -/
def Outside.answering (o : Outside) : Environment World DetectorCall
  | _, w, .inl e, answer, t => ∃ plane, w.plane.serve e = some (answer, plane) ∧ t = { w with plane }
  | _, w, .inr (.isRunning spec), answer, t => answer = o.isRunning spec ∧ t = w
  | _, w, .inr (.instances spec), answer, t => answer = o.instances spec ∧ t = w
  | _, w, .inr .now, answer, t => o.clock answer ∧ t = w
  | _, w, .inr (.gather requests), replies, t =>
    replies.Perm (requests.map fun p => (p.1, o.metrics p.2)) ∧ t = w
  | _, w, .inr (.advise request), answer, t =>
    answer = o.advice request ∧ t = { w with advised := w.advised ++ [request] }
  | _, w, .inr (.report task status runtime), _, t =>
    t = { w with reported := w.reported ++ [(task, status, runtime)] }

/-- What comes of a program that is confined to a task. -/
structure Outcome (α : Type) where
  answer : α
  /-- The share of the task afterwards. -/
  share : Share
  advised : List HttpRequest
  reported : List (String × TaskStatus × List RuntimeInstance)

/-- What comes of two programs in a row. -/
def Outcome.andThen {α β : Type} (first : Outcome α) (second : Outcome β) : Outcome β :=
  ⟨second.answer, second.share, first.advised ++ second.advised,
    first.reported ++ second.reported⟩

/-- This came of the program, and no other task was touched. -/
structure Outcome.Reached {α : Type} (out : Outcome α) (name : String) (w : World) (a : α)
    (t : World) : Prop where
  answer : a = out.answer
  share : t.plane.share name = out.share
  touches : w.plane.Touches [name] t.plane
  advised : t.advised = w.advised ++ out.advised
  reported : t.reported = w.reported ++ out.reported

theorem Outcome.Reached.andThen {α β : Type} {first : Outcome α} {second : Outcome β}
    {name : String} {w u t : World} {a : α} {b : β} (h : first.Reached name w a u)
    (h' : second.Reached name u b t) : (first.andThen second).Reached name w b t where
  answer := h'.answer
  share := h'.share
  touches := h.touches.trans h'.touches
  advised := by rw [h'.advised, h.advised, List.append_assoc]; rfl
  reported := by rw [h'.reported, h.reported, List.append_assoc]; rfl

namespace Program

variable {α β : Type}

/-- From a share, and whether the queue is closed, follows what comes of the
    program whenever the task is ready, and that something does. -/
def Comes (o : Outside) (name : String) (p : Detection α) (effect : Share → Bool → Outcome α) :
    Prop :=
  ∀ w : World, w.plane.Ready [name] → (∃ a t, p.Runs o.answering w a t) ∧
    ∀ a t, p.Runs o.answering w a t →
      (effect (w.plane.share name) w.plane.queue.closed).Reached name w a t

/-- What comes of the program follows from the share of the task. -/
def Confined (o : Outside) (name : String) (p : Detection α) : Prop :=
  ∃ effect, p.Comes o name effect

variable {o : Outside} {name : String}

/-- A program that reads one answer and changes nothing. -/
theorem confined_of_runs_iff {p : Detection α} {answer : α}
    (h : ∀ w a t, p.Runs o.answering w a t ↔ a = answer ∧ t = w) : p.Confined o name := by
  refine ⟨fun share _ => ⟨answer, share, [], []⟩, fun w _ => ⟨⟨_, _, (h w _ _).mpr ⟨rfl, rfl⟩⟩, ?_⟩⟩
  intro a t hrun
  obtain ⟨rfl, rfl⟩ := (h w a t).mp hrun
  exact ⟨rfl, rfl, .refl _ _, (List.append_nil _).symm, (List.append_nil _).symm⟩

theorem confined_pure (a : α) : Confined o name (pure a : Detection α) :=
  confined_of_runs_iff fun _ _ _ => Iff.rfl

/-- A program that goes on with a confined one is confined. -/
theorem Confined.bind {p : Detection α} {f : α → Detection β} (hp : p.Confined o name)
    (hf : ∀ a, (f a).Confined o name) : (p >>= f).Confined o name := by
  obtain ⟨effect, heffect⟩ := hp
  choose effects heffects using hf
  refine ⟨fun share closed =>
    (effect share closed).andThen
      (effects (effect share closed).answer (effect share closed).share closed), fun w hready => ?_⟩
  -- the second program finds what the first left
  have hnext : ∀ {a u}, p.Runs o.answering w a u → u.plane.Ready [name] ∧
      effects a (u.plane.share name) u.plane.queue.closed
        = effects (effect (w.plane.share name) w.plane.queue.closed).answer
          (effect (w.plane.share name) w.plane.queue.closed).share w.plane.queue.closed := by
    intro a u hrun
    have hreached := (heffect w hready).2 a u hrun
    refine ⟨hreached.touches.ready hready, ?_⟩
    rw [hreached.answer, hreached.share, hreached.touches.closed]
  constructor
  · obtain ⟨a, u, hrun⟩ := (heffect w hready).1
    obtain ⟨b, t, hrest⟩ := (heffects a u (hnext hrun).1).1
    exact ⟨b, t, runs_bind.mpr ⟨a, u, hrun, hrest⟩⟩
  · intro b t hruns
    obtain ⟨a, u, hrun, hrest⟩ := runs_bind.mp hruns
    have hreached := (heffects a u (hnext hrun).1).2 b t hrest
    rw [(hnext hrun).2] at hreached
    exact ((heffect w hready).2 a u hrun).andThen hreached

end Program

end ServingPlane
