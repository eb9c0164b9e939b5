import ServingPlane.Task.Spec

/-! # The task queue

    A bounded channel of task names beside the newest spec of each task
    that waits.  Appending a task that waits already replaces its spec in
    place; otherwise the append needs a free slot of the channel, and
    free slots go to waiting appends first come, first served.  Nothing
    is recorded for an append before it holds a slot. -/

namespace ServingPlane

/-- An append that waits for a slot, or holds one it has not used yet. -/
structure WaitingAppend where
  ticket : Nat
  spec : TaskSpec
  granted : Bool
  deriving DecidableEq

/-- The queue between producers and the one consumer. -/
structure TaskQueue where
  capacity : Nat
  /-- Names in the channel, oldest first. -/
  channel : List String
  /-- The newest spec of each task that waits for the consumer. -/
  pending : Dict String TaskSpec
  /-- Appends under way, in order of arrival. -/
  waiting : List WaitingAppend
  /-- Live producer handles. -/
  producers : Nat
  /-- The consumer is gone. -/
  closed : Bool
  nextTicket : Nat
  deriving DecidableEq

/-- How an append ends. -/
inductive AppendResult where
  | accepted
  | closed
  deriving DecidableEq, Repr

/-- How an append starts: it ends at once, or waits under a ticket. -/
inductive AppendStart where
  | finished (result : AppendResult)
  | waits (ticket : Nat)
  deriving DecidableEq, Repr

/-- What a consumer gets: a spec, nothing for now, or nothing ever again. -/
inductive PopResult where
  | spec (s : TaskSpec)
  | nothingYet
  | drained
  deriving DecidableEq

namespace TaskQueue

/-- An empty queue with one producer; there is always room for one name. -/
def new (capacity : Nat) : TaskQueue where
  capacity := max capacity 1
  channel := []
  pending := .empty
  waiting := []
  producers := 1
  closed := false
  nextTicket := 0

/-- Slots held by appends that have not used them yet. -/
def heldSlots (q : TaskQueue) : Nat := q.waiting.countP (·.granted)

/-- Slots that nobody holds. -/
def freeSlots (q : TaskQueue) : Nat := q.capacity - q.channel.length - q.heldSlots

/-- Give `n` slots to the first appends that hold none. -/
def grantSlots : Nat → List WaitingAppend → List WaitingAppend
  | _, [] => []
  | 0, l => l
  | n + 1, w :: r =>
    if w.granted then w :: grantSlots (n + 1) r else { w with granted := true } :: grantSlots n r

/-- Hand all free slots to waiting appends. -/
def grant (q : TaskQueue) : TaskQueue :=
  { q with waiting := grantSlots q.freeSlots q.waiting }

/-- Record a spec under its name, and the name in the channel if it is not there. -/
def record (q : TaskQueue) (spec : TaskSpec) : TaskQueue :=
  if q.pending.contains spec.name then { q with pending := q.pending.insert spec.name spec }
  else { q with
    pending := q.pending.insert spec.name spec
    channel := q.channel ++ [spec.name] }

/-- Start an append.  A task that waits already takes the new spec at once,
    whatever the state of the channel. -/
def append (q : TaskQueue) (spec : TaskSpec) : AppendStart × TaskQueue :=
  if q.pending.contains spec.name then (.finished .accepted, q.record spec)
  else if q.closed then (.finished .closed, q)
  else if 0 < q.freeSlots then (.finished .accepted, q.record spec)
  else
    (.waits q.nextTicket,
      { q with
        waiting := q.waiting ++ [⟨q.nextTicket, spec, false⟩]
        nextTicket := q.nextTicket + 1 })

/-- The append under a ticket no longer takes part. -/
def leave (q : TaskQueue) (ticket : Nat) : TaskQueue :=
  { q with waiting := q.waiting.filter (·.ticket ≠ ticket) }

/-- Let a waiting append go on.  With a slot in hand it takes effect; if its
    task waits by now, the spec is replaced and the slot is free again. -/
def resume (q : TaskQueue) (ticket : Nat) : Option AppendResult × TaskQueue :=
  match q.waiting.find? (·.ticket = ticket) with
  | none => (none, q)
  | some w =>
    if q.closed then (some .closed, q.leave ticket)
    else if w.granted then (some .accepted, ((q.leave ticket).record w.spec).grant)
    else (none, q)

/-- Give up a waiting append; a slot in its hand goes to the next. -/
def cancel (q : TaskQueue) (ticket : Nat) : Bool × TaskQueue :=
  (q.waiting.any (·.ticket = ticket), (q.leave ticket).grant)

/-- Let the appends under the given tickets go on, one after the other. -/
def resumeAll : List Nat → TaskQueue → List (Nat × AppendResult) × TaskQueue
  | [], q => ([], q)
  | t :: ts, q =>
    match q.resume t with
    | (some r, q) =>
      let (results, q) := resumeAll ts q
      ((t, r) :: results, q)
    | (none, q) => resumeAll ts q

/-- Let every waiting append go on once, in order of arrival. -/
def settle (q : TaskQueue) : List (Nat × AppendResult) × TaskQueue :=
  resumeAll (q.waiting.map (·.ticket)) q

/-- Take names from the channel up to the first that has a spec. -/
def takeFirst : List String → TaskQueue → Option TaskSpec × TaskQueue
  | [], q => (none, { q with channel := [] })
  | name :: r, q =>
    match q.pending.get? name with
    | some spec => (some spec, { q with channel := r, pending := q.pending.erase name })
    | none => takeFirst r q

/-- Take the oldest spec; the freed slot goes to the first waiting append. -/
def pop (q : TaskQueue) : PopResult × TaskQueue :=
  match takeFirst q.channel q with
  | (some spec, q) => (.spec spec, q.grant)
  | (none, q) => (if q.producers = 0 then .drained else .nothingYet, q.grant)

/-- Take up to `n` specs, as long as one waits. -/
def popMany : Nat → TaskQueue → List TaskSpec
  | 0, _ => []
  | n + 1, q =>
    match q.pop with
    | (.spec s, q) => s :: popMany n q
    | _ => []

/-- The specs that wait, in the order in which they will be taken if
    nothing more is appended. -/
def delivery (q : TaskQueue) : List TaskSpec := popMany q.channel.length q

/-- Another producer handle. -/
def addProducer (q : TaskQueue) : TaskQueue := { q with producers := q.producers + 1 }

/-- A producer handle is gone. -/
def dropProducer (q : TaskQueue) : TaskQueue := { q with producers := q.producers - 1 }

/-- The consumer is gone.  The channel is emptied; specs stay recorded. -/
def close (q : TaskQueue) : TaskQueue := { q with closed := true, channel := [] }

/-- Number of tasks that wait for the consumer. -/
def pendingCount (q : TaskQueue) : Nat := q.pending.size

end TaskQueue

end ServingPlane
