import ServingPlane.Proofs.Queue.Steps

/-! # Slots go to the front of the line

    Between two steps a waiting append holds no slot, since everyone who
    waits is let on after each of them.  So tickets and slots can be left
    out of the picture: there is a line beside the queue, and while the
    channel has room, the first in line takes effect.  Here a queue whose
    waiting appends are known by numbers is shown to answer as this
    simpler one does, and to look like it after every step. -/

namespace ServingPlane

/-- What is asked of a queue.  Appends that may wait are told apart by numbers. -/
inductive QueueOp where
  /-- An append that is dropped if it has to wait. -/
  | append (spec : TaskSpec)
  /-- An append that waits if it has to. -/
  | wait (id : Nat) (spec : TaskSpec)
  /-- A waiting append is dropped. -/
  | cancel (id : Nat)
  /-- The consumer asks for a spec, and would wait for one if told to. -/
  | take (waits : Bool)
  /-- The consumer goes away. -/
  | close
  deriving DecidableEq

/-- The waiting append that a step is about. -/
def QueueOp.id? : QueueOp → Option Nat
  | wait id _ | cancel id => some id
  | _ => none

/-- What a step is answered. -/
inductive QueueAnswer where
  | ended (result : AppendResult)
  /-- An append has to wait. -/
  | blocked
  | cancelled (found : Bool)
  | taken (result : PopResult)
  /-- There is nothing to say, or the step could not be taken. -/
  | none
  deriving DecidableEq

/-- What a consumer is told; one that does not wait learns nothing of senders. -/
def PopResult.told (waits : Bool) : PopResult → PopResult
  | drained => if waits then drained else nothingYet
  | result => result

/-- All that is heard after a step: its answer, and which waiting appends
    have ended by it. -/
structure QueueReply where
  answer : QueueAnswer
  resumed : List (Nat × AppendResult)
  deriving DecidableEq

/-- Take some steps and collect the replies. -/
def serveAll {σ : Type} (step : σ → QueueOp → QueueReply × σ) :
    List QueueOp → σ → List QueueReply × σ
  | [], s => ([], s)
  | op :: ops, s =>
    ((step s op).1 :: (serveAll step ops (step s op).2).1, (serveAll step ops (step s op).2).2)

theorem serveAll_append {σ : Type} (step : σ → QueueOp → QueueReply × σ) (ops later : List QueueOp)
    (s : σ) : serveAll step (ops ++ later) s
      = ((serveAll step ops s).1 ++ (serveAll step later (serveAll step ops s).2).1,
        (serveAll step later (serveAll step ops s).2).2) := by
  induction ops generalizing s with
  | nil => rfl
  | cons op ops ih =>
    simp only [List.cons_append, serveAll]
    rw [ih]

@[simp] theorem length_serveAll {σ : Type} (step : σ → QueueOp → QueueReply × σ)
    (ops : List QueueOp) (s : σ) : (serveAll step ops s).1.length = ops.length := by
  induction ops generalizing s with
  | nil => rfl
  | cons op ops ih => exact congrArg (· + 1) (ih _)

/-! ## The queue with its tickets -/

/-- A queue, and the number by which each ticket is known. -/
structure Desk where
  queue : TaskQueue
  label : Nat → Nat

namespace Desk

/-- Whether an append waits under a number. -/
def waits (d : Desk) (id : Nat) : Bool := d.queue.waiting.any fun w => d.label w.ticket = id

/-- A step, before those who wait are let on. -/
def act (d : Desk) : QueueOp → QueueAnswer × Desk
  | .append spec =>
    match d.queue.append spec with
    | (.finished result, queue) => (.ended result, { d with queue })
    | (.waits ticket, queue) => (.blocked, { d with queue := (queue.cancel ticket).2 })
  | .wait id spec =>
    if d.waits id then (.none, d)
    else match d.queue.append spec with
      | (.finished result, queue) => (.ended result, { d with queue })
      | (.waits ticket, queue) => (.blocked, ⟨queue, Function.update d.label ticket id⟩)
  | .cancel id =>
    match d.queue.waiting.find? fun w => d.label w.ticket = id with
    | none => (.cancelled false, d)
    | some w =>
      (.cancelled (d.queue.cancel w.ticket).1, { d with queue := (d.queue.cancel w.ticket).2 })
  | .take waits =>
    if d.queue.closed then (.none, d)
    else (.taken (d.queue.pop.1.told waits), { d with queue := d.queue.pop.2 })
  | .close => (.none, { d with queue := d.queue.close })

/-- Those who wait are let on, in the order in which they came. -/
def settle (d : Desk) : List (Nat × AppendResult) × Desk :=
  (d.queue.settle.1.map fun r => (d.label r.1, r.2), { d with queue := d.queue.settle.2 })

/-- A step. -/
def step (d : Desk) (op : QueueOp) : QueueReply × Desk :=
  (⟨(d.act op).1, (d.act op).2.settle.1⟩, (d.act op).2.settle.2)

/-- An empty queue. -/
def new (capacity : Nat) : Desk := ⟨.new capacity, id⟩

/-- Steps from an empty queue. -/
def run (capacity : Nat) (ops : List QueueOp) : List QueueReply × Desk :=
  serveAll step ops (new capacity)

end Desk

/-! ## The queue with a line -/

/-- A queue at which nobody waits, and those who wait to append to it. -/
structure QueueLine where
  core : TaskQueue
  line : List (Nat × TaskSpec)
  deriving DecidableEq

namespace QueueLine

/-- While the channel has room, the first in line takes effect. -/
def enter : List (Nat × TaskSpec) → TaskQueue → List (Nat × AppendResult) × QueueLine
  | [], core => ([], ⟨core, []⟩)
  | (id, spec) :: line, core =>
    if core.channel.length < core.capacity then
      ((id, .accepted) :: (enter line (core.record spec)).1, (enter line (core.record spec)).2)
    else ([], ⟨core, (id, spec) :: line⟩)

/-- An append that has to wait stays outside. -/
def append (k : QueueLine) (spec : TaskSpec) : QueueAnswer × QueueLine :=
  match k.core.append spec with
  | (.finished result, core) => (.ended result, { k with core })
  | (.waits _, _) => (.blocked, k)

/-- A step, before those in line are let on. -/
def act (k : QueueLine) : QueueOp → QueueAnswer × QueueLine
  | .append spec => k.append spec
  | .wait id spec =>
    if k.line.any (·.1 = id) then (.none, k)
    else match k.append spec with
      | (.blocked, _) => (.blocked, { k with line := k.line ++ [(id, spec)] })
      | ended => ended
  | .cancel id =>
    (.cancelled (k.line.any (·.1 = id)), { k with line := k.line.filter (·.1 ≠ id) })
  | .take waits =>
    if k.core.closed then (.none, k)
    else (.taken (k.core.pop.1.told waits), { k with core := k.core.pop.2 })
  | .close => (.none, { k with core := k.core.close })

/-- Those in line are let on, or all turned away if the consumer is gone. -/
def settle (k : QueueLine) : List (Nat × AppendResult) × QueueLine :=
  if k.core.closed then (k.line.map fun w => (w.1, .closed), { k with line := [] })
  else enter k.line k.core

/-- A step. -/
def step (k : QueueLine) (op : QueueOp) : QueueReply × QueueLine :=
  (⟨(k.act op).1, (k.act op).2.settle.1⟩, (k.act op).2.settle.2)

theorem not_mem_of_any_eq_false {k : QueueLine} {id : Nat} (h : ¬k.line.any (·.1 = id) = true) :
    id ∉ k.line.map Prod.fst := by
  intro hmem
  obtain ⟨w, hw, heq⟩ := List.mem_map.mp hmem
  exact h (List.any_eq_true.mpr ⟨w, hw, decide_eq_true heq⟩)

end QueueLine

/-! ## Letting those who wait on -/

namespace TaskQueue

variable {q : TaskQueue}

/-- Nobody who waits holds a slot. -/
def Unheld (q : TaskQueue) : Prop := ∀ w ∈ q.waiting, w.granted = false

theorem Unheld.heldSlots (h : q.Unheld) : q.heldSlots = 0 := by
  simp only [TaskQueue.heldSlots]
  rw [List.countP_eq_zero]
  intro w hw
  rw [h w hw]
  exact Bool.false_ne_true

theorem Unheld.freeSlots (h : q.Unheld) : q.freeSlots = q.capacity - q.channel.length := by
  simp only [TaskQueue.freeSlots]
  rw [h.heldSlots, Nat.sub_zero]

/-- One who holds a slot gets no other. -/
theorem grantSlots_cons {w : WaitingAppend} (h : w.granted = true) (n : Nat)
    (l : List WaitingAppend) : grantSlots n (w :: l) = w :: grantSlots n l := by
  cases n with
  | zero =>
    cases l with
    | nil => rfl
    | cons _ _ => rfl
  | succ n => exact if_pos h

/-- Whoever is given a slot keeps the ticket. -/
theorem map_ticket_grantSlots (n : Nat) (l : List WaitingAppend) :
    (grantSlots n l).map (·.ticket) = l.map (·.ticket) := by
  have hmap := congrArg (List.map Prod.fst) (grantSlots_map n l)
  rw [List.map_map, List.map_map] at hmap
  exact hmap

/-- Giving some slots and then the others is giving all of them. -/
theorem grantSlots_grantSlots {l : List WaitingAppend} (h : ∀ w ∈ l, w.granted = false)
    {n k : Nat} (hnk : n ≤ k) :
    grantSlots (k - (grantSlots n l).countP (·.granted)) (grantSlots n l) = grantSlots k l := by
  induction l generalizing n k with
  | nil =>
    cases n with
    | zero => rfl
    | succ n => rfl
  | cons w l ih =>
    have hw : ¬w.granted = true := by simp [h w List.mem_cons_self]
    have hl : ∀ x ∈ l, x.granted = false := fun x hx => h x (List.mem_cons_of_mem _ hx)
    cases n with
    | zero =>
      have hnone : (w :: l).countP (·.granted) = 0 := by
        rw [List.countP_eq_zero]
        intro x hx
        simp [h x hx]
      show grantSlots (k - (w :: l).countP (·.granted)) (w :: l) = _
      rw [hnone, Nat.sub_zero]
    | succ n =>
      obtain ⟨m, rfl⟩ : ∃ m, k = m + 1 := ⟨k - 1, by omega⟩
      have hcons : ∀ j, grantSlots (j + 1) (w :: l)
          = { w with granted := true } :: grantSlots j l :=
        fun _ => if_neg hw
      rw [hcons, hcons, List.countP_cons_of_pos rfl, grantSlots_cons rfl, Nat.add_sub_add_right,
        ih hl (Nat.le_of_succ_le_succ hnk)]

theorem grant_of_nil (h : q.waiting = []) : q.grant = q := by
  refine grant_of_granted ?_
  rw [h]
  intro w hw
  exact absurd hw List.not_mem_nil

/-- Letting on those who wait for a slot that there is not does nothing. -/
theorem resumeAll_of_unheld (h : q.Unheld) (hopen : q.closed = false) (tickets : List Nat) :
    resumeAll tickets q = ([], q) := by
  have hnone : ∀ ticket, q.resume ticket = (none, q) := by
    intro ticket
    simp only [resume]
    cases hfind : q.waiting.find? (·.ticket = ticket) with
    | none => rfl
    | some w =>
      have hw := h w (List.mem_of_find?_eq_some hfind)
      simp [hopen, hw]
  induction tickets with
  | nil => rfl
  | cons ticket tickets ih =>
    simp only [resumeAll]
    rw [hnone]
    exact ih

theorem settle_of_full (h : q.Unheld) (hopen : q.closed = false)
    (hfull : q.capacity ≤ q.channel.length) : q.grant.settle = ([], q) := by
  have hgrant : q.grant = q := by
    refine grant_of_full ?_
    rw [h.freeSlots]
    omega
  rw [hgrant]
  exact resumeAll_of_unheld h hopen _

theorem settle_of_nil (h : q.waiting = []) : q.grant.settle = ([], q) := by
  rw [grant_of_nil h]
  simp only [settle]
  rw [h]
  rfl

@[simp] theorem waiting_record (q : TaskQueue) (spec : TaskSpec) :
    (q.record spec).waiting = q.waiting := by
  rw [record_eq]

@[simp] theorem nextTicket_record (q : TaskQueue) (spec : TaskSpec) :
    (q.record spec).nextTicket = q.nextTicket := by
  rw [record_eq]

@[simp] theorem closed_record (q : TaskQueue) (spec : TaskSpec) :
    (q.record spec).closed = q.closed := by
  rw [record_eq]

/-- The first who waits leaves the others. -/
theorem leave_first {w : WaitingAppend} {rest : List WaitingAppend}
    (hwaiting : q.waiting = w :: rest)
    (hfresh : w.ticket ∉ rest.map (·.ticket)) : q.leave w.ticket = { q with waiting := rest } := by
  have hkeep : rest.filter (·.ticket ≠ w.ticket) = rest := by
    refine List.filter_eq_self.mpr fun x hx => decide_eq_true ?_
    intro heq
    exact hfresh (List.mem_map.mpr ⟨x, hx, heq⟩)
  simp only [leave]
  rw [hwaiting, List.filter_cons_of_neg (by simp), hkeep]

/-- The first who waits gets a slot, if there is one. -/
theorem grant_first {w : WaitingAppend} {rest : List WaitingAppend} {n : Nat} (h : q.Unheld)
    (hwaiting : q.waiting = w :: rest) (hfree : q.freeSlots = n + 1) :
    q.grant = { q with waiting := { w with granted := true } :: grantSlots n rest } := by
  have hw : ¬w.granted = true := by simp [h w (hwaiting ▸ List.mem_cons_self)]
  simp only [grant]
  rw [hfree, hwaiting]
  exact congrArg (fun l => { q with waiting := l }) (if_neg hw)

/-- After the first has used or returned its slot, giving the others theirs
    again comes to giving them all that is left. -/
theorem grant_record_grantSlots {rest : List WaitingAppend} {n : Nat}
    (hrest : ∀ w ∈ rest, w.granted = false) (hn : q.capacity - q.channel.length = n + 1)
    (spec : TaskSpec) :
    (({ q with waiting := grantSlots n rest } : TaskQueue).record spec).grant
      = (({ q with waiting := rest } : TaskQueue).record spec).grant := by
  have hheld : (({ q with waiting := rest } : TaskQueue).record spec).Unheld := by
    rw [record_eq]
    exact hrest
  have hslots := hheld.freeSlots
  rw [record_eq] at hslots
  simp only [grant, record_eq]
  rw [hslots]
  have hcount := grantSlots_grantSlots hrest (n := n)
    (k := q.capacity - (if q.pending.contains spec.name then q.channel
      else q.channel ++ [spec.name]).length) ?_
  · simp only [freeSlots, heldSlots]
    rw [hcount]
  · split
    · omega
    · rw [List.length_append]
      simp only [List.length_singleton]
      omega

/-- Where the channel has room, the first who waits takes effect. -/
theorem resume_first {w : WaitingAppend} {rest : List WaitingAppend} {n : Nat} (h : q.Unheld)
    (hopen : q.closed = false) (hwaiting : q.waiting = w :: rest)
    (hfresh : w.ticket ∉ rest.map (·.ticket)) (hn : q.capacity - q.channel.length = n + 1) :
    q.grant.resume w.ticket
      = (some .accepted, (({ q with waiting := rest } : TaskQueue).record w.spec).grant) := by
  have hgrant := grant_first h hwaiting (h.freeSlots.trans hn)
  have hfind : q.grant.waiting.find? (·.ticket = w.ticket) = some { w with granted := true } := by
    rw [hgrant]
    exact List.find?_cons_of_pos (decide_eq_true rfl)
  have hleave : q.grant.leave w.ticket = { q with waiting := grantSlots n rest } := by
    rw [hgrant]
    exact leave_first (w := { w with granted := true }) rfl
      ((map_ticket_grantSlots n rest).symm ▸ hfresh)
  have hrest : ∀ x ∈ rest, x.granted = false := by
    intro x hx
    exact h x (hwaiting ▸ List.mem_cons_of_mem _ hx)
  have hopen' : q.grant.closed = false := hopen
  simp only [resume]
  rw [hfind]
  dsimp only
  rw [hopen', if_neg Bool.false_ne_true, if_pos rfl, hleave, grant_record_grantSlots hrest hn]

/-- The first who waits takes effect where the channel has room, and then
    the others are let on. -/
theorem settle_of_room {w : WaitingAppend} {rest : List WaitingAppend} (h : q.Unheld)
    (hopen : q.closed = false) (hwaiting : q.waiting = w :: rest)
    (hdistinct : (q.waiting.map (·.ticket)).Nodup) (hroom : q.channel.length < q.capacity) :
    q.grant.settle
      = ((w.ticket, .accepted) :: (({ q with waiting := rest }.record w.spec).grant.settle).1,
        (({ q with waiting := rest }.record w.spec).grant.settle).2) := by
  rw [hwaiting, List.map_cons, List.nodup_cons] at hdistinct
  obtain ⟨n, hn⟩ : ∃ n, q.capacity - q.channel.length = n + 1 :=
    ⟨q.capacity - q.channel.length - 1, by omega⟩
  have hgrant := grant_first h hwaiting (h.freeSlots.trans hn)
  have hresume := resume_first h hopen hwaiting hdistinct.1 hn
  have hsettle : q.grant.settle
      = resumeAll (w.ticket :: (grantSlots n rest).map (·.ticket)) q.grant := by
    simp only [settle]
    rw [hgrant]
    rfl
  have hothers : (({ q with waiting := rest } : TaskQueue).record w.spec).grant.waiting.map
      (·.ticket) = rest.map (·.ticket) := by
    refine (map_ticket_grantSlots _ _).trans ?_
    rw [waiting_record]
  rw [hsettle, map_ticket_grantSlots, ← hothers]
  simp only [resumeAll]
  rw [hresume]
  rfl

/-- When the consumer is gone, all who wait are turned away. -/
theorem settle_of_closed (hclosed : q.closed = true)
    (hdistinct : (q.waiting.map (·.ticket)).Nodup) :
    q.settle = (q.waiting.map fun w => (w.ticket, .closed), { q with waiting := [] }) := by
  simp only [settle]
  generalize hl : q.waiting = l
  rw [hl] at hdistinct
  induction l generalizing q with
  | nil =>
    simp only [List.map_nil, resumeAll]
    rw [← hl]
  | cons w rest ih =>
    obtain ⟨hfresh, hrest⟩ := List.nodup_cons.mp hdistinct
    have hleave := leave_first hl hfresh
    have hresume : q.resume w.ticket = (some .closed, q.leave w.ticket) := by
      have hfind : q.waiting.find? (·.ticket = w.ticket) = some w := by
        rw [hl]
        exact List.find?_cons_of_pos (decide_eq_true rfl)
      simp only [resume]
      rw [hfind]
      exact if_pos hclosed
    simp only [List.map_cons, resumeAll]
    rw [hresume]
    dsimp only
    rw [ih (q := q.leave w.ticket) hclosed hrest (hleave ▸ rfl)]
    rfl

/-! ## Tickets left out -/

/-- A queue without those who wait and without its tickets. -/
def bare (q : TaskQueue) : TaskQueue := { q with waiting := [], nextTicket := 0 }

theorem bare_record (q : TaskQueue) (spec : TaskSpec) :
    (q.record spec).bare = q.bare.record spec := by
  rw [record_eq, record_eq]
  rfl

theorem bare_takeFirst (names : List String) (q : TaskQueue) :
    takeFirst names q.bare = ((takeFirst names q).1, (takeFirst names q).2.bare) := by
  induction names generalizing q with
  | nil => rfl
  | cons name names ih =>
    have hpending : q.bare.pending = q.pending := rfl
    simp only [takeFirst]
    rw [hpending]
    cases q.pending.get? name with
    | none => exact ih q
    | some spec => rfl

theorem bare_pop (q : TaskQueue) : q.bare.pop = (q.pop.1, q.pop.2.bare) := by
  have htake := bare_takeFirst q.channel q
  have hchannel : q.bare.channel = q.channel := rfl
  simp only [pop]
  rw [hchannel, htake]
  have hgrant : ∀ u : TaskQueue, u.bare.grant = u.bare := fun u => grant_of_nil rfl
  cases hfirst : takeFirst q.channel q with
  | mk found after =>
    cases found with
    | none => exact congrArg (Prod.mk _) (hgrant after)
    | some spec => exact congrArg (Prod.mk _) (hgrant after)

theorem takeFirst_frame (names : List String) (q : TaskQueue) :
    (takeFirst names q).2.waiting = q.waiting ∧
    (takeFirst names q).2.nextTicket = q.nextTicket ∧
    (takeFirst names q).2.closed = q.closed ∧
    (takeFirst names q).2.capacity = q.capacity := by
  induction names with
  | nil => exact ⟨rfl, rfl, rfl, rfl⟩
  | cons name names ih =>
    simp only [takeFirst]
    cases q.pending.get? name with
    | none => exact ih
    | some spec => exact ⟨rfl, rfl, rfl, rfl⟩

theorem pop_eq_grant (q : TaskQueue) : q.pop.2 = (takeFirst q.channel q).2.grant := by
  simp only [pop]
  cases hfirst : takeFirst q.channel q with
  | mk found after =>
    cases found with
    | none => rfl
    | some spec => rfl

/-- What remains of a queue when those who wait have been let on. -/
structure LetOn (q q' : TaskQueue) : Prop where
  suffix : q'.waiting <:+ q.waiting
  tickets : q'.nextTicket = q.nextTicket
  closed : q'.closed = q.closed
  full : q'.waiting ≠ [] → q'.capacity ≤ q'.channel.length

/-- Letting on those who wait enters them from the front of the line. -/
theorem settle_grant (label : Nat → Nat) (h : q.Unheld) (hopen : q.closed = false)
    (hdistinct : (q.waiting.map fun w => label w.ticket).Nodup) :
    (Desk.mk q.grant label).settle.1
      = (QueueLine.enter (q.waiting.map fun w => (label w.ticket, w.spec)) q.bare).1 ∧
    (⟨q.grant.settle.2.bare, q.grant.settle.2.waiting.map fun w => (label w.ticket, w.spec)⟩
        : QueueLine)
      = (QueueLine.enter (q.waiting.map fun w => (label w.ticket, w.spec)) q.bare).2 ∧
    q.LetOn q.grant.settle.2 := by
  generalize hl : q.waiting = l
  rw [hl] at hdistinct
  induction l generalizing q with
  | nil =>
    simp only [Desk.settle]
    rw [settle_of_nil hl]
    refine ⟨rfl, ?_, ⟨List.suffix_refl _, rfl, rfl, ?_⟩⟩
    · simp only
      rw [hl]
      rfl
    · intro hne
      exact absurd hl hne
  | cons w rest ih =>
    by_cases hroom : q.channel.length < q.capacity
    · have htickets : (q.waiting.map (·.ticket)).Nodup := by
        rw [hl]
        refine List.Nodup.of_map label ?_
        rw [List.map_map]
        exact hdistinct
      let next : TaskQueue := ({ q with waiting := rest } : TaskQueue).record w.spec
      have hwaiting : next.waiting = rest := waiting_record _ _
      have hclosed : next.closed = q.closed := closed_record _ _
      have hnext : next.Unheld := by
        intro x hx
        rw [hwaiting] at hx
        exact h x (hl ▸ List.mem_cons_of_mem _ hx)
      have hbare : next.bare = q.bare.record w.spec := bare_record _ _
      obtain ⟨hresults, hshown, hleft⟩ :=
        ih hnext (hclosed.trans hopen) (List.nodup_cons.mp hdistinct).2 hwaiting
      have henter : QueueLine.enter ((w :: rest).map fun w => (label w.ticket, w.spec)) q.bare
          = ((label w.ticket, .accepted) :: (QueueLine.enter
              (rest.map fun w => (label w.ticket, w.spec)) (q.bare.record w.spec)).1,
            (QueueLine.enter (rest.map fun w => (label w.ticket, w.spec))
              (q.bare.record w.spec)).2) := if_pos hroom
      rw [henter, ← hbare]
      simp only [Desk.settle] at hresults ⊢
      rw [settle_of_room h hopen hl htickets hroom]
      refine ⟨?_, hshown, ⟨?_, ?_, hleft.closed.trans hclosed, hleft.full⟩⟩
      · rw [List.map_cons, hresults]
      · rw [hl]
        exact (hwaiting ▸ hleft.suffix).trans (List.suffix_cons _ _)
      · exact hleft.tickets.trans (nextTicket_record _ _)
    · have hfull : q.capacity ≤ q.channel.length := Nat.le_of_not_lt hroom
      have henter : QueueLine.enter ((w :: rest).map fun w => (label w.ticket, w.spec)) q.bare
          = ([], ⟨q.bare, (w :: rest).map fun w => (label w.ticket, w.spec)⟩) := if_neg hroom
      rw [henter]
      simp only [Desk.settle]
      rw [settle_of_full h hopen hfull]
      refine ⟨rfl, ?_, ⟨List.suffix_refl _, rfl, rfl, fun _ => hfull⟩⟩
      simp only
      rw [hl]

end TaskQueue

/-! ## The desk and its line -/

namespace Desk

variable {d : Desk}

/-- What shows of a queue: all but the numbers of its tickets. -/
def shown (d : Desk) : QueueLine :=
  ⟨d.queue.bare, d.queue.waiting.map fun w => (d.label w.ticket, w.spec)⟩

/-- Tickets are given out in order, and nobody waits under two numbers. -/
structure Orderly (d : Desk) : Prop where
  issued : ∀ w ∈ d.queue.waiting, w.ticket < d.queue.nextTicket
  labels : (d.queue.waiting.map fun w => d.label w.ticket).Nodup

/-- Nobody who waits holds a slot, and nobody waits unless the consumer is
    there and the channel is full. -/
structure Resting (d : Desk) : Prop extends Orderly d where
  unheld : d.queue.Unheld
  full : d.queue.waiting ≠ [] →
    d.queue.closed = false ∧ d.queue.capacity ≤ d.queue.channel.length

/-- As a step leaves a queue: all slots are given to those who wait, unless
    the consumer is gone. -/
structure Acted (d : Desk) : Prop extends Orderly d where
  slots : d.queue.closed = true ∨
    d.queue.closed = false ∧ ∃ q : TaskQueue, q.Unheld ∧ d.queue = q.grant

theorem resting_new (capacity : Nat) : (new capacity).Resting where
  issued := fun _ hw => absurd hw List.not_mem_nil
  labels := List.nodup_nil
  unheld := fun _ hw => absurd hw List.not_mem_nil
  full := fun hne => absurd rfl hne

/-- Who holds a slot does not show. -/
@[simp] theorem shown_grant (q : TaskQueue) (label : Nat → Nat) :
    (Desk.mk q.grant label).shown = (Desk.mk q label).shown := by
  have hmap := congrArg (List.map (Prod.map label id)) (TaskQueue.tickets_grant q)
  simp only [TaskQueue.tickets, List.map_map] at hmap
  exact congrArg (QueueLine.mk q.bare) hmap

theorem labels_eq (d : Desk) :
    d.queue.waiting.map (fun w => d.label w.ticket) = d.shown.line.map Prod.fst := by
  simp only [shown, List.map_map]
  rfl

theorem orderly_grant {q : TaskQueue} {label : Nat → Nat} :
    (Desk.mk q.grant label).Orderly ↔ (Desk.mk q label).Orderly := by
  have hlabels : q.grant.waiting.map (fun w => label w.ticket)
      = q.waiting.map fun w => label w.ticket := by
    have hone := labels_eq ⟨q.grant, label⟩
    rw [shown_grant, ← labels_eq] at hone
    exact hone
  have htickets : q.grant.waiting.map (·.ticket) = q.waiting.map (·.ticket) :=
    TaskQueue.map_ticket_grantSlots _ _
  have hissued : ∀ {l : List WaitingAppend} {n : Nat},
      (∀ w ∈ l, w.ticket < n) ↔ ∀ ticket ∈ l.map (·.ticket), ticket < n := by
    intro l n
    rw [List.forall_mem_map]
  constructor
  · intro h
    refine ⟨hissued.mpr ?_, hlabels ▸ h.labels⟩
    rw [← htickets]
    exact hissued.mp h.issued
  · intro h
    refine ⟨hissued.mpr ?_, hlabels.symm ▸ h.labels⟩
    exact htickets ▸ hissued.mp h.issued

theorem Orderly.of_sublist (h : d.Orderly) {queue : TaskQueue}
    (hwaiting : queue.waiting.Sublist d.queue.waiting)
    (hnext : queue.nextTicket = d.queue.nextTicket) : ({ d with queue } : Desk).Orderly where
  issued := by
    intro w hw
    rw [hnext]
    exact h.issued w (hwaiting.subset hw)
  labels := h.labels.sublist (hwaiting.map _)

/-- When those who wait have been let on, the queue rests, and looks as the
    line does. -/
theorem Acted.settle (h : d.Acted) :
    d.settle.1 = d.shown.settle.1 ∧ d.settle.2.shown = d.shown.settle.2 ∧ d.settle.2.Resting := by
  have hcore : d.shown.core.closed = d.queue.closed := rfl
  rcases h.slots with hclosed | ⟨hopen, q, hq, hqueue⟩
  · have htickets : (d.queue.waiting.map (·.ticket)).Nodup := by
      refine List.Nodup.of_map d.label ?_
      rw [List.map_map]
      exact h.labels
    have hsettle := TaskQueue.settle_of_closed hclosed htickets
    have hline : d.shown.settle
        = (d.shown.line.map fun w => (w.1, .closed), { d.shown with line := [] }) := if_pos hclosed
    simp only [Desk.settle]
    rw [hsettle, hline]
    refine ⟨?_, rfl, ⟨⟨?_, ?_⟩, ?_, ?_⟩⟩
    · simp only [shown, List.map_map]
      rfl
    · intro w hw
      exact absurd hw List.not_mem_nil
    · exact List.nodup_nil
    · intro w hw
      exact absurd hw List.not_mem_nil
    · intro hne
      exact absurd rfl hne
  · obtain ⟨queue, label⟩ := d
    obtain rfl := hqueue
    have horderly := orderly_grant.mp h.toOrderly
    have hopen' : q.closed = false := hopen
    obtain ⟨hresults, hshown, hleft⟩ := TaskQueue.settle_grant label hq hopen' horderly.labels
    have hline : (Desk.mk q.grant label).shown.settle
        = QueueLine.enter (q.waiting.map fun w => (label w.ticket, w.spec)) q.bare := by
      rw [shown_grant]
      exact if_neg (by rw [show (Desk.mk q label).shown.core.closed = q.closed from rfl, hopen']
                       exact Bool.false_ne_true)
    rw [hline]
    refine ⟨hresults, hshown, ⟨horderly.of_sublist hleft.suffix.sublist hleft.tickets, ?_, ?_⟩⟩
    · exact fun w hw => hq w (hleft.suffix.subset hw)
    · intro hne
      exact ⟨hleft.closed.trans hopen', hleft.full hne⟩

/-- A step after which the same appends wait, for a channel that is full. -/
theorem Resting.acted_of_same (h : d.Resting) {queue : TaskQueue}
    (hwaiting : queue.waiting = d.queue.waiting) (hnext : queue.nextTicket = d.queue.nextTicket)
    (hfull : queue.waiting ≠ [] → queue.capacity ≤ queue.channel.length) :
    ({ d with queue } : Desk).Acted where
  toOrderly := h.toOrderly.of_sublist (hwaiting ▸ List.Sublist.refl _) hnext
  slots := by
    have hunheld : queue.Unheld := by
      intro w hw
      exact h.unheld w (hwaiting ▸ hw)
    cases hclosed : queue.closed with
    | true => exact .inl rfl
    | false =>
      refine .inr ⟨rfl, queue, hunheld, ?_⟩
      by_cases hnil : queue.waiting = []
      · exact (TaskQueue.grant_of_nil hnil).symm
      · refine (TaskQueue.grant_of_full ?_).symm
        rw [hunheld.freeSlots]
        have := hfull hnil
        omega

/-- A step after which the slots were given out anew. -/
theorem Resting.acted_of_grant (h : d.Resting) (hopen : d.queue.closed = false) {queue : TaskQueue}
    (hwaiting : queue.waiting.Sublist d.queue.waiting)
    (hnext : queue.nextTicket = d.queue.nextTicket) (hclosed : queue.closed = d.queue.closed) :
    ({ d with queue := queue.grant } : Desk).Acted where
  toOrderly := orderly_grant.mpr (h.toOrderly.of_sublist hwaiting hnext)
  slots := .inr ⟨hclosed.trans hopen, queue, fun w hw => h.unheld w (hwaiting.subset hw), rfl⟩

/-- An append ends at once, or finds the channel full; with tickets and without. -/
theorem Resting.append (h : d.Resting) (spec : TaskSpec) :
    (∃ result queue, d.queue.append spec = (.finished result, queue) ∧
      d.shown.append spec = (.ended result, { d with queue }.shown) ∧
      ({ d with queue } : Desk).Acted) ∨
    d.queue.append spec = (.waits d.queue.nextTicket, d.queue.enlist spec false) ∧
      d.shown.append spec = (.blocked, d.shown) ∧ d.queue.closed = false ∧
      d.queue.capacity ≤ d.queue.channel.length := by
  have hslots : d.shown.core.freeSlots = d.queue.freeSlots := by
    have hbare : d.queue.bare.Unheld := fun w hw => absurd hw List.not_mem_nil
    exact hbare.freeSlots.trans h.unheld.freeSlots.symm
  have hcontains : d.shown.core.pending = d.queue.pending := rfl
  have hclosed : d.shown.core.closed = d.queue.closed := rfl
  have hrecord : ∀ queue, queue = d.queue.record spec →
      (⟨d.shown.core.record spec, d.shown.line⟩ : QueueLine) = { d with queue }.shown := by
    rintro _ rfl
    simp only [shown]
    rw [TaskQueue.bare_record, TaskQueue.waiting_record]
  simp only [QueueLine.append, TaskQueue.append]
  rw [hcontains, hclosed, hslots]
  by_cases hwaits : d.queue.pending.contains spec.name = true
  · rw [if_pos hwaits, if_pos hwaits]
    refine .inl ⟨_, _, rfl, congrArg (Prod.mk _) (hrecord _ rfl), ?_⟩
    refine h.acted_of_same (by simp) (by simp) fun hne => ?_
    -- its name is in the channel already, which stays full
    rw [TaskQueue.waiting_record] at hne
    rw [TaskQueue.record_eq]
    dsimp only
    rw [if_pos hwaits]
    exact (h.full hne).2
  rw [if_neg hwaits, if_neg hwaits]
  by_cases hgone : d.queue.closed = true
  · rw [if_pos hgone, if_pos hgone]
    refine .inl ⟨_, _, rfl, rfl, ?_⟩
    exact h.acted_of_same rfl rfl fun hne => (h.full hne).2
  rw [if_neg hgone, if_neg hgone]
  have hopen : d.queue.closed = false := Bool.eq_false_iff.mpr hgone
  by_cases hfree : 0 < d.queue.freeSlots
  · rw [if_pos hfree, if_pos hfree]
    refine .inl ⟨_, _, rfl, congrArg (Prod.mk _) (hrecord _ rfl), ?_⟩
    refine h.acted_of_same (by simp) (by simp) fun hne => ?_
    -- nobody waits while there is room
    rw [TaskQueue.waiting_record] at hne
    have hfull := (h.full hne).2
    rw [h.unheld.freeSlots] at hfree
    omega
  · rw [if_neg hfree, if_neg hfree]
    rw [h.unheld.freeSlots] at hfree
    exact .inr ⟨rfl, rfl, hopen, by omega⟩

theorem Resting.settled (h : d.Resting) : d.queue.Settled where
  issued := h.issued
  granted := by
    by_cases hnil : d.queue.waiting = []
    · refine .inr fun w hw => ?_
      rw [hnil] at hw
      exact absurd hw List.not_mem_nil
    · refine .inl ?_
      rw [h.unheld.freeSlots]
      exact Nat.sub_eq_zero_of_le (h.full hnil).2

theorem waits_eq (d : Desk) (id : Nat) : d.waits id = d.shown.line.any (·.1 = id) := by
  simp only [waits, shown, List.any_map]
  rfl

/-- An append joins the line under a number of its own. -/
theorem Resting.enlist (h : d.Resting) (spec : TaskSpec) {id : Nat} (hid : d.waits id = false)
    (hopen : d.queue.closed = false) (hfull : d.queue.capacity ≤ d.queue.channel.length) :
    (⟨d.queue.enlist spec false, Function.update d.label d.queue.nextTicket id⟩ : Desk).shown
      = { d.shown with line := d.shown.line ++ [(id, spec)] } ∧
    (⟨d.queue.enlist spec false, Function.update d.label d.queue.nextTicket id⟩ : Desk).Acted := by
  have hold : ∀ w ∈ d.queue.waiting,
      Function.update d.label d.queue.nextTicket id w.ticket = d.label w.ticket := by
    intro w hw
    exact Function.update_of_ne (Nat.ne_of_lt (h.issued w hw)) _ _
  have hshown : (⟨d.queue.enlist spec false,
      Function.update d.label d.queue.nextTicket id⟩ : Desk).shown
      = { d.shown with line := d.shown.line ++ [(id, spec)] } := by
    simp only [shown, TaskQueue.enlist, List.map_append]
    refine congrArg₂ QueueLine.mk rfl (congrArg₂ (· ++ ·) (List.map_congr_left fun w hw => ?_) ?_)
    · rw [hold w hw]
    · simp
  have hunheld : (d.queue.enlist spec false).Unheld := by
    intro w hw
    rcases List.mem_append.mp hw with hw | hw
    · exact h.unheld w hw
    · rw [List.mem_singleton.mp hw]
  refine ⟨hshown, ⟨⟨?_, ?_⟩, .inr ⟨hopen, d.queue.enlist spec false, hunheld, ?_⟩⟩⟩
  · intro w hw
    show w.ticket < d.queue.nextTicket + 1
    rcases List.mem_append.mp hw with hw | hw
    · exact Nat.lt_succ_of_lt (h.issued w hw)
    · rw [List.mem_singleton.mp hw]
      exact Nat.lt_succ_self _
  · rw [labels_eq, hshown]
    simp only [List.map_append, List.map_cons, List.map_nil]
    have hlabels := h.labels
    rw [labels_eq] at hlabels
    rw [waits_eq] at hid
    rw [← List.concat_eq_append]
    exact hlabels.concat (QueueLine.not_mem_of_any_eq_false (Bool.eq_false_iff.mp hid))
  · refine (TaskQueue.grant_of_full ?_).symm
    rw [hunheld.freeSlots]
    exact Nat.sub_eq_zero_of_le hfull

/-- A queue at rest can be left as it is. -/
theorem Resting.acted (h : d.Resting) : d.Acted :=
  h.acted_of_same rfl rfl fun hne => (h.full hne).2

/-- Whoever is dropped leaves the line, and the slots are given out anew. -/
theorem Resting.act_cancel (h : d.Resting) (id : Nat) :
    (d.act (.cancel id)).1 = (d.shown.act (.cancel id)).1 ∧
      (d.act (.cancel id)).2.shown = (d.shown.act (.cancel id)).2 ∧
      (d.act (.cancel id)).2.Acted := by
  simp only [Desk.act, QueueLine.act]
  rw [← waits_eq]
  cases hfind : d.queue.waiting.find? fun w => d.label w.ticket = id with
  | none =>
    have hnone := List.find?_eq_none.mp hfind
    have hwaits : d.waits id = false := List.any_eq_false.mpr hnone
    have hline : d.shown.line.filter (·.1 ≠ id) = d.shown.line := by
      refine List.filter_eq_self.mpr ?_
      rw [waits_eq, List.any_eq_false] at hwaits
      intro x hx
      simpa using hwaits x hx
    dsimp only
    rw [hwaits, hline]
    exact ⟨rfl, rfl, h.acted⟩
  | some w =>
    have hw : w ∈ d.queue.waiting := List.mem_of_find?_eq_some hfind
    have hlabel : d.label w.ticket = id := by simpa using List.find?_some hfind
    have hwaits : d.waits id = true := List.any_eq_true.mpr ⟨w, hw, decide_eq_true hlabel⟩
    have hfound : (d.queue.cancel w.ticket).1 = true :=
      List.any_eq_true.mpr ⟨w, hw, decide_eq_true rfl⟩
    have hopen := (h.full (List.ne_nil_of_mem hw)).1
    -- the number belongs to this ticket alone
    have hline : (d.queue.leave w.ticket).waiting.map (fun x => (d.label x.ticket, x.spec))
        = d.shown.line.filter (·.1 ≠ id) := by
      simp only [TaskQueue.leave, shown, List.filter_map]
      refine congrArg _ (List.filter_congr fun x hx => ?_)
      simp only [Function.comp_apply, decide_eq_decide]
      refine not_congr ⟨fun heq => heq ▸ hlabel, fun heq => ?_⟩
      exact congrArg _ (List.inj_on_of_nodup_map h.labels hx hw (heq.trans hlabel.symm))
    dsimp only
    rw [hwaits, hfound]
    refine ⟨rfl, ?_, h.acted_of_grant hopen List.filter_sublist rfl rfl⟩
    show (Desk.mk (d.queue.leave w.ticket).grant d.label).shown = _
    rw [shown_grant]
    exact congrArg (QueueLine.mk _) hline

/-- Before those who wait are let on, a step is answered the same with
    tickets and without, and looks the same. -/
theorem Resting.act (h : d.Resting) (op : QueueOp) :
    (d.act op).1 = (d.shown.act op).1 ∧ (d.act op).2.shown = (d.shown.act op).2 ∧
      (d.act op).2.Acted := by
  cases op with
  | append spec =>
    simp only [Desk.act, QueueLine.act]
    rcases h.append spec with ⟨result, queue, hqueue, hline, hacted⟩ | ⟨hqueue, hline, hopen, hfull⟩
    · rw [hqueue, hline]
      exact ⟨rfl, rfl, hacted⟩
    · rw [hqueue, hline]
      -- what is dropped leaves the queue as it was, but for its ticket
      have hdropped : ((d.queue.enlist spec false).cancel d.queue.nextTicket).2
          = ({ d.queue with nextTicket := d.queue.nextTicket + 1 } : TaskQueue).grant :=
        congrArg TaskQueue.grant (h.settled.leave_enlist false)
      dsimp only
      rw [hdropped, shown_grant]
      refine ⟨rfl, rfl, orderly_grant.mpr ⟨?_, h.labels⟩, .inr ⟨hopen, _, ?_, rfl⟩⟩
      · intro w hw
        exact Nat.lt_succ_of_lt (h.issued w hw)
      · exact h.unheld
  | wait id spec =>
    simp only [Desk.act, QueueLine.act]
    rw [← waits_eq]
    by_cases hid : d.waits id = true
    · rw [if_pos hid, if_pos hid]
      exact ⟨rfl, rfl, h.acted⟩
    · rw [if_neg hid, if_neg hid]
      rcases h.append spec with
        ⟨result, queue, hqueue, hline, hacted⟩ | ⟨hqueue, hline, hopen, hfull⟩
      · rw [hqueue, hline]
        exact ⟨rfl, rfl, hacted⟩
      · rw [hqueue, hline]
        obtain ⟨hshown, hacted⟩ := h.enlist spec (Bool.eq_false_iff.mpr hid) hopen hfull
        exact ⟨rfl, hshown, hacted⟩
  | cancel id => exact h.act_cancel id
  | take waits =>
    simp only [Desk.act, QueueLine.act]
    have hcore : d.shown.core.closed = d.queue.closed := rfl
    rw [hcore]
    by_cases hclosed : d.queue.closed = true
    · rw [if_pos hclosed, if_pos hclosed]
      exact ⟨rfl, rfl, h.acted⟩
    · rw [if_neg hclosed, if_neg hclosed]
      obtain ⟨hwaiting, hnext, hsame, -⟩ := TaskQueue.takeFirst_frame d.queue.channel d.queue
      have hpop : d.shown.core.pop = (d.queue.pop.1, d.queue.pop.2.bare) := d.queue.bare_pop
      rw [hpop, TaskQueue.pop_eq_grant]
      refine ⟨rfl, ?_, h.acted_of_grant (Bool.eq_false_iff.mpr hclosed)
        (hwaiting ▸ List.Sublist.refl _) hnext hsame⟩
      rw [shown_grant]
      simp only [shown]
      rw [hwaiting]
      rfl
  | close => exact ⟨rfl, rfl, ⟨⟨h.issued, h.labels⟩, .inl rfl⟩⟩

/-- A step is answered the same with tickets and without, and looks the same. -/
theorem Resting.step (h : d.Resting) (op : QueueOp) :
    (d.step op).1 = (d.shown.step op).1 ∧ (d.step op).2.shown = (d.shown.step op).2 ∧
      (d.step op).2.Resting := by
  obtain ⟨hanswer, hshown, hacted⟩ := h.act op
  obtain ⟨hresumed, hafter, hresting⟩ := hacted.settle
  simp only [Desk.step, QueueLine.step]
  rw [hanswer, hresumed, hafter, hshown]
  exact ⟨rfl, rfl, hresting⟩

/-- So are any number of steps. -/
theorem Resting.serveAll (h : d.Resting) (ops : List QueueOp) :
    (serveAll Desk.step ops d).1 = (serveAll QueueLine.step ops d.shown).1 ∧
      (serveAll Desk.step ops d).2.shown = (serveAll QueueLine.step ops d.shown).2 ∧
      (serveAll Desk.step ops d).2.Resting := by
  induction ops generalizing d with
  | nil => exact ⟨rfl, rfl, h⟩
  | cons op ops ih =>
    obtain ⟨hreply, hshown, hresting⟩ := h.step op
    obtain ⟨hreplies, hafter, hend⟩ := ih hresting
    simp only [ServingPlane.serveAll]
    rw [hreply, hreplies, hafter, hshown]
    exact ⟨rfl, rfl, hend⟩

end Desk

end ServingPlane
