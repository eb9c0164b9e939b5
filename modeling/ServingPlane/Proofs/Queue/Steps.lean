import Mathlib.Logic.Function.Basic
import ServingPlane.Proofs.Dict
import ServingPlane.Queue

/-! # The steps of appends and of the consumer

    An append looks whether its task waits, asks for a slot if it does
    not, gets one, and looks again; the consumer takes a name from the
    channel and then its spec.  Each of these is one atomic step, and
    anyone else may act between two of them.  Undisturbed, the steps of an
    append amount to the whole of it, and so do those of a take. -/

namespace ServingPlane

/-- How far an append has come. -/
inductive AppendStage where
  /-- It has not looked at the queue yet. -/
  | arrived
  /-- Its task did not wait when it looked; it has no slot yet. -/
  | absent
  /-- It has asked for a slot. -/
  | waiting (ticket : Nat)
  /-- It has got a slot, and has not looked again. -/
  | holding (ticket : Nat)
  | ended (result : AppendResult)
  /-- It has returned, or was given up. -/
  | gone
  deriving DecidableEq

namespace AppendStage

/-- The stage in which an append waits or has ended. -/
def ofStart : AppendStart → AppendStage
  | .finished result => .ended result
  | .waits ticket => .waiting ticket

/-- The ticket under which an append is known to the queue. -/
def ticket? : AppendStage → Option Nat
  | waiting ticket | holding ticket => some ticket
  | _ => none

/-- Whether an append has more steps to take. -/
def isUnderWay : AppendStage → Bool
  | ended _ | gone => false
  | _ => true

/-- Whether a step from one stage to another is the one that takes effect. -/
def takesEffect (before after : AppendStage) : Bool :=
  after = .ended .accepted && before ≠ .ended .accepted

theorem takesEffect_self (stage : AppendStage) : stage.takesEffect stage = false := by
  simp only [takesEffect]
  by_cases h : stage = .ended .accepted
  · rw [h]
    rfl
  · rw [decide_eq_false h]
    rfl

end AppendStage

/-- What the consumer does. -/
inductive Consumer where
  | idle
  /-- It asks for a name, and waits for one if told to. -/
  | receiving (waits : Bool)
  /-- It has taken a name from the channel, but not its spec. -/
  | received (waits : Bool) (name : String)
  deriving DecidableEq

/-- The name that the consumer has taken already. -/
def Consumer.taken : Consumer → List String
  | received _ name => [name]
  | _ => []

namespace TaskQueue

variable {q : TaskQueue} {spec : TaskSpec} {stage : AppendStage}

/-- Stand last among the waiting appends, with or without a slot. -/
def enlist (q : TaskQueue) (spec : TaskSpec) (granted : Bool) : TaskQueue :=
  { q with
    waiting := q.waiting ++ [⟨q.nextTicket, spec, granted⟩]
    nextTicket := q.nextTicket + 1 }

/-- Ask for a slot, which is granted if one is free. -/
def join (q : TaskQueue) (spec : TaskSpec) : TaskQueue := (q.enlist spec false).grant

/-- Whether the append under a ticket has been granted a slot. -/
def grants (q : TaskQueue) (ticket : Nat) : Bool :=
  q.waiting.any fun w => w.ticket = ticket && w.granted

/-- One step of an append. -/
def advance (q : TaskQueue) (spec : TaskSpec) : AppendStage → AppendStage × TaskQueue
  | .arrived =>
    if q.pending.contains spec.name then (.ended .accepted, q.record spec) else (.absent, q)
  | .absent => if q.closed then (.ended .closed, q) else (.waiting q.nextTicket, q.join spec)
  | .waiting ticket =>
    if q.closed then (.ended .closed, q.leave ticket)
    else if q.grants ticket then (.holding ticket, q)
    else (.waiting ticket, q)
  | .holding ticket => (.ended .accepted, ((q.leave ticket).record spec).grant)
  | .ended result => (.ended result, q)
  | .gone => (.gone, q)

/-- Some steps of an append with nothing between them. -/
def advances (q : TaskQueue) (spec : TaskSpec) : Nat → AppendStage → AppendStage × TaskQueue
  | 0, stage => (stage, q)
  | n + 1, stage => (q.advance spec stage).2.advances spec n (q.advance spec stage).1

/-- An append that is given up leaves the queue. -/
def giveUp (q : TaskQueue) : AppendStage → TaskQueue
  | .waiting ticket | .holding ticket => (q.cancel ticket).2
  | _ => q

/-- One step of the consumer, and what it gets by it. -/
def consume (q : TaskQueue) : Consumer → Consumer × TaskQueue × Option PopResult
  | .idle => (.idle, q, none)
  | .receiving waits =>
    match q.channel with
    | name :: rest => (.received waits name, { q with channel := rest }.grant, none)
    | [] =>
      if !waits then (.idle, q, some .nothingYet)
      else if q.producers = 0 then (.idle, q, some .drained)
      else (.receiving waits, q, none)
  | .received waits name =>
    match q.pending.get? name with
    | some spec => (.idle, { q with pending := q.pending.erase name }, some (.spec spec))
    | none => (.receiving waits, q, none)

/-- Recording writes the spec, and the name if it was not there. -/
theorem record_eq (q : TaskQueue) (spec : TaskSpec) :
    q.record spec = { q with
      pending := q.pending.insert spec.name spec
      channel :=
        if q.pending.contains spec.name then q.channel else q.channel ++ [spec.name] } := by
  simp only [record]
  by_cases h : q.pending.contains spec.name = true
  · rw [if_pos h, if_pos h]
  · rw [if_neg h, if_neg h]

/-! ## Slots -/

theorem grantSlots_map (n : Nat) (l : List WaitingAppend) :
    (grantSlots n l).map (fun w => (w.ticket, w.spec)) = l.map fun w => (w.ticket, w.spec) := by
  fun_induction grantSlots n l with
  | case1 => rfl
  | case2 => rfl
  | case3 n w r hw ih => rw [List.map_cons, List.map_cons, ih]
  | case4 n w r hw ih => rw [List.map_cons, List.map_cons, ih]

/-- Where everyone holds a slot, no more are given. -/
theorem grantSlots_of_granted {l : List WaitingAppend} (h : ∀ w ∈ l, w.granted = true) (n : Nat) :
    grantSlots n l = l := by
  fun_induction grantSlots n l with
  | case1 => rfl
  | case2 => rfl
  | case3 n w r hw ih => rw [ih fun x hx => h x (List.mem_cons_of_mem _ hx)]
  | case4 n w r hw ih => exact absurd (h w List.mem_cons_self) hw

theorem grantSlots_append {l : List WaitingAppend} (h : ∀ w ∈ l, w.granted = true) (n : Nat)
    (last : WaitingAppend) :
    grantSlots (n + 1) (l ++ [last]) = l ++ [{ last with granted := true }] := by
  induction l with
  | nil =>
    cases hlast : last.granted with
    | true =>
      show (if last.granted then _ else _) = _
      rw [if_pos hlast, ← hlast]
      rfl
    | false =>
      show (if last.granted then _ else _) = _
      rw [if_neg (by rw [hlast]; exact Bool.false_ne_true)]
      cases n <;> rfl
  | cons w l ih =>
    rw [List.cons_append, List.cons_append, ← ih fun x hx => h x (List.mem_cons_of_mem _ hx)]
    exact if_pos (h w List.mem_cons_self)

theorem grant_of_granted (h : ∀ w ∈ q.waiting, w.granted = true) : q.grant = q := by
  simp only [grant]
  rw [grantSlots_of_granted h]

theorem grant_of_full (h : q.freeSlots = 0) : q.grant = q := by
  simp only [grant]
  rw [h]
  cases hw : q.waiting with
  | nil => exact congrArg (fun l => { q with waiting := l }) hw.symm
  | cons w r => exact congrArg (fun l => { q with waiting := l }) hw.symm

/-! ## Undisturbed appends and takes -/

/-- Tickets are given out in order, and nobody waits while a slot is free. -/
structure Settled (q : TaskQueue) : Prop where
  issued : ∀ w ∈ q.waiting, w.ticket < q.nextTicket
  granted : q.freeSlots = 0 ∨ ∀ w ∈ q.waiting, w.granted = true

theorem join_of_full (h : q.freeSlots = 0) : q.join spec = q.enlist spec false := by
  refine grant_of_full ?_
  rw [← h]
  simp only [freeSlots, heldSlots, enlist]
  rw [List.countP_append]
  rfl

namespace Settled

theorem join_of_free (h : q.Settled) (hfree : 0 < q.freeSlots) :
    q.join spec = q.enlist spec true := by
  have hgranted : ∀ w ∈ q.waiting, w.granted = true :=
    h.granted.resolve_left (Nat.ne_of_gt hfree)
  have hslots : (q.enlist spec false).freeSlots = q.freeSlots - 1 + 1 := by
    rw [Nat.sub_add_cancel hfree]
    simp only [freeSlots, heldSlots, enlist]
    rw [List.countP_append]
    rfl
  show ({ q.enlist spec false with
    waiting := grantSlots (q.enlist spec false).freeSlots (q.waiting ++ [_]) } : TaskQueue) = _
  rw [hslots, grantSlots_append hgranted]
  rfl

theorem leave_enlist (h : q.Settled) (granted : Bool) :
    (q.enlist spec granted).leave q.nextTicket = { q with nextTicket := q.nextTicket + 1 } := by
  have hkeep : q.waiting.filter (·.ticket ≠ q.nextTicket) = q.waiting :=
    List.filter_eq_self.mpr fun w hw => decide_eq_true (Nat.ne_of_lt (h.issued w hw))
  have hdrop : [(⟨q.nextTicket, spec, granted⟩ : WaitingAppend)].filter
      (·.ticket ≠ q.nextTicket) = [] := by
    rw [List.filter_singleton]
    simp
  simp only [leave, enlist]
  rw [List.filter_append, hkeep, hdrop, List.append_nil]

theorem grants_enlist (h : q.Settled) (granted : Bool) :
    (q.enlist spec granted).grants q.nextTicket = granted := by
  have hnone : q.grants q.nextTicket = false := by
    refine List.any_eq_false.mpr fun w hw hc => ?_
    have hticket := (Bool.and_eq_true_iff.mp hc).1
    exact Nat.ne_of_lt (h.issued w hw) (of_decide_eq_true hticket)
  simp only [grants] at hnone ⊢
  simp only [enlist]
  rw [List.any_append, hnone]
  simp

end Settled

/-- Undisturbed, the steps of an append come to what the append as a whole
    comes to, but for the ticket that it used. -/
theorem advances_eq_append (h : q.Settled) (spec : TaskSpec) :
    ∃ n, q.advances spec 4 .arrived
      = (.ofStart (q.append spec).1, { (q.append spec).2 with nextTicket := n }) := by
  simp only [append]
  by_cases hpending : q.pending.contains spec.name = true
  · rw [if_pos hpending]
    refine ⟨(q.record spec).nextTicket, ?_⟩
    have hone : q.advance spec .arrived = (.ended .accepted, q.record spec) := if_pos hpending
    show advances (q.advance spec .arrived).2 spec 3 (q.advance spec .arrived).1 = _
    rw [hone]
    rfl
  rw [if_neg hpending]
  have hone : q.advance spec .arrived = (.absent, q) := if_neg hpending
  show ∃ n, advances (q.advance spec .arrived).2 spec 3 (q.advance spec .arrived).1 = _
  rw [hone]
  by_cases hclosed : q.closed = true
  · rw [if_pos hclosed]
    have htwo : q.advance spec .absent = (.ended .closed, q) := if_pos hclosed
    refine ⟨q.nextTicket, ?_⟩
    show advances (q.advance spec .absent).2 spec 2 (q.advance spec .absent).1 = _
    rw [htwo]
    rfl
  rw [if_neg hclosed]
  have htwo : q.advance spec .absent = (.waiting q.nextTicket, q.join spec) := if_neg hclosed
  show ∃ n, advances (q.advance spec .absent).2 spec 2 (q.advance spec .absent).1 = _
  rw [htwo]
  dsimp only
  -- nobody else waits while a slot is free, so the one that asks gets it
  by_cases hfree : 0 < q.freeSlots
  · rw [if_pos hfree, h.join_of_free hfree]
    have hthree : (q.enlist spec true).advance spec (.waiting q.nextTicket)
        = (.holding q.nextTicket, q.enlist spec true) :=
      (if_neg hclosed).trans (if_pos (h.grants_enlist true))
    have hgrant : (({ q with nextTicket := q.nextTicket + 1 } : TaskQueue).record spec).grant
        = ({ q with nextTicket := q.nextTicket + 1 } : TaskQueue).record spec := by
      refine grant_of_granted ?_
      rw [record_eq]
      exact h.granted.resolve_left (Nat.ne_of_gt hfree)
    simp only [advances]
    rw [hthree]
    show ∃ n,
      (AppendStage.ended _, (((q.enlist spec true).leave q.nextTicket).record spec).grant) = _
    rw [h.leave_enlist, hgrant, record_eq, record_eq]
    exact ⟨q.nextTicket + 1, rfl⟩
  · rw [if_neg hfree, join_of_full (Nat.eq_zero_of_not_pos hfree)]
    have hthree : (q.enlist spec false).advance spec (.waiting q.nextTicket)
        = (.waiting q.nextTicket, q.enlist spec false) := by
      refine (if_neg hclosed).trans (if_neg ?_)
      rw [h.grants_enlist]
      exact Bool.false_ne_true
    unfold advances
    rw [hthree]
    simp only [advances]
    rw [hthree]
    exact ⟨q.nextTicket + 1, rfl⟩

/-- Undisturbed, an append that waits goes on as a whole. -/
theorem advances_eq_resume (hdistinct : (q.waiting.map (·.ticket)).Nodup) {w : WaitingAppend}
    (hw : w ∈ q.waiting) :
    q.advances w.spec 2 (.waiting w.ticket)
      = (((q.resume w.ticket).1.map .ended).getD (.waiting w.ticket), (q.resume w.ticket).2) := by
  -- a ticket is enough to find the append
  have hown : ∀ x ∈ q.waiting, x.ticket = w.ticket → x = w :=
    fun x hx hticket => List.inj_on_of_nodup_map hdistinct hx hw hticket
  have hfind : q.waiting.find? (·.ticket = w.ticket) = some w := by
    cases hfound : q.waiting.find? (·.ticket = w.ticket) with
    | none => exact absurd (decide_eq_true rfl) (List.find?_eq_none.mp hfound w hw)
    | some x =>
      have hticket : x.ticket = w.ticket := by
        simpa only [decide_eq_true_eq] using List.find?_some hfound
      rw [hown x (List.mem_of_find?_eq_some hfound) hticket]
  have hgrants : q.grants w.ticket = w.granted := by
    rw [Bool.eq_iff_iff]
    simp only [grants]
    rw [List.any_eq_true]
    constructor
    · rintro ⟨x, hx, h⟩
      obtain ⟨hticket, hgranted⟩ := Bool.and_eq_true_iff.mp h
      rw [← hown x hx (of_decide_eq_true hticket)]
      exact hgranted
    · intro h
      exact ⟨w, hw, Bool.and_eq_true_iff.mpr ⟨decide_eq_true rfl, h⟩⟩
  simp only [advances, resume]
  rw [hfind]
  dsimp only [advance]
  by_cases hclosed : q.closed = true
  · rw [if_pos hclosed, if_pos hclosed]
    rfl
  · rw [if_neg hclosed, if_neg hclosed, hgrants]
    cases hgranted : w.granted with
    | true => rfl
    | false =>
      rw [if_neg Bool.false_ne_true, if_neg Bool.false_ne_true]
      show q.advance w.spec (.waiting w.ticket) = _
      refine (if_neg hclosed).trans (if_neg ?_)
      rw [hgrants, hgranted]
      exact Bool.false_ne_true

/-- Undisturbed, taking a name and then its spec is taking the oldest spec. -/
theorem consume_eq_pop {name : String} {rest : List String} (waits : Bool)
    (hchannel : q.channel = name :: rest) (hspec : q.pending.get? name = some spec) :
    let one := q.consume (.receiving waits)
    one.2.1.consume one.1 = (.idle, q.pop.2, some q.pop.1) := by
  have hone : q.consume (.receiving waits)
      = (.received waits name, { q with channel := rest }.grant, none) := by
    simp only [consume]
    rw [hchannel]
  have hpop : q.pop
      = (.spec spec, { q with channel := rest, pending := q.pending.erase name }.grant) := by
    simp only [pop]
    rw [hchannel, takeFirst, hspec]
  show (q.consume (.receiving waits)).2.1.consume (q.consume (.receiving waits)).1 = _
  rw [hone, hpop]
  show consume _ (.received waits name) = _
  simp only [consume]
  rw [show ({ q with channel := rest } : TaskQueue).grant.pending = q.pending from rfl, hspec]
  rfl

/-! ## All that a step of an append can do -/

/-- The tickets of the appends that wait, with their specs. -/
def tickets (q : TaskQueue) : List (Nat × TaskSpec) := q.waiting.map fun w => (w.ticket, w.spec)

theorem tickets_grant (q : TaskQueue) : q.grant.tickets = q.tickets :=
  grantSlots_map ..

theorem tickets_record (q : TaskQueue) (spec : TaskSpec) : (q.record spec).tickets = q.tickets := by
  rw [record_eq]
  rfl

theorem tickets_leave (q : TaskQueue) (ticket : Nat) :
    (q.leave ticket).tickets = q.tickets.filter (·.1 ≠ ticket) := by
  simp only [tickets, leave]
  rw [List.filter_map]
  rfl

theorem tickets_join (q : TaskQueue) (spec : TaskSpec) :
    (q.join spec).tickets = q.tickets ++ [(q.nextTicket, spec)] := by
  simp only [join]
  rw [tickets_grant]
  simp only [tickets, enlist]
  rw [List.map_append]
  rfl

/-- What one step of an append can do to its stage and the queue. -/
inductive AppendStep (q : TaskQueue) (spec : TaskSpec) :
    AppendStage → AppendStage → TaskQueue → Prop where
  /-- Its task waits; the spec is replaced. -/
  | replaced (h : q.pending.contains spec.name = true) :
    AppendStep q spec .arrived (.ended .accepted) (q.record spec)
  /-- Its task does not wait. -/
  | missed (h : q.pending.contains spec.name = false) : AppendStep q spec .arrived .absent q
  | refused (h : q.closed = true) : AppendStep q spec .absent (.ended .closed) q
  | joined (h : q.closed = false) :
    AppendStep q spec .absent (.waiting q.nextTicket) (q.join spec)
  /-- The consumer went away meanwhile. -/
  | turnedAway (ticket : Nat) (h : q.closed = true) :
    AppendStep q spec (.waiting ticket) (.ended .closed) (q.leave ticket)
  | granted (ticket : Nat) (h : q.grants ticket = true) :
    AppendStep q spec (.waiting ticket) (.holding ticket) q
  /-- It holds a slot; the spec is recorded. -/
  | recorded (ticket : Nat) :
    AppendStep q spec (.holding ticket) (.ended .accepted) ((q.leave ticket).record spec).grant
  | still (stage : AppendStage) : AppendStep q spec stage stage q

theorem advance_step (q : TaskQueue) (spec : TaskSpec) (stage : AppendStage) :
    AppendStep q spec stage (q.advance spec stage).1 (q.advance spec stage).2 := by
  simp only [advance]
  cases stage with
  | arrived =>
    by_cases h : q.pending.contains spec.name = true
    · dsimp only
      rw [if_pos h]
      exact .replaced h
    · dsimp only
      rw [if_neg h]
      exact .missed (Bool.eq_false_iff.mpr h)
  | absent =>
    by_cases h : q.closed = true
    · dsimp only
      rw [if_pos h]
      exact .refused h
    · dsimp only
      rw [if_neg h]
      exact .joined (Bool.eq_false_iff.mpr h)
  | waiting ticket =>
    by_cases hclosed : q.closed = true
    · dsimp only
      rw [if_pos hclosed]
      exact .turnedAway ticket hclosed
    · dsimp only
      rw [if_neg hclosed]
      by_cases hgranted : q.grants ticket = true
      · rw [if_pos hgranted]
        exact .granted ticket hgranted
      · rw [if_neg hgranted]
        exact .still _
  | holding ticket => exact .recorded ticket
  | ended result => exact .still _
  | gone => exact .still _

/-- A step of an append writes its spec when it takes effect, and nothing else. -/
theorem AppendStep.pending {after : AppendStage} {q' : TaskQueue}
    (h : AppendStep q spec stage after q') :
    q'.pending
      = if stage.takesEffect after then q.pending.insert spec.name spec else q.pending := by
  cases h with
  | replaced => rw [record_eq]; rfl
  | missed => rfl
  | refused => rfl
  | joined => rfl
  | turnedAway => rfl
  | granted => rfl
  | recorded ticket =>
    show ((q.leave ticket).record spec).pending = _
    rw [record_eq]
    rfl
  | still stage =>
    rw [AppendStage.takesEffect_self]
    rfl

/-- No step of an append adds or drops a producer, or closes the queue. -/
theorem AppendStep.ends {after : AppendStage} {q' : TaskQueue}
    (h : AppendStep q spec stage after q') :
    q'.closed = q.closed ∧ q'.producers = q.producers := by
  cases h with
  | replaced =>
    rw [record_eq]
    exact ⟨rfl, rfl⟩
  | missed => exact ⟨rfl, rfl⟩
  | refused => exact ⟨rfl, rfl⟩
  | joined => exact ⟨rfl, rfl⟩
  | turnedAway => exact ⟨rfl, rfl⟩
  | granted => exact ⟨rfl, rfl⟩
  | recorded ticket =>
    show ((q.leave ticket).record spec).closed = _ ∧ ((q.leave ticket).record spec).producers = _
    rw [record_eq]
    exact ⟨rfl, rfl⟩
  | still => exact ⟨rfl, rfl⟩

/-- An append that was under way goes on, takes effect or is refused. -/
theorem AppendStep.after_cases {after : AppendStage} {q' : TaskQueue}
    (h : AppendStep q spec stage after q') (hstage : stage.isUnderWay = true) :
    (stage.takesEffect after = true ∧ after = .ended .accepted) ∨
    (stage.takesEffect after = false ∧ after = .ended .closed) ∨
    stage.takesEffect after = false ∧ after.isUnderWay = true := by
  cases h with
  | replaced => exact .inl ⟨rfl, rfl⟩
  | missed => exact .inr (.inr ⟨rfl, rfl⟩)
  | refused => exact .inr (.inl ⟨rfl, rfl⟩)
  | joined => exact .inr (.inr ⟨rfl, rfl⟩)
  | turnedAway => exact .inr (.inl ⟨rfl, rfl⟩)
  | granted => exact .inr (.inr ⟨rfl, rfl⟩)
  | recorded => exact .inl ⟨rfl, rfl⟩
  | still => exact .inr (.inr ⟨AppendStage.takesEffect_self _, hstage⟩)

end TaskQueue

end ServingPlane
