import ServingPlane.Proofs.Queue.Coherence
import ServingPlane.Proofs.Queue.Tickets

/-! # Traffic through the queue

    Any number of appends and the one consumer go on step by step, in any
    order; appends may be given up and senders come and go.  What is seen
    of all this is what a backlog allows, whatever the order: one invariant
    ties the queue to the backlog that its trace leads to and each append
    to what was seen of it, and every step keeps it. -/

namespace ServingPlane

/-- A queue with the appends under way, its consumer, and what was seen so far. -/
structure Traffic where
  queue : TaskQueue
  calls : Nat → Option (TaskSpec × AppendStage)
  consumer : Consumer
  trace : List QueueEvent

namespace Traffic

/-- What may happen next. -/
inductive Action where
  /-- Somebody calls for an append. -/
  | call (id : Nat) (spec : TaskSpec)
  /-- An append goes one step on. -/
  | advance (id : Nat)
  /-- An append is given up. -/
  | abandon (id : Nat)
  /-- The consumer asks for a spec. -/
  | take (waits : Bool)
  /-- The consumer goes one step on. -/
  | consume
  | addSender
  | dropSender

/-- An empty queue with one sender. -/
def start (capacity : Nat) : Traffic := ⟨.new capacity, fun _ => none, .idle, []⟩

/-- Change the record of one append. -/
def note (t : Traffic) (id : Nat) (spec : TaskSpec) (stage : AppendStage) : Traffic :=
  { t with calls := Function.update t.calls id (some (spec, stage)) }

/-- Add to what was seen. -/
def see (t : Traffic) (event : QueueEvent) : Traffic := { t with trace := t.trace ++ [event] }

/-- An append goes one step on; one that has ended returns. -/
def advance (t : Traffic) (id : Nat) : Traffic :=
  match t.calls id with
  | none | some (_, .gone) => t
  | some (spec, .ended result) => (t.note id spec .gone).see (.returned id result)
  | some (spec, stage) =>
    let (after, queue) := t.queue.advance spec stage
    let t := { t with queue }.note id spec after
    if stage.takesEffect after then t.see (.effective id spec) else t

/-- An append that has not ended is given up. -/
def abandon (t : Traffic) (id : Nat) : Traffic :=
  match t.calls id with
  | none | some (_, .gone) | some (_, .ended _) => t
  | some (spec, stage) => { t with queue := t.queue.giveUp stage }.note id spec .gone

/-- The consumer goes one step on. -/
def consume (t : Traffic) : Traffic :=
  match t.queue.consume t.consumer with
  | (consumer, queue, none) => { t with consumer, queue }
  | (consumer, queue, some result) => { t with consumer, queue }.see (.ofPop result)

/-- One step; what cannot happen now changes nothing. -/
def step (t : Traffic) : Action → Traffic
  | .call id spec =>
    if (t.calls id).isSome ∨ t.queue.producers = 0 then t
    else (t.note id spec .arrived).see (.called id spec)
  | .advance id => t.advance id
  | .abandon id => t.abandon id
  | .take waits =>
    match t.consumer with
    | .idle => { t with consumer := .receiving waits }
    | _ => t
  | .consume => t.consume
  | .addSender =>
    if t.queue.producers = 0 then t
    else { t with queue := t.queue.addProducer }.see .senderAdded
  | .dropSender =>
    if t.queue.producers = 0 then t
    else { t with queue := t.queue.dropProducer }.see .senderGone

/-- Any number of steps from an empty queue. -/
def run (capacity : Nat) (actions : List Action) : Traffic := actions.foldl step (start capacity)

/-! ## The invariant -/

/-- What was seen of an append, by how far it has come. -/
inductive Story (id : Nat) : Option (TaskSpec × AppendStage) → List QueueEvent → Prop where
  | unused : Story id none []
  | underWay {spec : TaskSpec} {stage : AppendStage} (hstage : stage.isUnderWay = true) :
    Story id (some (spec, stage)) [.called id spec]
  | accepted {spec : TaskSpec} :
    Story id (some (spec, .ended .accepted)) [.called id spec, .effective id spec]
  | refused {spec : TaskSpec} : Story id (some (spec, .ended .closed)) [.called id spec]
  | abandoned {spec : TaskSpec} : Story id (some (spec, .gone)) [.called id spec]
  | returned {spec : TaskSpec} : Story id (some (spec, .gone))
    [.called id spec, .effective id spec, .returned id .accepted]
  | returnedRefused {spec : TaskSpec} :
    Story id (some (spec, .gone)) [.called id spec, .returned id .closed]

/-- The trace, against the appends, the senders and the backlog that there are. -/
structure Seen (trace : List QueueEvent) (calls : Nat → Option (TaskSpec × AppendStage))
    (producers : Nat) (backlog : Backlog) : Prop where
  replayed : Backlog.replay trace = some backlog
  senders : trace.foldl QueueEvent.senders 1 = producers
  told : ∀ id, Story id (calls id) (trace.filter (·.ofCall id))
  drained : ∀ {before later}, trace = before ++ .drained :: later →
    before.foldl QueueEvent.senders 1 = 0

/-- What every step keeps. -/
structure Sound (t : Traffic) : Prop where
  attended : t.queue.closed = false
  tracks : t.queue.Tracks t.calls
  coherent : t.queue.Coherent t.consumer.taken
  seen : Seen t.trace t.calls t.queue.producers (t.queue.backlog t.consumer.taken)

namespace Seen

variable {trace : List QueueEvent} {calls calls' : Nat → Option (TaskSpec × AppendStage)}
  {producers producers' : Nat} {backlog backlog' : Backlog} {event : QueueEvent} {id : Nat}
  {call : Option (TaskSpec × AppendStage)}

/-- One more event is seen, which the backlog allows and which tells the
    stories on. -/
theorem concat (h : Seen trace calls producers backlog)
    (hbacklog : backlog.observe event = some backlog')
    (hproducers : QueueEvent.senders producers event = producers')
    (htold : ∀ id, Story id (calls' id)
      (trace.filter (·.ofCall id) ++ if event.ofCall id then [event] else []))
    (hdrained : event = .drained → producers = 0) :
    Seen (trace ++ [event]) calls' producers' backlog' where
  replayed := by
    rw [Backlog.replay_concat, h.replayed]
    exact hbacklog
  senders := by
    rw [List.foldl_append, h.senders]
    exact hproducers
  told := by
    intro id
    rw [List.filter_append, List.filter_cons, List.filter_nil]
    exact htold id
  drained := by
    intro before later heq
    -- the split is at the new event or before it
    rcases List.eq_nil_or_concat later with rfl | ⟨rest, last, rfl⟩
    · obtain ⟨rfl, hevent⟩ := List.append_inj' heq rfl
      rw [h.senders]
      exact hdrained (List.singleton_inj.mp hevent)
    · rw [List.concat_eq_append, ← List.cons_append, ← List.append_assoc] at heq
      obtain ⟨rfl, -⟩ := List.append_inj' heq rfl
      exact h.drained rfl

/-- One more event of an append, which leaves all other stories alone. -/
theorem concat_call (h : Seen trace calls producers backlog)
    (hown : ∀ j, event.ofCall j = decide (id = j))
    (hbacklog : backlog.observe event = some backlog')
    (hproducers : QueueEvent.senders producers event = producers) (hdrained : event ≠ .drained)
    (hstory : ∀ l, Story id (calls id) l → Story id call (l ++ [event])) :
    Seen (trace ++ [event]) (Function.update calls id call) producers backlog' := by
  refine h.concat hbacklog hproducers (fun j => ?_) fun hc => absurd hc hdrained
  rw [hown]
  by_cases hj : id = j
  · subst hj
    rw [Function.update_self, decide_eq_true rfl]
    exact hstory _ (h.told id)
  · rw [Function.update_of_ne (Ne.symm hj), decide_eq_false hj, if_neg Bool.false_ne_true,
      List.append_nil]
    exact h.told j

/-- One more event that is not of an append. -/
theorem concat_other (h : Seen trace calls producers backlog)
    (hown : ∀ j, event.ofCall j = false) (hbacklog : backlog.observe event = some backlog')
    (hproducers : QueueEvent.senders producers event = producers')
    (hdrained : event = .drained → producers = 0) :
    Seen (trace ++ [event]) calls producers' backlog' := by
  refine h.concat hbacklog hproducers (fun j => ?_) hdrained
  rw [hown, if_neg Bool.false_ne_true, List.append_nil]
  exact h.told j

/-- An append goes on unseen. -/
theorem unseen (h : Seen trace calls producers backlog)
    (hstory : ∀ l, Story id (calls id) l → Story id call l) :
    Seen trace (Function.update calls id call) producers backlog where
  replayed := h.replayed
  senders := h.senders
  told := by
    intro j
    by_cases hj : j = id
    · subst hj
      rw [Function.update_self]
      exact hstory _ (h.told j)
    · rw [Function.update_of_ne hj]
      exact h.told j
  drained := h.drained

end Seen

/-- What was seen of an append that has not ended is its call. -/
theorem Story.of_underWay {id : Nat} {spec : TaskSpec} {stage : AppendStage} {l : List QueueEvent}
    (h : Story id (some (spec, stage)) l) (hstage : stage.isUnderWay = true) :
    l = [.called id spec] := by
  cases h with
  | underWay => rfl
  | accepted => exact nomatch hstage
  | refused => rfl
  | abandoned => rfl
  | returned => exact nomatch hstage
  | returnedRefused => exact nomatch hstage

/-- What was seen of an append that was told that it was accepted. -/
theorem Story.of_returned {id : Nat} {call : Option (TaskSpec × AppendStage)} {l : List QueueEvent}
    (h : Story id call l) (hreturned : .returned id .accepted ∈ l) :
    ∃ spec, l = [.called id spec, .effective id spec, .returned id .accepted] := by
  cases h with
  | @returned spec => exact ⟨spec, rfl⟩
  | _ => simp at hreturned

/-! ## Every step keeps it -/

variable {t : Traffic} {id : Nat} {spec : TaskSpec} {stage : AppendStage}

theorem sound_start (capacity : Nat) : (start capacity).Sound where
  attended := rfl
  tracks := ⟨fun _ hp => absurd hp List.not_mem_nil, List.nodup_nil, fun hc => (nomatch hc),
    fun hc => (nomatch hc)⟩
  coherent := TaskQueue.coherent_new capacity
  seen := by
    refine ⟨rfl, rfl, fun _ => .unused, fun {before later} heq => ?_⟩
    exact absurd heq.symm (List.append_ne_nil_of_right_ne_nil _ (List.cons_ne_nil _ _))

/-- An append arrives. -/
theorem Sound.call (h : t.Sound) (id : Nat) (spec : TaskSpec) (hid : t.calls id = none) :
    ((t.note id spec .arrived).see (.called id spec)).Sound where
  attended := h.attended
  tracks := h.tracks.unlist (TaskQueue.unlisted_some rfl)
  coherent := h.coherent
  seen := by
    refine h.seen.concat_call (fun _ => rfl) rfl rfl (fun hc => (nomatch hc)) fun l hl => ?_
    rw [hid] at hl
    cases hl with
    | unused => exact .underWay rfl

/-- An append that has ended returns. -/
theorem Sound.return (h : t.Sound) {result : AppendResult}
    (hid : t.calls id = some (spec, .ended result)) :
    ((t.note id spec .gone).see (.returned id result)).Sound where
  attended := h.attended
  tracks := h.tracks.unlist (TaskQueue.unlisted_some rfl)
  coherent := h.coherent
  seen := by
    refine h.seen.concat_call (fun _ => rfl) rfl rfl (fun hc => (nomatch hc)) fun l hl => ?_
    rw [hid] at hl
    cases hl with
    | underWay hstage => exact nomatch hstage
    | accepted => exact .returned
    | refused => exact .returnedRefused

/-- An append goes one step on. -/
theorem Sound.go (h : t.Sound) (hid : t.calls id = some (spec, stage))
    (hstage : stage.isUnderWay = true) :
    let after := (t.queue.advance spec stage).1
    let next := { t with queue := (t.queue.advance spec stage).2 }.note id spec after
    (if stage.takesEffect after then next.see (.effective id spec) else next).Sound := by
  intro after next
  have hstep := t.queue.advance_step spec stage
  obtain ⟨hcoherent, hbacklog⟩ := h.coherent.step hstep
  obtain ⟨hclosed, hproducers⟩ := hstep.ends
  have htracks : next.queue.Tracks next.calls := h.tracks.advance hid
  have hseen := h.seen
  rw [← hproducers] at hseen
  -- it takes effect, is refused, or goes on unseen
  rcases hstep.after_cases hstage with ⟨heffect, hafter⟩ | ⟨heffect, hafter⟩ | ⟨heffect, hafter⟩
  · rw [if_pos heffect]
    rw [if_pos heffect] at hbacklog
    refine ⟨hclosed.trans h.attended, htracks, hcoherent, ?_⟩
    refine hseen.concat_call (fun _ => rfl) (congrArg some hbacklog.symm) rfl
      (fun hc => (nomatch hc)) fun l hl => ?_
    rw [hid] at hl
    rw [hl.of_underWay hstage]
    show Story id (some (spec, (t.queue.advance spec stage).1)) _
    rw [hafter]
    exact .accepted
  · rw [if_neg (Bool.eq_false_iff.mp heffect)]
    rw [if_neg (Bool.eq_false_iff.mp heffect)] at hbacklog
    refine ⟨hclosed.trans h.attended, htracks, hcoherent, ?_⟩
    show Seen _ _ _ ((t.queue.advance spec stage).2.backlog t.consumer.taken)
    rw [hbacklog]
    refine hseen.unseen fun l hl => ?_
    rw [hid] at hl
    rw [hl.of_underWay hstage]
    show Story id (some (spec, (t.queue.advance spec stage).1)) _
    rw [hafter]
    exact .refused
  · rw [if_neg (Bool.eq_false_iff.mp heffect)]
    rw [if_neg (Bool.eq_false_iff.mp heffect)] at hbacklog
    refine ⟨hclosed.trans h.attended, htracks, hcoherent, ?_⟩
    show Seen _ _ _ ((t.queue.advance spec stage).2.backlog t.consumer.taken)
    rw [hbacklog]
    refine hseen.unseen fun l hl => ?_
    rw [hid] at hl
    rw [hl.of_underWay hstage]
    exact .underWay hafter

theorem Sound.advance (h : t.Sound) (id : Nat) : (t.advance id).Sound := by
  simp only [Traffic.advance]
  cases hid : t.calls id with
  | none => exact h
  | some call =>
    obtain ⟨spec, stage⟩ := call
    cases stage with
    | gone => exact h
    | ended result => exact h.return hid
    | arrived => exact h.go hid rfl
    | absent => exact h.go hid rfl
    | waiting ticket => exact h.go hid rfl
    | holding ticket => exact h.go hid rfl

/-- An append that has not ended is given up. -/
theorem Sound.drop (h : t.Sound) (hid : t.calls id = some (spec, stage))
    (hstage : stage.isUnderWay = true) :
    ({ t with queue := t.queue.giveUp stage }.note id spec .gone).Sound := by
  have hsame : (t.queue.giveUp stage).closed = t.queue.closed ∧
      (t.queue.giveUp stage).producers = t.queue.producers ∧
      (t.queue.giveUp stage).channel = t.queue.channel ∧
      (t.queue.giveUp stage).pending = t.queue.pending := by
    cases stage <;> exact ⟨rfl, rfl, rfl, rfl⟩
  obtain ⟨hclosed, hproducers, hchannel, hpending⟩ := hsame
  refine ⟨hclosed.trans h.attended, h.tracks.giveUp hid (TaskQueue.unlisted_some rfl),
    h.coherent.congr hchannel hpending, ?_⟩
  show Seen _ _ (t.queue.giveUp stage).producers ((t.queue.giveUp stage).backlog t.consumer.taken)
  rw [hproducers, TaskQueue.backlog_congr hchannel hpending]
  refine h.seen.unseen fun l hl => ?_
  rw [hid] at hl
  rw [hl.of_underWay hstage]
  exact .abandoned

theorem Sound.abandon (h : t.Sound) (id : Nat) : (t.abandon id).Sound := by
  simp only [Traffic.abandon]
  cases hid : t.calls id with
  | none => exact h
  | some call =>
    obtain ⟨spec, stage⟩ := call
    cases stage with
    | gone => exact h
    | ended result => exact h
    | arrived => exact h.drop hid rfl
    | absent => exact h.drop hid rfl
    | waiting ticket => exact h.drop hid rfl
    | holding ticket => exact h.drop hid rfl

/-- The consumer asks, which nobody sees as yet. -/
theorem Sound.take (h : t.Sound) (hidle : t.consumer = .idle) (waits : Bool) :
    ({ t with consumer := .receiving waits } : Traffic).Sound := by
  obtain ⟨hattended, htracks, hcoherent, hseen⟩ := h
  rw [hidle] at hcoherent hseen
  exact ⟨hattended, htracks, hcoherent, hseen⟩

/-- The consumer finds the channel empty, and takes note or waits. -/
theorem Sound.find_empty (h : t.Sound) {waits : Bool} (hconsumer : t.consumer = .receiving waits)
    (hchannel : t.queue.channel = []) (result : PopResult)
    (hresult : result = .nothingYet ∨ result = .drained ∧ t.queue.producers = 0) :
    ({ t with consumer := .idle }.see (.ofPop result)).Sound := by
  obtain ⟨hattended, htracks, hcoherent, hseen⟩ := h
  rw [hconsumer] at hcoherent hseen
  refine ⟨hattended, htracks, hcoherent, ?_⟩
  -- the channel is empty and no name is taken, so nothing waits
  have hempty : t.queue.backlog (Consumer.receiving waits).taken = [] := by
    simp only [TaskQueue.backlog]
    rw [hchannel]
    rfl
  have hbacklog : t.queue.backlog Consumer.idle.taken = [] := hempty
  show Seen (t.trace ++ [.ofPop result]) _ _ (t.queue.backlog Consumer.idle.taken)
  rw [hempty] at hseen
  rw [hbacklog]
  rcases hresult with rfl | ⟨rfl, hnone⟩
  · exact hseen.concat_other (fun _ => rfl) rfl rfl (by rintro ⟨⟩)
  · exact hseen.concat_other (fun _ => rfl) rfl rfl fun _ => hnone

/-- The consumer takes a name from the channel. -/
theorem Sound.receive (h : t.Sound) {waits : Bool} (hconsumer : t.consumer = .receiving waits)
    {name : String} {rest : List String} (hchannel : t.queue.channel = name :: rest) :
    ({ t with
      queue := { t.queue with channel := rest }.grant
      consumer := .received waits name } : Traffic).Sound := by
  obtain ⟨hattended, htracks, hcoherent, hseen⟩ := h
  rw [hconsumer] at hcoherent hseen
  refine ⟨hattended, htracks.of_tickets (TaskQueue.tickets_grant _) rfl,
    hcoherent.receive hchannel, ?_⟩
  show Seen _ _ _ ({ t.queue with channel := rest }.grant.backlog [name])
  rw [TaskQueue.Coherent.backlog_receive hchannel]
  exact hseen

/-- The consumer is handed the spec of the name that it took. -/
theorem Sound.hand (h : t.Sound) {waits : Bool} {name : String}
    (hconsumer : t.consumer = .received waits name)
    (hspec : t.queue.pending.get? name = some spec) :
    ({ t with
      queue := { t.queue with pending := t.queue.pending.erase name }
      consumer := .idle }.see (.delivered spec)).Sound := by
  obtain ⟨hattended, htracks, hcoherent, hseen⟩ := h
  rw [hconsumer] at hcoherent hseen
  refine ⟨hattended, htracks.of_tickets rfl rfl, hcoherent.hand, ?_⟩
  refine hseen.concat_other (fun _ => rfl) ?_ rfl fun hc => (nomatch hc)
  show (t.queue.backlog [name]).observe _ = _
  rw [hcoherent.backlog_hand hspec]
  exact if_pos rfl

theorem Sound.consume (h : t.Sound) : t.consume.Sound := by
  have hsame : ∀ {consumer}, t.consumer = consumer → ({ t with consumer } : Traffic).Sound := by
    rintro _ rfl
    exact h
  simp only [Traffic.consume, TaskQueue.consume]
  cases hconsumer : t.consumer with
  | idle => exact hsame hconsumer
  | receiving waits =>
    cases hchannel : t.queue.channel with
    | nil =>
      cases waits with
      | false => exact h.find_empty hconsumer hchannel .nothingYet (.inl rfl)
      | true =>
        dsimp only
        by_cases hnone : t.queue.producers = 0
        · rw [if_neg (by decide), if_pos hnone]
          exact h.find_empty hconsumer hchannel .drained (.inr ⟨rfl, hnone⟩)
        · rw [if_neg (by decide), if_neg hnone]
          exact hsame hconsumer
    | cons name rest => exact h.receive hconsumer hchannel
  | received waits name =>
    -- while the consumer is there, the name that it took has a spec
    have hcoherent := h.coherent
    rw [hconsumer] at hcoherent
    obtain ⟨spec, hspec⟩ := hcoherent.spec_of_taken
    dsimp only
    rw [hspec]
    exact h.hand hconsumer hspec

/-- A sender comes or goes. -/
theorem Sound.resend (h : t.Sound) {producers : Nat} {event : QueueEvent}
    (hevent : event = .senderAdded ∨ event = .senderGone)
    (hproducers : QueueEvent.senders t.queue.producers event = producers) :
    ({ t with queue := { t.queue with producers } }.see event).Sound where
  attended := h.attended
  tracks := h.tracks.of_tickets rfl rfl
  coherent := h.coherent.congr rfl rfl
  seen := by
    rcases hevent with rfl | rfl
    · exact h.seen.concat_other (fun _ => rfl) rfl hproducers fun hc => (nomatch hc)
    · exact h.seen.concat_other (fun _ => rfl) rfl hproducers fun hc => (nomatch hc)

/-- Every step keeps the invariant. -/
theorem Sound.step (h : t.Sound) (action : Action) : (t.step action).Sound := by
  simp only [Traffic.step]
  cases action with
  | call id spec =>
    dsimp only
    by_cases hcannot : (t.calls id).isSome ∨ t.queue.producers = 0
    · rw [if_pos hcannot]
      exact h
    · rw [if_neg hcannot]
      exact h.call id spec (Option.not_isSome_iff_eq_none.mp fun hc => hcannot (.inl hc))
  | advance id => exact h.advance id
  | abandon id => exact h.abandon id
  | take waits =>
    dsimp only
    cases hconsumer : t.consumer with
    | idle => exact h.take hconsumer waits
    | receiving => exact h
    | received => exact h
  | consume => exact h.consume
  | addSender =>
    dsimp only
    by_cases hnone : t.queue.producers = 0
    · rw [if_pos hnone]
      exact h
    · rw [if_neg hnone]
      exact h.resend (.inl rfl) rfl
  | dropSender =>
    dsimp only
    by_cases hnone : t.queue.producers = 0
    · rw [if_pos hnone]
      exact h
    · rw [if_neg hnone]
      exact h.resend (.inr rfl) rfl

/-- Every run keeps the invariant. -/
theorem sound_run (capacity : Nat) (actions : List Action) : (run capacity actions).Sound :=
  List.foldlRecOn actions step (sound_start capacity) fun _ h action _ => h.step action

/-- The backlog that the queue holds, the front first. -/
def backlog (t : Traffic) : Backlog := t.queue.backlog t.consumer.taken

/-- Whatever the capacity and the order of steps, the queue is a backlog to
    whoever sees it.  An append that is told that it was accepted took
    effect once, between its call and its return.  What takes are given is
    what the backlog of the effective appends holds at its front: a task's
    newest spec, once.  An effective append is delivered next, or replaced
    by the next effective one of its task, or waits.  A take is told that
    nothing more comes only when no sender is left and nothing waits, and
    then every effective append was followed by a delivery of its task. -/
theorem traffic_refines_backlog (capacity : Nat) (actions : List Action) :
    let t := run capacity actions
    Backlog.replay t.trace = some t.backlog ∧
    (∀ id, .returned id .accepted ∈ t.trace → ∃ spec, t.trace.filter (·.ofCall id)
      = [.called id spec, .effective id spec, .returned id .accepted]) ∧
    (∀ before spec later, t.trace = before ++ .delivered spec :: later →
      ∃ earlier id since, before = earlier ++ .effective id spec :: since ∧
        ∀ event ∈ since, event.task ≠ some spec.name) ∧
    (∀ before id spec later, t.trace = before ++ .effective id spec :: later →
      (∃ between event rest, later = between ++ event :: rest ∧
        (∀ x ∈ between, x.task ≠ some spec.name) ∧
        (event = .delivered spec ∨
          ∃ other newer, event = .effective other newer ∧ newer.name = spec.name)) ∨
      (∀ x ∈ later, x.task ≠ some spec.name) ∧ (spec.name, spec) ∈ t.backlog) ∧
    ∀ before later, t.trace = before ++ .drained :: later →
      before.foldl QueueEvent.senders 1 = 0 ∧ Backlog.replay before = some [] ∧
      ∀ earlier id spec since, before = earlier ++ .effective id spec :: since →
        ∃ given, .delivered given ∈ since ∧ given.name = spec.name := by
  intro t
  have h : t.Sound := sound_run capacity actions
  have hreplay : Backlog.replay t.trace = some t.backlog := h.seen.replayed
  refine ⟨hreplay, fun id hreturned => ?_, fun before spec later htrace => ?_,
    fun before id spec later htrace => ?_, fun before later htrace => ?_⟩
  · exact (h.seen.told id).of_returned
      (List.mem_filter.mpr ⟨hreturned, decide_eq_true rfl⟩)
  · exact Backlog.newest_of_delivered (htrace ▸ hreplay)
  · exact Backlog.fate (htrace ▸ hreplay)
  · have hempty : Backlog.replay before = some [] :=
      Backlog.replay_of_drained (htrace ▸ hreplay)
    refine ⟨h.seen.drained htrace, hempty, fun earlier id spec since hbefore => ?_⟩
    by_contra hnone
    obtain ⟨e, he, -⟩ := Backlog.waits_of_undelivered (hbefore ▸ hempty)
      fun given hgiven hname => hnone ⟨given, hgiven, hname⟩
    exact absurd he List.not_mem_nil

/-- Two appends of one task wait for the one slot.  The first to get it
    adds the task; the other, which is granted the slot that the consumer
    frees by taking that task, finds it waiting still and replaces its spec. -/
example (x y newer : TaskSpec) (hx : x = { TaskSpec.blank with name := "x" })
    (hy : y = { TaskSpec.blank with name := "y" }) (hnewer : newer = { y with replica := 2 }) :
    (run 1 [.call 0 x, .advance 0, .advance 0, .advance 0, .advance 0, .call 1 y, .call 2 newer,
      .advance 1, .advance 1, .advance 2, .advance 2, .take true, .consume, .advance 1, .advance 1,
      .consume, .take false, .consume, .advance 2, .advance 2, .consume]).trace
      = [.called 0 x, .effective 0 x, .called 1 y, .called 2 newer, .effective 1 y, .delivered x,
        .effective 2 newer, .delivered newer] := by
  subst hx hy hnewer
  rfl

end Traffic

end ServingPlane
