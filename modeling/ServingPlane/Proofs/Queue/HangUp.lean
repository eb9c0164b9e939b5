import ServingPlane.Proofs.Queue.Traffic

/-! # Once the consumer is gone

    A queue that nobody takes from accepts no append that comes to it with
    nothing in hand: one that waits for a slot is turned away, and so is
    one that arrives, unless its task waits already.  An append that holds
    its slot, and one of a task that waits, are recorded all the same; so
    the tasks of which something can still be recorded are known when the
    consumer goes. -/

namespace ServingPlane

namespace TaskQueue

variable {q q' : TaskQueue} {calls : Nat → Option (TaskSpec × AppendStage)} {i : Nat}
  {name : String} {spec : TaskSpec} {stage after : AppendStage}
  {call : Option (TaskSpec × AppendStage)}

/-- Nobody takes specs any more, none of the task waits, and no append of it
    has a slot in hand. -/
structure Forsakes (q : TaskQueue) (calls : Nat → Option (TaskSpec × AppendStage))
    (name : String) : Prop where
  closed : q.closed = true
  absent : q.pending.get? name = none
  unheld : ∀ {i spec ticket}, calls i = some (spec, .holding ticket) → spec.name ≠ name

/-- An append comes too late: it waits, or has not found its task, and
    nobody takes specs any more; or it has just arrived and its task is
    forsaken. -/
def Late (q : TaskQueue) (calls : Nat → Option (TaskSpec × AppendStage)) (spec : TaskSpec) :
    AppendStage → Prop
  | .arrived => q.Forsakes calls spec.name
  | .absent | .waiting _ => q.closed = true
  | _ => False

/-- An append without a slot, or of another task. -/
def EmptyHanded (name : String) (call : Option (TaskSpec × AppendStage)) : Prop :=
  ∀ spec ticket, call = some (spec, .holding ticket) → spec.name ≠ name

theorem emptyHanded_of_stage (h : ∀ ticket, stage ≠ .holding ticket) :
    EmptyHanded name (some (spec, stage)) := by
  rintro _ ticket ⟨⟩
  exact absurd rfl (h ticket)

theorem emptyHanded_none : EmptyHanded name none := fun _ _ hc => (nomatch hc)

/-- No append gets a slot any more. -/
theorem advance_ne_holding (h : q.closed = true) (spec : TaskSpec) (stage : AppendStage)
    (ticket : Nat) : (q.advance spec stage).1 ≠ .holding ticket := by
  simp only [TaskQueue.advance]
  cases stage with
  | arrived =>
    dsimp only
    split
    · rintro ⟨⟩
    · rintro ⟨⟩
  | absent =>
    dsimp only
    rw [if_pos h]
    rintro ⟨⟩
  | waiting ticket' =>
    dsimp only
    rw [if_pos h]
    rintro ⟨⟩
  | _ => rintro ⟨⟩

theorem closed_consume (q : TaskQueue) (consumer : Consumer) :
    (q.consume consumer).2.1.closed = q.closed := by
  simp only [TaskQueue.consume]
  split
  · rfl
  · split
    · rfl
    · split
      · rfl
      · split
        · rfl
        · rfl
  · split
    · rfl
    · rfl

namespace Forsakes

/-- A queue in which no more waits, with one append that has got no slot. -/
theorem update (h : q.Forsakes calls name) (hclosed : q'.closed = q.closed)
    (hpending : q'.pending.get? name = none) (hcall : EmptyHanded name call) :
    q'.Forsakes (Function.update calls i call) name where
  closed := hclosed.trans h.closed
  absent := hpending
  unheld := by
    intro j spec ticket hj
    by_cases hji : j = i
    · subst hji
      rw [Function.update_self] at hj
      exact hcall spec ticket hj
    · rw [Function.update_of_ne hji] at hj
      exact h.unheld hj

/-- Nothing of a forsaken task is accepted. -/
theorem not_takesEffect (h : q.Forsakes calls name) (hi : calls i = some (spec, stage))
    (hname : spec.name = name) (hstep : q.AppendStep spec stage after q') :
    stage.takesEffect after = false := by
  cases hstep with
  | replaced hpending =>
    obtain ⟨found, hfound⟩ := Dict.contains_eq_true_iff.mp hpending
    rw [hname, h.absent] at hfound
    cases hfound
  | recorded => exact absurd hname (h.unheld hi)
  | still => exact AppendStage.takesEffect_self _
  | _ => rfl

/-- A step of an append, of whatever task, leaves a forsaken task forsaken. -/
theorem advance (h : q.Forsakes calls name) (hi : calls i = some (spec, stage)) :
    (q.advance spec stage).2.Forsakes
      (Function.update calls i (some (spec, (q.advance spec stage).1))) name := by
  have hstep := q.advance_step spec stage
  refine h.update hstep.ends.1 ?_ (emptyHanded_of_stage (advance_ne_holding h.closed spec stage))
  rw [hstep.pending]
  by_cases heffect : stage.takesEffect (q.advance spec stage).1 = true
  · -- what takes effect is of another task
    have hname : name ≠ spec.name := by
      rintro rfl
      rw [h.not_takesEffect hi rfl hstep] at heffect
      cases heffect
    rw [if_pos heffect, Dict.get?_insert_of_ne _ _ hname]
    exact h.absent
  · rw [if_neg heffect]
    exact h.absent

/-- An append is given up. -/
theorem giveUp (h : q.Forsakes calls name) (stage : AppendStage) (hcall : EmptyHanded name call) :
    (q.giveUp stage).Forsakes (Function.update calls i call) name := by
  cases stage with
  | _ => exact h.update rfl h.absent hcall

/-- The consumer's part is to take away. -/
theorem consume (h : q.Forsakes calls name) (consumer : Consumer) :
    (q.consume consumer).2.1.Forsakes calls name := by
  refine ⟨(q.closed_consume consumer).trans h.closed, ?_, h.unheld⟩
  have hnone := h.absent
  simp only [TaskQueue.consume]
  split
  · exact hnone
  · split
    · exact hnone
    · split
      · exact hnone
      · split
        · exact hnone
        · exact hnone
  · split
    · rename_i taken _ _ _
      show (q.pending.erase taken).get? name = none
      by_cases hname : name = taken
      · rw [hname]
        exact Dict.get?_erase_self ..
      · rw [Dict.get?_erase_of_ne _ hname]
        exact hnone
    · exact hnone

end Forsakes

/-- An append that comes too late leaves what waits alone, and has its
    answer as soon as it has looked. -/
theorem Late.advance (h : q.Late calls spec stage) :
    (q.advance spec stage).2.pending = q.pending ∧
    ((stage = .arrived ∧ (q.advance spec stage).1 = .absent) ∨
      (stage ≠ .arrived ∧ (q.advance spec stage).1 = .ended .closed)) := by
  cases stage with
  | arrived =>
    have hmiss : ¬ q.pending.contains spec.name = true := by
      rw [Dict.contains_eq_true_iff, h.absent]
      rintro ⟨_, ⟨⟩⟩
    have hstep : q.advance spec .arrived = (.absent, q) := if_neg hmiss
    rw [hstep]
    exact ⟨rfl, .inl ⟨rfl, rfl⟩⟩
  | absent =>
    have hstep : q.advance spec .absent = (.ended .closed, q) := if_pos h
    rw [hstep]
    exact ⟨rfl, .inr ⟨AppendStage.noConfusion, rfl⟩⟩
  | waiting ticket =>
    have hstep : q.advance spec (.waiting ticket) = (.ended .closed, q.leave ticket) := if_pos h
    rw [hstep]
    exact ⟨rfl, .inr ⟨AppendStage.noConfusion, rfl⟩⟩
  | holding => cases h
  | ended => cases h
  | gone => cases h

theorem Late.underWay (h : q.Late calls spec stage) : stage.isUnderWay = true := by
  cases stage with
  | ended => cases h
  | gone => cases h
  | _ => rfl

theorem Late.closed (h : q.Late calls spec stage) : q.closed = true := by
  cases stage with
  | arrived => exact h.closed
  | absent => exact h
  | waiting ticket => exact h
  | holding => cases h
  | ended => cases h
  | gone => cases h

end TaskQueue

namespace Traffic

variable {t t' : Traffic} {id : Nat} {name : String} {spec : TaskSpec} {stage : AppendStage}
  {told : List QueueEvent}

/-- The consumer goes away, whatever it was about to do. -/
def hangUp (t : Traffic) : Traffic := { t with queue := t.queue.close, consumer := .idle }

/-- Whether an action lets the append under an index go on. -/
def Action.advances (id : Nat) : Action → Bool
  | advance j => j = id
  | _ => false

theorem eq_advance {action : Action} (h : action.advances id = true) : action = .advance id := by
  cases action with
  | advance other => rw [of_decide_eq_true h]
  | _ => cases h

/-- Whether an action gives up the append under an index. -/
def Action.abandons (id : Nat) : Action → Bool
  | abandon j => j = id
  | _ => false

/-- An append under way, one step further on. -/
def moved (t : Traffic) (id : Nat) (spec : TaskSpec) (stage : AppendStage) : Traffic :=
  { t with queue := (t.queue.advance spec stage).2 }.note id spec (t.queue.advance spec stage).1

/-- An append under way goes one step on, which is seen if it takes effect. -/
theorem advance_of_underWay (hid : t.calls id = some (spec, stage))
    (hstage : stage.isUnderWay = true) :
    t.advance id = if stage.takesEffect (t.queue.advance spec stage).1
      then (t.moved id spec stage).see (.effective id spec) else t.moved id spec stage := by
  simp only [Traffic.advance]
  rw [hid]
  cases stage with
  | ended => cases hstage
  | gone => cases hstage
  | _ => rfl

/-- Once it has ended, an append returns. -/
theorem advance_of_ended {result : AppendResult} (hid : t.calls id = some (spec, .ended result)) :
    t.advance id = (t.note id spec .gone).see (.returned id result) := by
  simp only [Traffic.advance]
  rw [hid]

theorem advance_of_over (hid : t.calls id = none ∨ ∃ spec, t.calls id = some (spec, .gone)) :
    t.advance id = t := by
  simp only [Traffic.advance]
  rcases hid with hid | ⟨spec, hid⟩
  · rw [hid]
  · rw [hid]

/-- A step of an append that is over is none; any other is a return, or one
    under way, which may be seen. -/
theorem advance_cases (t : Traffic) (id : Nat) : t.advance id = t ∨
    (∃ spec result, t.advance id = (t.note id spec .gone).see (.returned id result)) ∨
    ∃ spec stage, t.calls id = some (spec, stage) ∧ (t.advance id = t.moved id spec stage ∨
      t.advance id = (t.moved id spec stage).see (.effective id spec)) := by
  cases hid : t.calls id with
  | none => exact .inl (advance_of_over (.inl hid))
  | some call =>
    obtain ⟨spec, stage⟩ := call
    cases hstage : stage.isUnderWay with
    | true =>
      refine .inr (.inr ⟨spec, stage, rfl, ?_⟩)
      rw [advance_of_underWay hid hstage]
      split
      · exact .inr rfl
      · exact .inl rfl
    | false =>
      cases stage with
      | ended result => exact .inr (.inl ⟨spec, result, advance_of_ended hid⟩)
      | gone => exact .inl (advance_of_over (.inr ⟨spec, hid⟩))
      | _ => cases hstage

/-- Only an append under way is given up. -/
theorem abandon_cases (t : Traffic) (id : Nat) : t.abandon id = t ∨ ∃ spec stage,
    t.abandon id = { t with queue := t.queue.giveUp stage }.note id spec .gone := by
  simp only [Traffic.abandon]
  split
  · exact .inl rfl
  · exact .inl rfl
  · exact .inl rfl
  · exact .inr ⟨_, _, rfl⟩

/-- A step of the consumer is one of the queue, which may be seen. -/
theorem consume_cases (t : Traffic) :
    ∃ next : Traffic, (∃ consumer, next = { t with
      queue := (t.queue.consume t.consumer).2.1, consumer }) ∧
    (t.consume = next ∨ ∃ result, t.consume = next.see (.ofPop result)) := by
  simp only [Traffic.consume]
  split
  · rename_i heq
    rw [heq]
    exact ⟨_, ⟨_, rfl⟩, .inl rfl⟩
  · rename_i heq
    rw [heq]
    exact ⟨_, ⟨_, rfl⟩, .inr ⟨_, rfl⟩⟩

/-! ## Forsaken tasks -/

theorem emptyHanded_gone : TaskQueue.EmptyHanded name (some (spec, .gone)) :=
  TaskQueue.emptyHanded_of_stage fun _ => AppendStage.noConfusion

theorem forsakes_advance (h : t.queue.Forsakes t.calls name) (id : Nat) :
    (t.advance id).queue.Forsakes (t.advance id).calls name := by
  obtain hsame | ⟨spec, result, hreturn⟩ | ⟨spec, stage, hid, hmoved | hmoved⟩ := t.advance_cases id
  · rw [hsame]
    exact h
  · rw [hreturn]
    exact h.update rfl h.absent emptyHanded_gone
  · rw [hmoved]
    exact h.advance hid
  · rw [hmoved]
    exact h.advance hid

theorem forsakes_abandon (h : t.queue.Forsakes t.calls name) (id : Nat) :
    (t.abandon id).queue.Forsakes (t.abandon id).calls name := by
  obtain hsame | ⟨spec, stage, hgone⟩ := t.abandon_cases id
  · rw [hsame]
    exact h
  · rw [hgone]
    exact h.giveUp stage emptyHanded_gone

theorem forsakes_consume (h : t.queue.Forsakes t.calls name) :
    t.consume.queue.Forsakes t.consume.calls name := by
  obtain ⟨_, ⟨consumer, rfl⟩, hnext | ⟨result, hnext⟩⟩ := t.consume_cases
  · rw [hnext]
    exact h.consume t.consumer
  · rw [hnext]
    exact h.consume t.consumer

/-- Whatever is done, a forsaken task stays forsaken. -/
theorem forsakes_step (h : t.queue.Forsakes t.calls name) (action : Action) :
    (t.step action).queue.Forsakes (t.step action).calls name := by
  cases action with
  | call id spec =>
    simp only [step]
    split
    · exact h
    · exact h.update rfl h.absent (TaskQueue.emptyHanded_of_stage fun _ => AppendStage.noConfusion)
  | advance id => exact forsakes_advance h id
  | abandon id => exact forsakes_abandon h id
  | take waits =>
    simp only [step]
    split
    · exact h
    · exact h
  | consume => exact forsakes_consume h
  | addSender =>
    simp only [step]
    split
    · exact h
    · exact ⟨h.closed, h.absent, h.unheld⟩
  | dropSender =>
    simp only [step]
    split
    · exact h
    · exact ⟨h.closed, h.absent, h.unheld⟩

theorem forsakes_foldl (h : t.queue.Forsakes t.calls name) (actions : List Action) :
    (actions.foldl step t).queue.Forsakes (actions.foldl step t).calls name := by
  induction actions generalizing t with
  | nil => exact h
  | cons action actions ih => exact ih (forsakes_step h action)

/-! ## What others leave alone -/

theorem closed_advance (t : Traffic) (id : Nat) : (t.advance id).queue.closed = t.queue.closed := by
  obtain hsame | ⟨spec, result, hreturn⟩ | ⟨spec, stage, -, hmoved | hmoved⟩ := t.advance_cases id
  · rw [hsame]
  · rw [hreturn]
    rfl
  · rw [hmoved]
    exact (t.queue.advance_step spec stage).ends.1
  · rw [hmoved]
    exact (t.queue.advance_step spec stage).ends.1

/-- Nobody but the consumer closes the queue. -/
theorem closed_step (t : Traffic) (action : Action) :
    (t.step action).queue.closed = t.queue.closed := by
  cases action with
  | advance id => exact closed_advance t id
  | abandon id =>
    obtain hsame | ⟨spec, stage, hgone⟩ := t.abandon_cases id
    · exact congrArg (·.queue.closed) hsame
    · refine (congrArg (·.queue.closed) hgone).trans ?_
      cases stage with
      | _ => rfl
  | consume =>
    obtain ⟨_, ⟨consumer, rfl⟩, hnext | ⟨result, hnext⟩⟩ := t.consume_cases
    · exact (congrArg (·.queue.closed) hnext).trans (t.queue.closed_consume t.consumer)
    · exact (congrArg (·.queue.closed) hnext).trans (t.queue.closed_consume t.consumer)
  | _ =>
    simp only [step]
    split
    · rfl
    · rfl

theorem closed_foldl (t : Traffic) (actions : List Action) :
    (actions.foldl step t).queue.closed = t.queue.closed := by
  induction actions generalizing t with
  | nil => rfl
  | cons action actions ih => exact (ih (t.step action)).trans (closed_step t action)

/-- What was seen of an append. -/
def story (t : Traffic) (id : Nat) : List QueueEvent := t.trace.filter (·.ofCall id)

/-- An append is where it was, with nothing more seen of it. -/
structure Spares (t : Traffic) (id : Nat) (t' : Traffic) : Prop where
  call : t'.calls id = t.calls id
  story : t'.story id = t.story id

theorem Spares.refl (t : Traffic) (id : Nat) : t.Spares id t := ⟨rfl, rfl⟩

theorem Spares.trans {u : Traffic} (h : t.Spares id t') (h' : t'.Spares id u) : t.Spares id u :=
  ⟨h'.call.trans h.call, h'.story.trans h.story⟩

theorem story_see (t : Traffic) (event : QueueEvent) (id : Nat) :
    (t.see event).story id = t.story id ++ if event.ofCall id then [event] else [] := by
  simp only [story, see]
  rw [List.filter_append, List.filter_cons, List.filter_nil]

theorem spares_see {event : QueueEvent} (h : event.ofCall id = false) :
    t.Spares id (t.see event) where
  call := rfl
  story := by
    rw [story_see, h]
    exact List.append_nil _

theorem spares_note {other : Nat} (hother : other ≠ id) (queue : TaskQueue) (spec : TaskSpec)
    (stage : AppendStage) : t.Spares id ({ t with queue }.note other spec stage) :=
  ⟨Function.update_of_ne hother.symm _ _, rfl⟩

theorem spares_queue (t : Traffic) (id : Nat) (queue : TaskQueue) (consumer : Consumer) :
    t.Spares id { t with queue, consumer } := ⟨rfl, rfl⟩

theorem spares_advance {other : Nat} (hother : other ≠ id) : t.Spares id (t.advance other) := by
  have hevent : decide (other = id) = false := decide_eq_false hother
  obtain hsame | ⟨spec, result, hreturn⟩ | ⟨spec, stage, -, hmoved | hmoved⟩ :=
    t.advance_cases other
  · rw [hsame]
    exact .refl t id
  · rw [hreturn]
    exact (spares_note hother t.queue spec .gone).trans (spares_see hevent)
  · rw [hmoved]
    exact spares_note hother _ _ _
  · rw [hmoved]
    exact (spares_note hother _ _ _).trans (spares_see hevent)

theorem spares_abandon {other : Nat} (hother : other ≠ id) : t.Spares id (t.abandon other) := by
  obtain hsame | ⟨spec, stage, hgone⟩ := t.abandon_cases other
  · rw [hsame]
    exact .refl t id
  · rw [hgone]
    exact spares_note hother _ _ _

theorem spares_consume (t : Traffic) (id : Nat) : t.Spares id t.consume := by
  obtain ⟨_, ⟨consumer, rfl⟩, hnext | ⟨result, hnext⟩⟩ := t.consume_cases
  · rw [hnext]
    exact spares_queue t id _ _
  · have hevent : (QueueEvent.ofPop result).ofCall id = false := by
      cases result with
      | _ => rfl
    rw [hnext]
    exact (spares_queue t id _ _).trans (spares_see hevent)

/-- Others leave to an append where it is. -/
theorem spares_step (hid : (t.calls id).isSome = true) {action : Action}
    (hadvances : action.advances id = false) (habandons : action.abandons id = false) :
    t.Spares id (t.step action) := by
  cases action with
  | call other spec =>
    simp only [step]
    split
    · exact .refl t id
    · rename_i hcannot
      have hother : other ≠ id := by
        rintro rfl
        exact hcannot (.inl hid)
      exact (spares_note hother t.queue spec .arrived).trans (spares_see (decide_eq_false hother))
  | advance other => exact spares_advance (of_decide_eq_false hadvances)
  | abandon other => exact spares_abandon (of_decide_eq_false habandons)
  | take waits =>
    simp only [step]
    split
    · exact spares_queue t id _ _
    · exact .refl t id
  | consume => exact spares_consume t id
  | addSender =>
    simp only [step]
    split
    · exact .refl t id
    · exact (spares_queue t id t.queue.addProducer t.consumer).trans (spares_see rfl)
  | dropSender =>
    simp only [step]
    split
    · exact .refl t id
    · exact (spares_queue t id t.queue.dropProducer t.consumer).trans (spares_see rfl)

/-! ## Appends that come too late -/

/-- All that is left for an append is to be told that the queue is closed. -/
inductive Doomed (t : Traffic) (id : Nat) (told : List QueueEvent) : Prop where
  | late {spec : TaskSpec} {stage : AppendStage} (call : t.calls id = some (spec, stage))
    (late : t.queue.Late t.calls spec stage) (story : t.story id = told)
  | refused {spec : TaskSpec} (call : t.calls id = some (spec, .ended .closed))
    (story : t.story id = told)
  | gone {spec : TaskSpec} (call : t.calls id = some (spec, .gone))
    (story : t.story id = told ∨ t.story id = told ++ [.returned id .closed])

theorem Doomed.isSome (h : t.Doomed id told) : (t.calls id).isSome = true := by
  cases h with
  | late call => rw [call]; rfl
  | refused call => rw [call]; rfl
  | gone call => rw [call]; rfl

/-- Others leave an append that comes too late as late as it was. -/
theorem late_step (h : t.queue.Late t.calls spec stage) (action : Action) :
    (t.step action).queue.Late (t.step action).calls spec stage := by
  cases stage with
  | arrived => exact forsakes_step h action
  | absent => exact (closed_step t action).trans h
  | waiting ticket => exact (closed_step t action).trans h
  | _ => cases h

/-- An append that comes too late goes one step on: it looks in vain, or it
    has its answer. -/
theorem advance_of_late (call : t.calls id = some (spec, stage))
    (h : t.queue.Late t.calls spec stage) :
    (t.advance id).story id = t.story id ∧ (t.advance id).queue.pending = t.queue.pending ∧
    ((stage = .arrived ∧ (t.advance id).calls id = some (spec, .absent) ∧
        (t.advance id).queue.closed = true) ∨
      (stage ≠ .arrived ∧ (t.advance id).calls id = some (spec, .ended .closed))) := by
  obtain ⟨hpending, hafter⟩ := h.advance
  have hstep := t.queue.advance_step spec stage
  have hclosed := hstep.ends.1.trans h.closed
  have hquiet : stage.takesEffect (t.queue.advance spec stage).1 ≠ true := by
    rcases hafter with ⟨-, hafter⟩ | ⟨-, hafter⟩
    · rw [hafter]
      exact Bool.false_ne_true
    · rw [hafter]
      exact Bool.false_ne_true
  have hcall : (t.moved id spec stage).calls id = some (spec, (t.queue.advance spec stage).1) :=
    Function.update_self ..
  rw [advance_of_underWay call h.underWay, if_neg hquiet, hcall]
  refine ⟨rfl, hpending, ?_⟩
  rcases hafter with ⟨hstage, hafter⟩ | ⟨hstage, hafter⟩
  · exact .inl ⟨hstage, by rw [hafter], hclosed⟩
  · exact .inr ⟨hstage, by rw [hafter]⟩

theorem abandon_of_late (call : t.calls id = some (spec, stage))
    (h : t.queue.Late t.calls spec stage) :
    t.abandon id = { t with queue := t.queue.giveUp stage }.note id spec .gone := by
  have hunder := h.underWay
  simp only [Traffic.abandon]
  rw [call]
  cases stage with
  | ended => cases hunder
  | gone => cases hunder
  | _ => rfl

theorem abandon_of_ended (call : t.calls id = some (spec, stage)) (h : stage.isUnderWay = false) :
    t.abandon id = t := by
  simp only [Traffic.abandon]
  rw [call]
  cases stage with
  | ended => rfl
  | gone => rfl
  | _ => cases h

/-- Whatever is done, an append that is doomed stays so. -/
theorem Doomed.step (h : t.Doomed id told) (action : Action) : (t.step action).Doomed id told := by
  cases hadvances : action.advances id with
  | true =>
    obtain rfl := eq_advance hadvances
    show (t.advance id).Doomed id told
    cases h with
    | late call late story =>
      obtain ⟨hstory, -, ⟨-, hcall, hclosed⟩ | ⟨-, hcall⟩⟩ := advance_of_late call late
      · exact .late hcall hclosed (hstory.trans story)
      · exact .refused hcall (hstory.trans story)
    | refused call story =>
      rw [advance_of_ended call]
      refine .gone (Function.update_self ..) (.inr ?_)
      rw [story_see, ← story]
      exact congrArg (_ ++ ·) (if_pos (decide_eq_true rfl))
    | gone call story =>
      rw [advance_of_over (.inr ⟨_, call⟩)]
      exact .gone call story
  | false =>
    cases habandons : action.abandons id with
    | true =>
      obtain ⟨rfl⟩ : action = .abandon id := by
        cases action with
        | abandon other => rw [of_decide_eq_true habandons]
        | _ => cases habandons
      show (t.abandon id).Doomed id told
      cases h with
      | late call late story =>
        rw [abandon_of_late call late]
        exact .gone (Function.update_self ..) (.inl story)
      | refused call story =>
        rw [abandon_of_ended call rfl]
        exact .refused call story
      | gone call story =>
        rw [abandon_of_ended call rfl]
        exact .gone call story
    | false =>
      have hspares := spares_step h.isSome hadvances habandons
      cases h with
      | late call late story =>
        exact .late (hspares.call.trans call) (late_step late action) (hspares.story.trans story)
      | refused call story =>
        exact .refused (hspares.call.trans call) (hspares.story.trans story)
      | gone call story =>
        refine .gone (hspares.call.trans call) ?_
        rw [hspares.story]
        exact story

theorem Doomed.foldl (h : t.Doomed id told) (actions : List Action) :
    (actions.foldl Traffic.step t).Doomed id told := by
  induction actions generalizing t with
  | nil => exact h
  | cons action actions ih => exact ih (h.step action)

theorem Doomed.story_cases (h : t.Doomed id told) :
    t.story id = told ∨ t.story id = told ++ [.returned id .closed] := by
  cases h with
  | late call late story => exact .inl story
  | refused call story => exact .inl story
  | gone call story => exact story

theorem Doomed.pending_advance (h : t.Doomed id told) :
    (t.advance id).queue.pending = t.queue.pending := by
  cases h with
  | late call late => exact (advance_of_late call late).2.1
  | refused call => rw [advance_of_ended call]; rfl
  | gone call => rw [advance_of_over (.inr ⟨_, call⟩)]

/-- How many steps it takes an append that comes too late to return. -/
def stepsToReturn : AppendStage → Nat
  | .arrived => 3
  | .absent | .waiting _ => 2
  | .ended _ => 1
  | _ => 0

/-- What was seen of an append that is over stays seen. -/
theorem mem_trace_of_over (hcall : t.calls id = some (spec, .gone)) {event : QueueEvent}
    (hevent : event ∈ t.story id) (actions : List Action) :
    event ∈ (actions.foldl step t).trace := by
  have hdoomed : t.Doomed id (t.story id) := .gone hcall (.inl rfl)
  have hstory : event ∈ (actions.foldl step t).story id := by
    rcases (hdoomed.foldl actions).story_cases with hstory | hstory
    · rw [hstory]
      exact hevent
    · rw [hstory]
      exact List.mem_append_left _ hevent
  exact List.mem_of_mem_filter hstory

/-- Whatever is done but to give it up, an append that comes too late
    returns by its own steps. -/
theorem returned_of_late (hcall : t.calls id = some (spec, stage))
    (h : t.queue.Late t.calls spec stage ∨ stage = .ended .closed) {actions : List Action}
    (hkept : ∀ action ∈ actions, action.abandons id = false)
    (hsteps : stepsToReturn stage ≤ actions.countP (·.advances id)) :
    .returned id .closed ∈ (actions.foldl step t).trace := by
  -- each of its steps brings it nearer to its return, and others leave it where it is
  induction actions generalizing t stage with
  | nil =>
    rcases h with hlate | rfl
    · cases stage with
      | arrived => cases hsteps
      | absent => cases hsteps
      | waiting => cases hsteps
      | _ => cases hlate
    · cases hsteps
  | cons action actions ih =>
    have hlater := fun x hx => hkept x (List.mem_cons_of_mem _ hx)
    rw [List.countP_cons] at hsteps
    cases hadvances : action.advances id with
    | true =>
      obtain rfl := eq_advance hadvances
      rw [if_pos hadvances] at hsteps
      show .returned id .closed ∈ (actions.foldl step (t.advance id)).trace
      rcases h with hlate | rfl
      · obtain ⟨-, -, ⟨rfl, hnext, hclosed⟩ | ⟨hstage, hnext⟩⟩ := advance_of_late hcall hlate
        · exact ih hnext (.inl hclosed) hlater (Nat.le_of_succ_le_succ hsteps)
        · refine ih hnext (.inr rfl) hlater ?_
          cases stage with
          | arrived => exact absurd rfl hstage
          | absent => exact Nat.le_of_succ_le_succ hsteps
          | waiting => exact Nat.le_of_succ_le_succ hsteps
          | _ => cases hlate
      · rw [advance_of_ended hcall]
        refine mem_trace_of_over (Function.update_self ..) ?_ actions
        rw [story_see, show (QueueEvent.returned id .closed).ofCall id = true from decide_eq_true rfl]
        exact List.mem_append_right _ (List.mem_singleton_self _)
    | false =>
      rw [if_neg (by rw [hadvances]; exact Bool.false_ne_true), Nat.add_zero] at hsteps
      have hspares := spares_step (by rw [hcall]; rfl) hadvances (hkept action List.mem_cons_self)
      exact ih (hspares.call.trans hcall) (h.imp_left (late_step · action)) hlater hsteps

/-- An append is turned away: whatever is done from now on, all that is
    seen of it is that it returns as closed, and it does so by its third
    step unless it is given up; and its steps leave all that waits alone. -/
structure TurnsAway (t : Traffic) (id : Nat) : Prop where
  returns : ∀ actions : List Action, (∀ action ∈ actions, action.abandons id = false) →
    3 ≤ actions.countP (·.advances id) → .returned id .closed ∈ (actions.foldl step t).trace
  story : ∀ actions : List Action, (actions.foldl step t).story id = t.story id ∨
    (actions.foldl step t).story id = t.story id ++ [.returned id .closed]
  pending : ∀ actions : List Action, ((actions.foldl step t).advance id).queue.pending
    = (actions.foldl step t).queue.pending

theorem turnsAway_of_late (hcall : t.calls id = some (spec, stage))
    (h : t.queue.Late t.calls spec stage) : t.TurnsAway id := by
  have hdoomed : t.Doomed id (t.story id) := .late hcall h rfl
  refine ⟨fun actions hkept hsteps => ?_, fun actions => (hdoomed.foldl actions).story_cases,
    fun actions => (hdoomed.foldl actions).pending_advance⟩
  refine returned_of_late hcall (.inl h) hkept (Nat.le_trans ?_ hsteps)
  cases stage with
  | arrived => exact Nat.le_refl 3
  | absent => exact Nat.le_succ 2
  | waiting => exact Nat.le_succ 2
  | _ => cases h

end Traffic

end ServingPlane
