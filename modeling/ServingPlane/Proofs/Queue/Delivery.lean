import ServingPlane.Proofs.Queue.Traffic

/-! # The order of delivery

    As long as nothing is appended, the consumer is handed what waits, from
    the front to the back.  The queue tells this order; a trace without
    appends follows it as far as it goes; and whatever the senders do, they
    hand nothing over. -/

namespace ServingPlane

/-- The specs that were handed over, in order. -/
def delivered (trace : List QueueEvent) : List TaskSpec :=
  trace.filterMap fun
    | .delivered spec => some spec
    | _ => none

@[simp] theorem delivered_append (trace later : List QueueEvent) :
    delivered (trace ++ later) = delivered trace ++ delivered later :=
  List.filterMap_append

/-- Whether an append takes effect. -/
def QueueEvent.isEffective : QueueEvent → Bool
  | effective _ _ => true
  | _ => false

/-- Whether an event is one of a take. -/
def QueueEvent.ofTake : QueueEvent → Bool
  | delivered _ | nothingYet | drained => true
  | _ => false

namespace Backlog

/-- While nothing is appended, what is handed over comes off the front. -/
theorem delivered_of_quiet {b b' : Backlog} {trace : List QueueEvent}
    (h : trace.foldlM observe b = some b') (hquiet : ∀ event ∈ trace, event.isEffective = false) :
    delivered trace ++ b'.map Prod.snd = b.map Prod.snd := by
  induction trace generalizing b with
  | nil =>
    cases h
    rfl
  | cons event trace ih =>
    rw [List.foldlM_cons] at h
    obtain ⟨b₁, hevent, hlater⟩ := Option.bind_eq_some_iff.mp h
    have hrest := ih hlater fun x hx => hquiet x (List.mem_cons_of_mem _ hx)
    have hown := hquiet event List.mem_cons_self
    cases event with
    | effective call spec => cases hown
    | delivered spec =>
      obtain ⟨name, rfl⟩ := observe_delivered hevent
      exact congrArg (spec :: ·) hrest
    | called => exact observe_of_task_eq_none rfl hevent ▸ hrest
    | returned => exact observe_of_task_eq_none rfl hevent ▸ hrest
    | nothingYet => exact observe_of_task_eq_none rfl hevent ▸ hrest
    | drained => exact observe_of_task_eq_none rfl hevent ▸ hrest
    | senderAdded => exact observe_of_task_eq_none rfl hevent ▸ hrest
    | senderGone => exact observe_of_task_eq_none rfl hevent ▸ hrest

/-- Whatever senders do, a backlog allows it. -/
theorem observe_of_sender {b : Backlog} {event : QueueEvent} (h : event.ofTake = false) :
    ∃ b', b.observe event = some b' := by
  cases event with
  | delivered => cases h
  | nothingYet => cases h
  | drained => cases h
  | called => exact ⟨b, rfl⟩
  | effective call spec => exact ⟨b.append spec, rfl⟩
  | returned => exact ⟨b, rfl⟩
  | senderAdded => exact ⟨b, rfl⟩
  | senderGone => exact ⟨b, rfl⟩

theorem replay_of_senders {trace later : List QueueEvent} (h : ∃ b, replay trace = some b)
    (hlater : ∀ event ∈ later, event.ofTake = false) :
    ∃ b, replay (trace ++ later) = some b := by
  induction later using List.reverseRecOn with
  | nil =>
    rw [List.append_nil]
    exact h
  | append_singleton later event ih =>
    obtain ⟨b, hb⟩ := ih fun x hx => hlater x (List.mem_append_left _ hx)
    obtain ⟨b', hb'⟩ := observe_of_sender (b := b)
      (hlater event (List.mem_append_right _ (List.mem_singleton_self _)))
    rw [← List.append_assoc, replay_concat, hb]
    exact ⟨b', hb'⟩

end Backlog

/-- Senders hand nothing over. -/
theorem delivered_of_senders {later : List QueueEvent}
    (h : ∀ event ∈ later, event.ofTake = false) : delivered later = [] := by
  refine List.filterMap_eq_nil_iff.mpr fun event hevent => ?_
  have hown := h event hevent
  cases event with
  | delivered => cases hown
  | _ => rfl

namespace TaskQueue

variable {q : TaskQueue}

/-- The queue is handed over in the order of its backlog. -/
theorem Coherent.delivery_eq (h : q.Coherent []) : q.delivery = (q.backlog []).map Prod.snd := by
  simp only [delivery]
  generalize hn : q.channel.length = n
  induction n generalizing q with
  | zero =>
    have hchannel : q.channel = [] := List.length_eq_zero_iff.mp hn
    simp only [popMany, backlog]
    rw [List.nil_append, hchannel]
    rfl
  | succ n ih =>
    obtain ⟨name, rest, hchannel⟩ := List.exists_cons_of_length_eq_add_one hn
    obtain ⟨spec, hpop, hcoherent, hbacklog⟩ := h.pop_cons hchannel
    have hrest := ih hcoherent (Nat.succ.inj ((congrArg List.length hchannel).symm.trans hn))
    simp only [popMany]
    rw [hpop, hbacklog]
    exact congrArg (spec :: ·) hrest

/-- The specs of a backlog are the pending ones, one for each name. -/
theorem Coherent.mem_backlog (h : q.Coherent []) {spec : TaskSpec} :
    spec ∈ (q.backlog []).map Prod.snd ↔ q.pending.get? spec.name = some spec := by
  rw [List.mem_map]
  constructor
  · rintro ⟨⟨name, spec⟩, he, rfl⟩
    obtain ⟨other, -, hget⟩ := List.mem_filterMap.mp he
    obtain ⟨found, hfound, heq⟩ := Option.map_eq_some_iff.mp hget
    cases heq
    rw [h.named _ _ hfound]
    exact hfound
  · intro hget
    refine ⟨(spec.name, spec), List.mem_filterMap.mpr ⟨spec.name, ?_, ?_⟩, rfl⟩
    · exact (h.names _).mpr ⟨spec, hget⟩
    · rw [hget]
      rfl

end TaskQueue

namespace Traffic

/-- Whether an action is one of the consumer. -/
def Action.isTake : Action → Bool
  | take _ | consume => true
  | _ => false

/-- Senders leave the consumer alone, and nothing is heard of takes. -/
structure Aside (t t' : Traffic) : Prop where
  consumer : t'.consumer = t.consumer
  heard : ∃ later, t'.trace = t.trace ++ later ∧ ∀ event ∈ later, event.ofTake = false

theorem Aside.refl (t : Traffic) : t.Aside t :=
  ⟨rfl, [], (List.append_nil _).symm, fun _ h => absurd h List.not_mem_nil⟩

theorem Aside.see {t t' : Traffic} {event : QueueEvent} (hconsumer : t'.consumer = t.consumer)
    (htrace : t'.trace = t.trace) (hevent : event.ofTake = false) : t.Aside (t'.see event) where
  consumer := hconsumer
  heard := by
    refine ⟨[event], congrArg (· ++ [event]) htrace, fun x hx => ?_⟩
    rw [List.mem_singleton.mp hx]
    exact hevent

theorem aside_advance (t : Traffic) (id : Nat) : t.Aside (t.advance id) := by
  simp only [Traffic.advance]
  cases t.calls id with
  | none => exact .refl t
  | some call =>
    obtain ⟨spec, stage⟩ := call
    have hgo : t.Aside
        (let after := (t.queue.advance spec stage).1
        let next := { t with queue := (t.queue.advance spec stage).2 }.note id spec after
        if stage.takesEffect after then next.see (.effective id spec) else next) := by
      dsimp only
      split
      · exact .see rfl rfl rfl
      · exact ⟨rfl, [], (List.append_nil _).symm, fun _ h => absurd h List.not_mem_nil⟩
    cases stage with
    | gone => exact .refl t
    | ended result => exact .see rfl rfl rfl
    | arrived => exact hgo
    | absent => exact hgo
    | waiting ticket => exact hgo
    | holding ticket => exact hgo

theorem aside_step {action : Action} (h : action.isTake = false) (t : Traffic) :
    t.Aside (t.step action) := by
  have hsame : ∀ t' : Traffic, t'.consumer = t.consumer → t'.trace = t.trace → t.Aside t' := by
    intro t' hconsumer htrace
    refine ⟨hconsumer, [], ?_, fun _ hx => absurd hx List.not_mem_nil⟩
    rw [htrace, List.append_nil]
  cases action with
  | take => cases h
  | consume => cases h
  | call id spec =>
    simp only [Traffic.step]
    split
    · exact .refl t
    · exact .see rfl rfl rfl
  | advance id => exact aside_advance t id
  | abandon id =>
    simp only [Traffic.step, Traffic.abandon]
    cases t.calls id with
    | none => exact .refl t
    | some call =>
      obtain ⟨spec, stage⟩ := call
      cases stage with
      | gone => exact .refl t
      | ended result => exact .refl t
      | arrived => exact hsame _ rfl rfl
      | absent => exact hsame _ rfl rfl
      | waiting ticket => exact hsame _ rfl rfl
      | holding ticket => exact hsame _ rfl rfl
  | addSender =>
    simp only [Traffic.step]
    split
    · exact .refl t
    · exact .see rfl rfl rfl
  | dropSender =>
    simp only [Traffic.step]
    split
    · exact .refl t
    · exact .see rfl rfl rfl

end Traffic

end ServingPlane
