import ServingPlane.Proofs.Program
import ServingPlane.Proofs.Queue.Delivery
import ServingPlane.Scaler

/-! # The scaler at its queue

    The scaler waits for two things at once, the next spec and the signal
    to stop, and may heed either when both are there.  A spec that it has
    got is applied before it waits again, whatever the backend answers.
    So what was applied is at every moment what was handed over, each once
    and in order, but for the one being applied; and where nobody gives
    the signal, the loop ends only when all senders are gone and nothing
    is left, which it then reaches in a bounded number of steps. -/

namespace ServingPlane

/-- A call of the backend and its answer. -/
inductive BackendEvent where
  | deployed (spec : TaskSpec) (answer : Except BackendError Unit)
  | deleted (spec : TaskSpec) (answer : Except BackendError Unit)
  | askedRunning (spec : TaskSpec) (answer : Except BackendError Bool)
  | askedInstances (spec : TaskSpec) (answer : Except BackendError (List RuntimeInstance))

/-- The event that a call with an answer is. -/
def BackendEvent.of : {β : Type} → BackendCall β → β → BackendEvent
  | _, .deploy spec, answer => .deployed spec answer
  | _, .delete spec, answer => .deleted spec answer
  | _, .isRunning spec, answer => .askedRunning spec answer
  | _, .instances spec, answer => .askedInstances spec answer

/-- A backend may answer anything; what it was asked is kept. -/
def BackendEvent.recorded {β : Type} (events : List BackendEvent) (call : BackendCall β)
    (answer : β) (events' : List BackendEvent) : Prop :=
  events' = events ++ [.of call answer]

/-- What a backend would answer to each call now. -/
structure BackendMood : Type 1 where
  answer : {β : Type} → BackendCall β → β

namespace Scaler

/-- A spec with an answer of the backend: without replicas the task is
    deleted, otherwise it is deployed. -/
def applied (spec : TaskSpec) (answer : Except BackendError Unit) : BackendEvent :=
  if spec.replica = 0 then .deleted spec answer else .deployed spec answer

/-- Some specs with the answers of the backend. -/
def appliedEach (specs : List TaskSpec) (answers : List (Except BackendError Unit)) :
    List BackendEvent :=
  List.zipWith applied specs answers

theorem of_reconcile (spec : TaskSpec) (answer : Except BackendError Unit) :
    BackendEvent.of (if spec.replica = 0 then BackendCall.delete spec else .deploy spec) answer
      = applied spec answer := by
  simp only [applied]
  by_cases h : spec.replica = 0
  · rw [if_pos h, if_pos h]
    rfl
  · rw [if_neg h, if_neg h]
    rfl

theorem appliedEach_concat {specs : List TaskSpec} {answers : List (Except BackendError Unit)}
    (h : answers.length = specs.length) (spec : TaskSpec) (answer : Except BackendError Unit) :
    appliedEach (specs ++ [spec]) (answers ++ [answer])
      = appliedEach specs answers ++ [applied spec answer] := by
  simp only [appliedEach]
  rw [List.zipWith_append h.symm]
  rfl

/-! ## The loop -/

/-- What the scaler does: it waits, or it has calls to make for what it
    woke up for, or it has stopped. -/
inductive Stage : Type 1 where
  | listening
  | applying (work : Program BackendCall Bool)
  | ended

/-- Whether the scaler has stopped. -/
def Stage.isEnded : Stage → Bool
  | .ended => true
  | _ => false

theorem Stage.eq_of_isEnded {stage : Stage} (h : stage.isEnded = true) : stage = .ended := by
  cases stage with
  | ended => rfl
  | listening => cases h
  | applying => cases h

/-- What is to be done about some work, which tells at its end whether to stop. -/
def Stage.of : Program BackendCall Bool → Stage
  | .done true => .ended
  | .done false => .listening
  | work => .applying work

/-- The scaler, its queue, whether it was told to stop, what it woke up for
    and what the backend was asked. -/
structure Loop : Type 1 where
  traffic : Traffic
  signalled : Bool
  stage : Stage
  wakes : List Wake
  events : List BackendEvent

namespace Loop

/-- What may happen next. -/
inductive Action : Type 1 where
  /-- A sender or an append goes one step on. -/
  | others (action : Traffic.Action)
  /-- The signal to stop is given, or can never be given any more. -/
  | signal
  /-- The scaler looks at its queue. -/
  | poll
  /-- The scaler looks whether there is the signal. -/
  | heed
  /-- The backend answers. -/
  | answer (mood : BackendMood)

/-- The queue when its consumer is gone, with whatever that had in hand. -/
def leave (t : Traffic) : Traffic := { t with queue := t.queue.close, consumer := .idle }

/-- The scaler wakes up. -/
def wake (s : Loop) (w : Wake) : Loop :=
  match Stage.of (Scaler.run [w]) with
  | .ended => { s with traffic := leave s.traffic, wakes := s.wakes ++ [w], stage := .ended }
  | stage => { s with wakes := s.wakes ++ [w], stage }

/-- One step of a take. -/
def poll (s : Loop) : Loop :=
  match s.traffic.consumer with
  | .idle => { s with traffic := s.traffic.step (.take true) }
  | consumer =>
    match (s.traffic.queue.consume consumer).2.2 with
    | some (.spec spec) => { s with traffic := s.traffic.consume }.wake (.popped spec)
    | some .drained => { s with traffic := s.traffic.consume }.wake .drained
    | _ => { s with traffic := s.traffic.consume }

/-- One step; what cannot happen now changes nothing. -/
def step (s : Loop) : Action → Loop
  | .others action =>
    if action.isTake then s else { s with traffic := s.traffic.step action }
  | .signal => { s with signalled := true }
  | .poll =>
    match s.stage with
    | .listening => s.poll
    | _ => s
  | .heed =>
    match s.stage with
    | .listening => if s.signalled then s.wake .shutdown else s
    | _ => s
  | .answer mood =>
    match s.stage with
    | .applying (.call e k) =>
      { s with
        stage := .of (k (mood.answer e))
        events := s.events ++ [.of e (mood.answer e)] }
    | _ => s

/-- A scaler that has just started, with an empty queue. -/
def start (capacity : Nat) : Loop := ⟨.start capacity, false, .listening, [], []⟩

/-- Any number of steps. -/
def after (s : Loop) (actions : List Action) : Loop := actions.foldl step s

/-- Any number of steps since the start. -/
def run (capacity : Nat) (actions : List Action) : Loop := (start capacity).after actions

/-- The specs that the scaler has taken from its queue. -/
def taken (s : Loop) : List TaskSpec := delivered s.traffic.trace

/-- The specs that wait, in the order in which they will be handed over if
    nothing is appended. -/
def order (s : Loop) : List TaskSpec := s.traffic.backlog.map Prod.snd

/-! ## The invariant -/

/-- How what was taken, what the scaler woke up for and what the backend was
    asked fit its stage. -/
inductive Standing : Stage → List TaskSpec → List Wake → List BackendEvent → Prop where
  | listening {specs : List TaskSpec} {answers : List (Except BackendError Unit)}
    (hlength : answers.length = specs.length) :
    Standing .listening specs (specs.map .popped) (appliedEach specs answers)
  | applying {specs : List TaskSpec} {answers : List (Except BackendError Unit)}
    (spec : TaskSpec) (hlength : answers.length = specs.length) :
    Standing (.applying (Scaler.run [.popped spec])) (specs ++ [spec])
      ((specs ++ [spec]).map .popped) (appliedEach specs answers)
  | ended {specs : List TaskSpec} {answers : List (Except BackendError Unit)} (last : Wake)
    (hlength : answers.length = specs.length) (hlast : last = .drained ∨ last = .shutdown) :
    Standing .ended specs (specs.map .popped ++ [last]) (appliedEach specs answers)

/-- The scaler always waits for a spec where it asks for one. -/
def Patient : Consumer → Prop
  | .idle => True
  | .receiving waits | .received waits _ => waits = true

/-- All senders were gone and nothing was left when a take was told so. -/
def DrainedOnce (trace : List QueueEvent) : Prop :=
  ∃ before later, trace = before ++ .drained :: later ∧
    before.foldl QueueEvent.senders 1 = 0 ∧ Backlog.replay before = some [] ∧
    delivered later = []

/-- What every step keeps. -/
structure Sound (s : Loop) : Prop where
  traffic : s.stage ≠ .ended → s.traffic.Sound
  patient : Patient s.traffic.consumer
  idle : s.stage ≠ .listening → s.traffic.consumer = .idle
  replayed : ∃ b, Backlog.replay s.traffic.trace = some b
  standing : Standing s.stage s.taken s.wakes s.events
  heeded : .shutdown ∈ s.wakes → s.signalled = true
  drained : .drained ∈ s.wakes → DrainedOnce s.traffic.trace

theorem sound_start (capacity : Nat) : (start capacity).Sound where
  traffic := fun _ => Traffic.sound_start capacity
  patient := trivial
  idle := fun h => absurd rfl h
  replayed := ⟨[], rfl⟩
  standing := by
    show Standing .listening [] ([].map .popped) (appliedEach [] [])
    exact .listening rfl
  heeded := fun h => absurd h List.not_mem_nil
  drained := fun h => absurd h List.not_mem_nil

/-! ## Every step keeps it -/

variable {s : Loop}

theorem wake_popped (s : Loop) (spec : TaskSpec) : s.wake (.popped spec) = { s with
    wakes := s.wakes ++ [.popped spec], stage := .applying (Scaler.run [.popped spec]) } := rfl

theorem wake_drained (s : Loop) : s.wake .drained = { s with
    traffic := leave s.traffic, wakes := s.wakes ++ [.drained], stage := .ended } := rfl

theorem wake_shutdown (s : Loop) : s.wake .shutdown = { s with
    traffic := leave s.traffic, wakes := s.wakes ++ [.shutdown], stage := .ended } := rfl

theorem DrainedOnce.of_senders {trace later : List QueueEvent} (h : DrainedOnce trace)
    (hlater : ∀ event ∈ later, event.ofTake = false) : DrainedOnce (trace ++ later) := by
  obtain ⟨before, since, rfl, hsenders, hempty, hsince⟩ := h
  refine ⟨before, since ++ later, by simp, hsenders, hempty, ?_⟩
  rw [delivered_append, hsince, delivered_of_senders hlater]
  rfl

/-- Senders and appends go on, which the scaler does not notice. -/
theorem Sound.others (h : s.Sound) {action : Traffic.Action} (haction : action.isTake = false) :
    ({ s with traffic := s.traffic.step action } : Loop).Sound := by
  obtain ⟨hconsumer, later, htrace, hlater⟩ := Traffic.aside_step haction s.traffic
  have htaken : delivered (s.traffic.step action).trace = s.taken := by
    rw [htrace, delivered_append, delivered_of_senders hlater, List.append_nil]
    rfl
  constructor
  · intro hstage
    exact (h.traffic hstage).step action
  · exact hconsumer.symm ▸ h.patient
  · intro hstage
    exact hconsumer.trans (h.idle hstage)
  · rw [htrace]
    exact Backlog.replay_of_senders h.replayed hlater
  · show Standing s.stage (delivered (s.traffic.step action).trace) _ _
    rw [htaken]
    exact h.standing
  · exact h.heeded
  · intro hdrained
    rw [htrace]
    exact (h.drained hdrained).of_senders hlater

theorem Standing.specs_of_listening {specs : List TaskSpec} {wakes : List Wake}
    {events : List BackendEvent} (h : Standing .listening specs wakes events) :
    wakes = specs.map .popped ∧ ∃ answers : List (Except BackendError Unit),
      answers.length = specs.length ∧ events = appliedEach specs answers := by
  cases h with
  | listening hlength => exact ⟨rfl, _, hlength, rfl⟩

theorem not_mem_popped {specs : List TaskSpec} {w : Wake} (h : w = .drained ∨ w = .shutdown) :
    w ∉ specs.map Wake.popped := by
  intro hmem
  obtain ⟨spec, -, rfl⟩ := List.mem_map.mp hmem
  rcases h with h | h
  · cases h
  · cases h

/-- The loop stops. -/
theorem Sound.stop (h : s.Sound) (hstage : s.stage = .listening) (last : Wake)
    (hshutdown : last = .shutdown → s.signalled = true)
    (hdrained : last = .drained → DrainedOnce s.traffic.trace)
    (hlast : last = .drained ∨ last = .shutdown) :
    ({ s with traffic := leave s.traffic, wakes := s.wakes ++ [last], stage := .ended } :
      Loop).Sound := by
  have hstanding := h.standing
  rw [hstage] at hstanding
  obtain ⟨hwakes, answers, hlength, hevents⟩ := hstanding.specs_of_listening
  constructor
  · intro hne
    exact absurd rfl hne
  · exact trivial
  · intro _
    rfl
  · exact h.replayed
  · show Standing .ended s.taken (s.wakes ++ [last]) s.events
    rw [hwakes, hevents]
    exact .ended last hlength hlast
  · intro hmem
    rcases List.mem_append.mp hmem with hmem | hmem
    · exact h.heeded hmem
    · exact hshutdown (List.mem_singleton.mp hmem).symm
  · intro hmem
    rcases List.mem_append.mp hmem with hmem | hmem
    · exact h.drained hmem
    · exact hdrained (List.mem_singleton.mp hmem).symm

/-- What one step of a take adds to what was heard. -/
theorem trace_consume (t : Traffic) :
    t.consume.trace = t.trace ++ ((t.queue.consume t.consumer).2.2.map QueueEvent.ofPop).toList ∧
      t.consume.consumer = (t.queue.consume t.consumer).1 := by
  simp only [Traffic.consume]
  cases hstep : t.queue.consume t.consumer with
  | mk consumer rest =>
    obtain ⟨queue, result⟩ := rest
    cases result with
    | none => exact ⟨(List.append_nil _).symm, rfl⟩
    | some result => exact ⟨rfl, rfl⟩

/-- A take that waits stays one that waits, and is over when it gets something. -/
theorem patient_consume {c : Consumer} (h : Patient c) (q : TaskQueue) :
    Patient (q.consume c).1 ∧ ((q.consume c).2.2.isSome → (q.consume c).1 = .idle) := by
  simp only [TaskQueue.consume]
  cases c with
  | idle => exact ⟨trivial, fun _ => rfl⟩
  | receiving waits =>
    obtain rfl : waits = true := h
    dsimp only
    cases q.channel with
    | nil =>
      dsimp only
      by_cases hnone : q.producers = 0
      · rw [if_neg (by simp), if_pos hnone]
        exact ⟨trivial, fun _ => rfl⟩
      · rw [if_neg (by simp), if_neg hnone]
        exact ⟨rfl, fun hsome => by cases hsome⟩
    | cons name rest => exact ⟨rfl, fun hsome => by cases hsome⟩
  | received waits name =>
    obtain rfl : waits = true := h
    dsimp only
    cases q.pending.get? name with
    | none => exact ⟨rfl, fun hsome => by cases hsome⟩
    | some spec => exact ⟨trivial, fun _ => rfl⟩

/-- The loop, with what it looked at in its queue. -/
theorem poll_eq (hconsumer : s.traffic.consumer ≠ .idle) : s.poll =
    match (s.traffic.queue.consume s.traffic.consumer).2.2 with
    | some (.spec spec) => { s with traffic := s.traffic.consume }.wake (.popped spec)
    | some .drained => { s with traffic := s.traffic.consume }.wake .drained
    | _ => { s with traffic := s.traffic.consume } := by
  simp only [poll]

/-- A step of a take by which nothing is handed over. -/
theorem Sound.look (h : s.Sound) (hstage : s.stage = .listening) {t : Traffic} (ht : t.Sound)
    (hpatient : Patient t.consumer) (htaken : delivered t.trace = s.taken)
    (hdrained : .drained ∈ s.wakes → DrainedOnce t.trace) :
    ({ s with traffic := t } : Loop).Sound where
  traffic := fun _ => ht
  patient := hpatient
  idle := fun hne => absurd hstage hne
  replayed := ⟨_, ht.seen.replayed⟩
  standing := by
    show Standing s.stage (delivered t.trace) _ _
    rw [htaken]
    exact h.standing
  heeded := h.heeded
  drained := hdrained

theorem Sound.not_drained (h : s.Sound) (hstage : s.stage = .listening) : .drained ∉ s.wakes := by
  have hstanding := h.standing
  rw [hstage] at hstanding
  rw [hstanding.specs_of_listening.1]
  exact not_mem_popped (.inl rfl)

/-- The scaler looks at its queue. -/
theorem Sound.poll (h : s.Sound) (hstage : s.stage = .listening) : s.poll.Sound := by
  have ht : s.traffic.Sound := h.traffic (hstage ▸ Stage.noConfusion)
  by_cases hconsumer : s.traffic.consumer = .idle
  · have hpoll : s.poll = { s with traffic := s.traffic.step (.take true) } := by
      simp only [Loop.poll]
      rw [hconsumer]
    have hstep : s.traffic.step (.take true) = { s.traffic with consumer := .receiving true } := by
      simp only [Traffic.step]
      rw [hconsumer]
    rw [hpoll]
    refine h.look hstage (ht.step _) ?_ ?_ fun hmem => absurd hmem (h.not_drained hstage)
    · rw [hstep]
      rfl
    · rw [hstep]
      rfl
  obtain ⟨htrace, hafter⟩ := trace_consume s.traffic
  obtain ⟨hpatient, hover⟩ := patient_consume h.patient s.traffic.queue
  rw [← hafter] at hpatient hover
  have hnext := ht.consume
  rw [poll_eq hconsumer]
  have hquiet : ∀ {l}, s.traffic.consume.trace = s.traffic.trace ++ l → delivered l = [] →
      ({ s with traffic := s.traffic.consume } : Loop).Sound := by
    intro l hl hnone
    refine h.look hstage hnext hpatient ?_ fun hmem => absurd hmem (h.not_drained hstage)
    rw [hl, delivered_append, hnone, List.append_nil]
    rfl
  cases hresult : (s.traffic.queue.consume s.traffic.consumer).2.2 with
  | none =>
    rw [hresult] at htrace
    exact hquiet htrace rfl
  | some result =>
    rw [hresult] at htrace hover
    cases result with
    | nothingYet => exact hquiet htrace rfl
    | drained =>
      have hlooked := hquiet htrace rfl
      dsimp only
      rw [wake_drained]
      refine hlooked.stop hstage .drained (fun hc => by cases hc) (fun _ => ?_) (.inl rfl)
      have hsenders := hnext.seen.drained htrace
      have hempty := Backlog.replay_of_drained (htrace ▸ hnext.seen.replayed)
      exact ⟨_, [], htrace, hsenders, hempty, rfl⟩
    | spec spec =>
      have hstanding := h.standing
      rw [hstage] at hstanding
      obtain ⟨hwakes, answers, hlength, hevents⟩ := hstanding.specs_of_listening
      have htaken : delivered s.traffic.consume.trace = s.taken ++ [spec] := by
        rw [htrace, delivered_append]
        rfl
      dsimp only
      rw [wake_popped]
      constructor
      · intro _
        exact hnext
      · exact hpatient
      · intro _
        exact hover rfl
      · exact ⟨_, hnext.seen.replayed⟩
      · show Standing (.applying (Scaler.run [.popped spec])) (delivered s.traffic.consume.trace)
          (s.wakes ++ [.popped spec]) s.events
        have hmap : s.taken.map Wake.popped ++ [.popped spec]
            = (s.taken ++ [spec]).map Wake.popped := by simp
        rw [htaken, hwakes, hevents, hmap]
        exact .applying spec hlength
      · intro hmem
        rcases List.mem_append.mp hmem with hmem | hmem
        · exact h.heeded hmem
        · cases List.mem_singleton.mp hmem
      · intro hmem
        rcases List.mem_append.mp hmem with hmem | hmem
        · exact absurd hmem (h.not_drained hstage)
        · cases List.mem_singleton.mp hmem

/-- The backend answers, and the scaler listens again. -/
theorem Sound.answer (h : s.Sound) {work : Program BackendCall Bool}
    (hstage : s.stage = .applying work) (mood : BackendMood) :
    (s.step (.answer mood)).Sound ∧ (s.step (.answer mood)).stage = .listening ∧
      (s.step (.answer mood)).traffic = s.traffic := by
  have hidle := h.idle (hstage ▸ Stage.noConfusion)
  have ht := h.traffic (hstage ▸ Stage.noConfusion)
  have hstanding := h.standing
  rw [hstage] at hstanding
  generalize htaken : s.taken = taken at hstanding
  generalize hwakes : s.wakes = wakes at hstanding
  generalize hevents : s.events = events at hstanding
  cases hstanding with
  | @applying specs answers spec hlength =>
    let call : BackendCall (Except BackendError Unit) :=
      if spec.replica = 0 then .delete spec else .deploy spec
    have hstep : s.step (.answer mood) = { s with
        stage := .listening, events := s.events ++ [.of call (mood.answer call)] } := by
      simp only [Loop.step]
      rw [hstage]
      rfl
    rw [hstep]
    refine ⟨⟨fun _ => ht, h.patient, fun _ => hidle, h.replayed, ?_, h.heeded, h.drained⟩, rfl, rfl⟩
    show Standing .listening s.taken s.wakes (s.events ++ [.of call (mood.answer call)])
    have hevent : BackendEvent.of call (mood.answer call) = applied spec (mood.answer call) :=
      of_reconcile spec _
    rw [htaken, hwakes, hevents, hevent, ← appliedEach_concat hlength]
    exact .listening (by simp [hlength])

theorem Sound.step (h : s.Sound) (action : Action) : (s.step action).Sound := by
  cases action with
  | others action =>
    simp only [Loop.step]
    cases haction : action.isTake with
    | true =>
      rw [if_pos rfl]
      exact h
    | false =>
      rw [if_neg Bool.false_ne_true]
      exact h.others haction
  | signal => exact ⟨h.traffic, h.patient, h.idle, h.replayed, h.standing, fun _ => rfl, h.drained⟩
  | poll =>
    simp only [Loop.step]
    cases hstage : s.stage with
    | listening => exact h.poll hstage
    | applying => exact h
    | ended => exact h
  | heed =>
    simp only [Loop.step]
    cases hstage : s.stage with
    | listening =>
      dsimp only
      by_cases hsignal : s.signalled = true
      · rw [if_pos hsignal, wake_shutdown]
        exact h.stop hstage .shutdown (fun _ => hsignal) (fun hc => by cases hc) (.inr rfl)
      · rw [if_neg hsignal]
        exact h
    | applying => exact h
    | ended => exact h
  | answer mood =>
    cases hstage : s.stage with
    | applying work => exact (h.answer hstage mood).1
    | listening =>
      simp only [Loop.step]
      rw [hstage]
      exact h
    | ended =>
      simp only [Loop.step]
      rw [hstage]
      exact h

theorem Sound.after (h : s.Sound) (actions : List Action) : (s.after actions).Sound :=
  List.foldlRecOn actions Loop.step h fun _ h action _ => h.step action

theorem sound_run (capacity : Nat) (actions : List Action) : (run capacity actions).Sound :=
  (sound_start capacity).after actions

end Loop

end Scaler

end ServingPlane
