import ServingPlane.Proofs.Scaler.Loop

/-! # What the scaler applies

    The invariant of the loop says what was applied at any moment.  With
    the order of delivery it says what will be: while nothing is appended,
    the scaler goes through what waits from the front, and left alone
    without senders it comes to the end of it.  Each of its own steps
    brings it nearer, which a measure over what waits and the stage tells. -/

namespace ServingPlane

namespace Scaler

namespace Loop

variable {s : Loop}

/-! ## What was taken and what is to come -/

/-- Of some specs all were applied, but for the last if it is being applied. -/
def UpTo (stage : Stage) (specs : List TaskSpec) (answers : List (Except BackendError Unit)) :
    Prop :=
  (answers.length = specs.length ∧ ∀ work, stage ≠ .applying work) ∨
    ∃ earlier spec, specs = earlier ++ [spec] ∧ answers.length = earlier.length ∧
      stage = .applying (Scaler.run [.popped spec])

theorem UpTo.length_le {stage : Stage} {specs : List TaskSpec}
    {answers : List (Except BackendError Unit)} (h : UpTo stage specs answers) :
    answers.length ≤ specs.length := by
  rcases h with ⟨hlength, -⟩ | ⟨earlier, spec, rfl, hlength, -⟩
  · exact Nat.le_of_eq hlength
  · rw [hlength, List.length_append]
    exact Nat.le_add_right _ _

theorem Standing.events_eq {stage : Stage} {specs : List TaskSpec} {wakes : List Wake}
    {events : List BackendEvent} (h : Standing stage specs wakes events) :
    ∃ answers, events = appliedEach specs answers ∧ UpTo stage specs answers := by
  cases h with
  | listening hlength => exact ⟨_, rfl, .inl ⟨hlength, fun _ => Stage.noConfusion⟩⟩
  | @applying earlier answers spec hlength =>
    refine ⟨answers, ?_, .inr ⟨earlier, spec, rfl, hlength, rfl⟩⟩
    -- the last spec has no answer as yet
    have happend : List.zipWith applied (earlier ++ [spec]) (answers ++ [])
        = List.zipWith applied earlier answers ++ [] := List.zipWith_append hlength.symm
    rw [List.append_nil, List.append_nil] at happend
    exact happend.symm
  | ended last hlength _ => exact ⟨_, rfl, .inl ⟨hlength, fun _ => Stage.noConfusion⟩⟩

theorem Standing.last_of_ended {specs : List TaskSpec} {wakes : List Wake}
    {events : List BackendEvent} (h : Standing .ended specs wakes events) :
    .drained ∈ wakes ∨ .shutdown ∈ wakes := by
  cases h with
  | ended last _ hlast =>
    rcases hlast with rfl | rfl
    · exact .inl (List.mem_append_right _ (List.mem_singleton_self _))
    · exact .inr (List.mem_append_right _ (List.mem_singleton_self _))

/-- The loop as one program asks the backend what the scaler asked. -/
theorem runs_run (specs : List TaskSpec) (answers : List (Except BackendError Unit))
    (hlength : answers.length = specs.length) {last : List Wake} {ends : Bool}
    (hlast : Scaler.run last = .done ends) (events : List BackendEvent) :
    (Scaler.run (specs.map .popped ++ last)).Runs BackendEvent.recorded events ends
      (events ++ appliedEach specs answers) := by
  induction specs generalizing answers events with
  | nil =>
    obtain rfl := List.length_eq_zero_iff.mp hlength
    rw [List.map_nil, List.nil_append, hlast]
    exact ⟨rfl, List.append_nil _⟩
  | cons spec specs ih =>
    obtain ⟨answer, answers, rfl⟩ := List.exists_cons_of_length_eq_add_one hlength
    have hrest := ih answers (Nat.succ.inj hlength) (events ++ [applied spec answer])
    rw [List.append_assoc] at hrest
    refine Program.runs_bind.mpr ⟨answer, events ++ [applied spec answer], ?_, hrest⟩
    refine Program.runs_ask.mpr ?_
    exact congrArg (events ++ [·]) (of_reconcile spec answer).symm

theorem Standing.runs {stage : Stage} {specs : List TaskSpec} {wakes : List Wake}
    {events : List BackendEvent} (h : Standing stage specs wakes events)
    (hstage : ∀ work, stage ≠ .applying work) :
    ∃ ends, (ends = true ↔ stage = .ended) ∧
      (Scaler.run wakes).Runs BackendEvent.recorded [] ends events := by
  cases h with
  | listening hlength =>
    refine ⟨false, ⟨fun hc => absurd hc Bool.false_ne_true, Stage.noConfusion⟩, ?_⟩
    have hrest : Scaler.run [] = .done false := rfl
    have hruns := runs_run specs _ hlength hrest []
    rw [List.append_nil] at hruns
    exact hruns
  | applying => exact absurd rfl (hstage _)
  | ended last hlength hlast =>
    refine ⟨true, ⟨fun _ => rfl, fun _ => rfl⟩, ?_⟩
    refine runs_run specs _ hlength ?_ []
    rcases hlast with rfl | rfl
    · rfl
    · rfl

/-- Nothing that was heard is forgotten. -/
theorem heard_step (s : Loop) (action : Action) :
    ∃ later, (s.step action).traffic.trace = s.traffic.trace ++ later := by
  have hsame : ∃ later, s.traffic.trace = s.traffic.trace ++ later :=
    ⟨[], (List.append_nil _).symm⟩
  cases action with
  | others action =>
    simp only [Loop.step]
    cases haction : action.isTake with
    | true => exact hsame
    | false =>
      obtain ⟨-, later, htrace, -⟩ := Traffic.aside_step haction s.traffic
      exact ⟨later, htrace⟩
  | signal => exact hsame
  | poll =>
    simp only [Loop.step]
    cases s.stage with
    | applying => exact hsame
    | ended => exact hsame
    | listening =>
      by_cases hconsumer : s.traffic.consumer = .idle
      · simp only [Loop.poll]
        rw [hconsumer]
        simp only [Traffic.step]
        rw [hconsumer]
        exact hsame
      · have hconsume : ∃ later, s.traffic.consume.trace = s.traffic.trace ++ later :=
          ⟨_, (trace_consume s.traffic).1⟩
        dsimp only
        rw [poll_eq hconsumer]
        cases (s.traffic.queue.consume s.traffic.consumer).2.2 with
        | none => exact hconsume
        | some result =>
          cases result with
          | spec => exact hconsume
          | nothingYet => exact hconsume
          | drained => exact hconsume
  | heed =>
    simp only [Loop.step]
    cases s.stage with
    | applying => exact hsame
    | ended => exact hsame
    | listening =>
      dsimp only
      split
      · exact hsame
      · exact hsame
  | answer mood =>
    simp only [Loop.step]
    cases s.stage with
    | listening => exact hsame
    | ended => exact hsame
    | applying work =>
      cases work with
      | done => exact hsame
      | call => exact hsame

theorem heard_after (s : Loop) (actions : List Action) :
    ∃ later, (s.after actions).traffic.trace = s.traffic.trace ++ later := by
  induction actions generalizing s with
  | nil => exact ⟨[], (List.append_nil _).symm⟩
  | cons action actions ih =>
    obtain ⟨first, hfirst⟩ := heard_step s action
    obtain ⟨later, hlater⟩ := ih (s.step action)
    refine ⟨first ++ later, ?_⟩
    show ((s.step action).after actions).traffic.trace = _
    rw [hlater, hfirst, List.append_assoc]

/-- From one moment to another no append took effect. -/
def Quiet (s s' : Loop) : Prop :=
  ∀ later, s'.traffic.trace = s.traffic.trace ++ later →
    ∀ event ∈ later, event.isEffective = false

/-- As long as no append takes effect, what is taken comes in the order in
    which it waits. -/
theorem Sound.taken_of_quiet (h : s.Sound) (hstage : s.stage ≠ .ended) {actions : List Action}
    (h' : (s.after actions).Sound) (hquiet : s.Quiet (s.after actions)) :
    ∃ rest, (s.after actions).taken ++ rest = s.taken ++ s.order ∧
      ((s.after actions).stage ≠ .ended → rest = (s.after actions).order) := by
  obtain ⟨later, htrace⟩ := heard_after s actions
  obtain ⟨b', hb'⟩ := h'.replayed
  have hreplay := hb'
  rw [htrace, Backlog.replay_append, (h.traffic hstage).seen.replayed] at hreplay
  have hdelivered := Backlog.delivered_of_quiet hreplay (hquiet later htrace)
  refine ⟨b'.map Prod.snd, ?_, fun hstage' => ?_⟩
  · show delivered (s.after actions).traffic.trace ++ _ = _
    rw [htrace, delivered_append, List.append_assoc, hdelivered]
    rfl
  · have hown := (h'.traffic hstage').seen.replayed
    rw [hb'] at hown
    rw [Option.some.inj hown]
    rfl

/-! ## The scaler alone -/

/-- One step of the scaler itself, or of the backend that it waits for. -/
def own (s : Loop) (mood : BackendMood) : Loop :=
  match s.stage with
  | .applying _ => s.step (.answer mood)
  | _ => s.step .poll

/-- Some steps of the scaler with nothing between them. -/
def alone (s : Loop) (moods : Nat → BackendMood) : Nat → Loop
  | 0 => s
  | n + 1 => (s.own (moods 0)).alone (fun i => moods (i + 1)) n

/-- How many steps the scaler has still to take before it ends, if nothing
    is appended and all senders are gone. -/
def stepsLeft (s : Loop) : Nat :=
  4 * s.order.length + match s.stage, s.traffic.consumer with
    | .applying _, _ => 3
    | _, .idle => 2
    | _, .receiving _ => 1
    | _, .received _ _ => 0

/-- One step of the scaler has brought it nearer to its end. -/
structure Nearer (s s' : Loop) : Prop where
  stage : s'.stage ≠ .ended
  senders : s'.traffic.queue.producers = s.traffic.queue.producers
  whole : s'.taken ++ s'.order = s.taken ++ s.order
  left : s'.stepsLeft < s.stepsLeft

/-- The scaler goes on to its queue. -/
theorem nearer_of_idle (hstage : s.stage = .listening)
    (hconsumer : s.traffic.consumer = .idle) : s.Nearer s.poll := by
  have hpoll : s.poll = { s with traffic := { s.traffic with consumer := .receiving true } } := by
    simp only [Loop.poll, Traffic.step]
    rw [hconsumer]
  have horder : s.poll.order = s.order := by
    simp only [order, Traffic.backlog]
    rw [hpoll, hconsumer]
    rfl
  rw [hpoll] at horder ⊢
  refine ⟨hstage ▸ Stage.noConfusion, rfl, congrArg (s.taken ++ ·) horder, ?_⟩
  simp only [stepsLeft]
  rw [horder, hstage, hconsumer]
  exact Nat.lt_succ_self _

/-- Nothing waits and nobody sends: the scaler ends. -/
theorem ended_of_receiving (hconsumer : s.traffic.consumer = .receiving true)
    (hsenders : s.traffic.queue.producers = 0) (hchannel : s.traffic.queue.channel = []) :
    s.poll.stage = .ended ∧ s.order = [] ∧ s.poll.taken = s.taken := by
  have hconsume : s.traffic.queue.consume s.traffic.consumer
      = (.idle, s.traffic.queue, some .drained) := by
    simp only [TaskQueue.consume]
    rw [hconsumer]
    dsimp only
    rw [hchannel]
    exact (if_neg Bool.false_ne_true).trans (if_pos hsenders)
  have hpoll : s.poll = { s with traffic := s.traffic.consume }.wake .drained := by
    rw [poll_eq (hconsumer ▸ Consumer.noConfusion), hconsume]
  have htrace := (trace_consume s.traffic).1
  rw [hconsume] at htrace
  rw [hpoll, wake_drained]
  refine ⟨rfl, ?_, ?_⟩
  · simp only [order, Traffic.backlog, TaskQueue.backlog]
    rw [hconsumer, hchannel]
    rfl
  · show delivered s.traffic.consume.trace = _
    rw [htrace, delivered_append]
    exact List.append_nil _

/-- The scaler gets the first name. -/
theorem nearer_of_receiving (hstage : s.stage = .listening)
    (hconsumer : s.traffic.consumer = .receiving true) {name : String} {rest : List String}
    (hchannel : s.traffic.queue.channel = name :: rest) : s.Nearer s.poll := by
  have hconsume : s.traffic.queue.consume s.traffic.consumer = (.received true name,
      ({ s.traffic.queue with channel := rest } : TaskQueue).grant, none) := by
    simp only [TaskQueue.consume]
    rw [hconsumer]
    dsimp only
    rw [hchannel]
  have hpoll : s.poll = { s with traffic := { s.traffic with
      queue := ({ s.traffic.queue with channel := rest } : TaskQueue).grant
      consumer := .received true name } } := by
    rw [poll_eq (hconsumer ▸ Consumer.noConfusion)]
    simp only [Traffic.consume]
    rw [hconsume]
  have horder : s.poll.order = s.order := by
    simp only [order, Traffic.backlog]
    rw [hpoll, hconsumer]
    exact congrArg _ (TaskQueue.Coherent.backlog_receive hchannel)
  rw [hpoll] at horder ⊢
  refine ⟨hstage ▸ Stage.noConfusion, rfl, congrArg (s.taken ++ ·) horder, ?_⟩
  simp only [stepsLeft]
  rw [horder, hstage, hconsumer]
  exact Nat.lt_succ_self _

/-- The scaler gets the spec of the name that it has. -/
theorem Sound.nearer_of_received (h : s.Sound) (hstage : s.stage = .listening) {name : String}
    (hconsumer : s.traffic.consumer = .received true name) : s.Nearer s.poll := by
  have hcoherent := (h.traffic (hstage ▸ Stage.noConfusion)).coherent
  rw [hconsumer] at hcoherent
  obtain ⟨spec, hspec⟩ := hcoherent.spec_of_taken
  have hconsume : s.traffic.queue.consume s.traffic.consumer = (.idle,
      { s.traffic.queue with pending := s.traffic.queue.pending.erase name },
      some (.spec spec)) := by
    simp only [TaskQueue.consume]
    rw [hconsumer]
    dsimp only
    rw [hspec]
  have hpoll : s.poll = { s with
      traffic := { s.traffic with
        queue := { s.traffic.queue with pending := s.traffic.queue.pending.erase name }
        consumer := .idle }.see (.delivered spec)
      wakes := s.wakes ++ [.popped spec]
      stage := .applying (Scaler.run [.popped spec]) } := by
    rw [poll_eq (hconsumer ▸ Consumer.noConfusion)]
    simp only [Traffic.consume]
    rw [hconsume]
    rfl
  have horder : s.order = spec :: s.poll.order := by
    simp only [order, Traffic.backlog]
    rw [hpoll, hconsumer]
    exact congrArg (List.map Prod.snd) (hcoherent.backlog_hand hspec)
  have htaken : s.poll.taken = s.taken ++ [spec] := by
    rw [hpoll]
    exact delivered_append _ _
  refine ⟨hpoll ▸ Stage.noConfusion, hpoll ▸ rfl, ?_, ?_⟩
  · rw [htaken, horder, List.append_assoc]
    rfl
  · have hleft : s.poll.stepsLeft = 4 * s.poll.order.length + 3 := by
      simp only [stepsLeft]
      rw [hpoll]
    have hleft' : s.stepsLeft = 4 * s.order.length := by
      simp only [stepsLeft]
      rw [hstage, hconsumer]
      rfl
    rw [hleft, hleft', horder, List.length_cons]
    omega

/-- A step of the scaler brings it nearer to its end, by which all is taken. -/
theorem Sound.own (h : s.Sound) (hstage : s.stage ≠ .ended)
    (hsenders : s.traffic.queue.producers = 0) (mood : BackendMood) :
    ((s.own mood).stage = .ended ∧ s.order = [] ∧ (s.own mood).taken = s.taken) ∨
      s.Nearer (s.own mood) := by
  cases hown : s.stage with
  | ended => exact absurd hown hstage
  | applying work =>
    -- the answer gives the scaler back to its queue
    have heq : s.own mood = s.step (.answer mood) := by
      simp only [Loop.own]
      rw [hown]
    obtain ⟨-, hlistening, htraffic⟩ := h.answer hown mood
    have hidle := h.idle (hown ▸ Stage.noConfusion)
    have horder : (s.step (.answer mood)).order = s.order := by
      simp only [order]
      rw [htraffic]
    have htaken : (s.step (.answer mood)).taken = s.taken := by
      simp only [taken]
      rw [htraffic]
    rw [heq]
    refine .inr ⟨hlistening ▸ Stage.noConfusion, by rw [htraffic], by rw [horder, htaken], ?_⟩
    simp only [stepsLeft]
    rw [horder, hlistening, hown, htraffic, hidle]
    exact Nat.lt_succ_self _
  | listening =>
    have heq : s.own mood = s.poll := by
      simp only [Loop.own, Loop.step]
      rw [hown]
    have hpatient := h.patient
    rw [heq]
    cases hconsumer : s.traffic.consumer with
    | idle => exact .inr (nearer_of_idle hown hconsumer)
    | receiving waits =>
      rw [hconsumer] at hpatient
      obtain rfl : waits = true := hpatient
      cases hchannel : s.traffic.queue.channel with
      | nil => exact .inl (ended_of_receiving hconsumer hsenders hchannel)
      | cons name rest => exact .inr (nearer_of_receiving hown hconsumer hchannel)
    | received waits name =>
      rw [hconsumer] at hpatient
      obtain rfl : waits = true := hpatient
      exact .inr (h.nearer_of_received hown hconsumer)

theorem Sound.own_sound (h : s.Sound) (mood : BackendMood) : (s.own mood).Sound := by
  simp only [Loop.own]
  cases s.stage with
  | applying => exact h.step _
  | listening => exact h.step _
  | ended => exact h.step _

/-- The scaler, left alone, takes all that waits and ends. -/
theorem Sound.alone (h : s.Sound) (hstage : s.stage ≠ .ended)
    (hsenders : s.traffic.queue.producers = 0) (moods : Nat → BackendMood) :
    ∃ n, n ≤ s.stepsLeft + 1 ∧ (s.alone moods n).Sound ∧ (s.alone moods n).stage = .ended ∧
      (s.alone moods n).taken = s.taken ++ s.order := by
  -- every step but the last brings the scaler nearer to its end
  induction hn : s.stepsLeft using Nat.strongRecOn generalizing s moods with
  | ind n ih =>
    subst hn
    have hnext := h.own_sound (moods 0)
    rcases h.own hstage hsenders (moods 0) with ⟨hended, horder, htaken⟩ | hnearer
    · refine ⟨1, Nat.le_add_left 1 _, hnext, hended, ?_⟩
      rw [horder, List.append_nil]
      exact htaken
    · obtain ⟨m, hm, hsound, hended, htaken⟩ := ih _ hnearer.left hnext hnearer.stage
        (hnearer.senders.trans hsenders) (fun i => moods (i + 1)) rfl
      exact ⟨m + 1, Nat.succ_le_succ (Nat.le_trans hm hnearer.left), hsound, hended,
        htaken.trans hnearer.whole⟩

/-- What waits names each task once, with its newest spec; while nothing is
    being taken it is what the queue would hand over. -/
structure Orderly (s : Loop) : Prop where
  distinct : (s.order.map (·.name)).Nodup
  newest : ∀ spec ∈ s.order, ∃ earlier call later,
    s.traffic.trace = earlier ++ .effective call spec :: later ∧
    ∀ event ∈ later, event.task ≠ some spec.name
  told : s.traffic.consumer = .idle → s.order = s.traffic.queue.delivery ∧
    ∀ spec, spec ∈ s.order ↔ s.traffic.queue.pending.get? spec.name = some spec

theorem Sound.orderly (h : s.Sound) (hstage : s.stage ≠ .ended) : s.Orderly := by
  have hreplay := (h.traffic hstage).seen.replayed
  have hproper := Backlog.replay_proper hreplay
  constructor
  · have hnames : s.order.map (·.name) = s.traffic.backlog.map Prod.fst := by
      simp only [order]
      rw [List.map_map]
      exact List.map_congr_left fun e he => (hproper.named e he).symm
    rw [hnames]
    exact hproper.distinct
  · intro spec hspec
    obtain ⟨e, he, rfl⟩ := List.mem_map.mp hspec
    rw [← hproper.named e he]
    exact Backlog.newest hreplay he
  · intro hconsumer
    have hcoherent := (h.traffic hstage).coherent
    have horder : s.order = (s.traffic.queue.backlog []).map Prod.snd := by
      simp only [order, Traffic.backlog]
      rw [hconsumer]
      rfl
    rw [hconsumer] at hcoherent
    rw [horder]
    exact ⟨hcoherent.delivery_eq.symm, fun _ => hcoherent.mem_backlog⟩

/-- What more waits does not show in what was applied so far. -/
theorem appliedEach_append {specs : List TaskSpec} {answers : List (Except BackendError Unit)}
    (h : answers.length ≤ specs.length) (rest : List TaskSpec) :
    appliedEach (specs ++ rest) answers = appliedEach specs answers := by
  simp only [appliedEach]
  induction specs generalizing answers with
  | nil =>
    rw [List.length_eq_zero_iff.mp (Nat.le_zero.mp h), List.zipWith_nil_right,
      List.zipWith_nil_right]
  | cons spec specs ih =>
    cases answers with
    | nil => rfl
    | cons answer answers =>
      exact congrArg (applied spec answer :: ·) (ih (Nat.le_of_succ_le_succ h))

/-- Whatever the capacity, the senders, the answers of the backend and the
    moments at which the loop is told to stop or looks at either source: it
    applies what it has taken, each spec once and before it takes the next,
    as a removal where the spec has no replicas and as a deployment
    otherwise, and it has asked the backend what the loop asks when it wakes
    up for all this.  What it takes is what a backlog of the effective
    appends has in front.  So from any moment on, as long as no append takes
    effect, it applies a beginning of what waits then, which names each task
    once with its newest spec.  Without the signal it ends only when all
    senders are gone and nothing waits; and once the senders are gone it
    does end, with all applied, if it is left alone. -/
theorem applies_what_it_takes (capacity : Nat) (actions : List Action) :
    let s := run capacity actions
    (∃ answers, s.events = appliedEach s.taken answers ∧ UpTo s.stage s.taken answers) ∧
    (∃ b, Backlog.replay s.traffic.trace = some b) ∧
    ((∀ work, s.stage ≠ .applying work) → ∃ ends, (ends = true ↔ s.stage = .ended) ∧
      (Scaler.run s.wakes).Runs BackendEvent.recorded [] ends s.events) ∧
    (s.stage = .ended → s.signalled = false → DrainedOnce s.traffic.trace) ∧
    (s.stage ≠ .ended → s.Orderly ∧
      (∀ further : List Action, s.Quiet (s.after further) →
        (∃ rest, (s.after further).taken ++ rest = s.taken ++ s.order ∧
          ((s.after further).stage ≠ .ended → rest = (s.after further).order)) ∧
        ∃ answers, answers.length ≤ (s.taken ++ s.order).length ∧
          (s.after further).events = appliedEach (s.taken ++ s.order) answers) ∧
      (s.traffic.queue.producers = 0 → ∀ moods, ∃ n answers, n ≤ s.stepsLeft + 1 ∧
        (s.alone moods n).stage = .ended ∧ (s.alone moods n).taken = s.taken ++ s.order ∧
        answers.length = (s.taken ++ s.order).length ∧
        (s.alone moods n).events = appliedEach (s.taken ++ s.order) answers)) := by
  intro s
  have h : s.Sound := sound_run capacity actions
  refine ⟨h.standing.events_eq, h.replayed, h.standing.runs, fun hended hsignal => ?_,
    fun hstage => ⟨h.orderly hstage, fun further hquiet => ?_, fun hsenders moods => ?_⟩⟩
  · have hstanding := h.standing
    rw [hended] at hstanding
    rcases hstanding.last_of_ended with hmem | hmem
    · exact h.drained hmem
    · exact absurd (h.heeded hmem) (Bool.eq_false_iff.mp hsignal)
  · have h' := h.after further
    obtain ⟨rest, hrest, hwhole⟩ := h.taken_of_quiet hstage h' hquiet
    obtain ⟨answers, hevents, hupTo⟩ := h'.standing.events_eq
    refine ⟨⟨rest, hrest, hwhole⟩, answers, ?_, ?_⟩
    · rw [← hrest, List.length_append]
      exact Nat.le_trans hupTo.length_le (Nat.le_add_right _ _)
    · rw [← hrest, appliedEach_append hupTo.length_le]
      exact hevents
  · obtain ⟨n, hn, hsound, hended, htaken⟩ := h.alone hstage hsenders moods
    obtain ⟨answers, hevents, hupTo⟩ := hsound.standing.events_eq
    rw [htaken] at hevents hupTo
    rcases hupTo with ⟨hlength, -⟩ | ⟨earlier, spec, -, -, happlying⟩
    · exact ⟨n, answers, hn, hended, htaken, hlength, hevents⟩
    · rw [hended] at happlying
      cases happlying

/-- A task with one replica. -/
def wanted : TaskSpec := { TaskSpec.blank with name := "x", replica := 1 }

/-- A task that is to be removed. -/
def unwanted : TaskSpec := { TaskSpec.blank with name := "y" }

/-- An append to a queue with a free slot. -/
def append (id : Nat) (spec : TaskSpec) : List Action :=
  .others (.call id spec) :: List.replicate 4 (.others (.advance id))

/-- A backend that refuses everything. -/
def refusing : BackendMood := ⟨fun
  | .deploy _ | .delete _ | .isRunning _ | .instances _ => .error (.engine "gone")⟩

/-- Two tasks wait, and the last sender is gone. -/
def bothQueued : List Action := append 0 wanted ++ append 1 unwanted ++ [.others .dropSender]

/-- The loop is told to stop while it applies what it took. -/
def stopping : List Action := [.poll, .poll, .poll, .signal, .answer refusing, .heed]

/-- One task is queued and applied, and the loop looks again. -/
def oneApplied : List Action := append 0 unwanted ++
  [.others .dropSender, .poll, .poll, .poll, .answer refusing, .poll, .poll]

/-- The backend refuses everything.  All the same the first task is deployed
    and the second removed, and then the loop ends; told to stop while it
    applies the first, it has taken no other; and with one task alone it
    ends after that. -/
theorem applies_of_refused_deployment :
    (run 2 bothQueued).traffic.queue.delivery = [wanted, unwanted] ∧
    (∃ n answers, ((run 2 bothQueued).alone (fun _ => refusing) n).stage = .ended ∧
      answers.length = 2 ∧ ((run 2 bothQueued).alone (fun _ => refusing) n).events
        = appliedEach [wanted, unwanted] answers) ∧
    (∃ rest, ((run 2 bothQueued).after stopping).taken ++ rest = [wanted, unwanted]) ∧
    DrainedOnce (run 2 oneApplied).traffic.trace ∧
    ∃ ends, (ends = true ↔ (run 2 oneApplied).stage = .ended) ∧
      (Scaler.run [.popped unwanted, .drained]).Runs BackendEvent.recorded [] ends
        (run 2 oneApplied).events := by
  have hlistening : (run 2 bothQueued).stage = .listening := rfl
  have hended : (run 2 oneApplied).stage = .ended := by
    have hlast : (run 2 oneApplied).stage.isEnded = true := by decide +kernel
    exact Stage.eq_of_isEnded hlast
  have htrace : ((run 2 bothQueued).after stopping).traffic.trace
      = (run 2 bothQueued).traffic.trace ++ [.delivered wanted] := by decide +kernel
  have horder : (run 2 bothQueued).taken ++ (run 2 bothQueued).order = [wanted, unwanted] := rfl
  obtain ⟨-, -, -, -, hlive⟩ := applies_what_it_takes 2 bothQueued
  obtain ⟨horderly, hquiet, halone⟩ := hlive (hlistening ▸ Stage.noConfusion)
  obtain ⟨-, -, hruns, hdrained, -⟩ := applies_what_it_takes 2 oneApplied
  refine ⟨?_, ?_, ?_, hdrained hended rfl, hruns (hended ▸ fun _ => Stage.noConfusion)⟩
  · rw [← (horderly.told rfl).1]
    exact horder
  · obtain ⟨n, answers, -, hstage, -, hlength, hevents⟩ := halone rfl fun _ => refusing
    rw [horder] at hlength hevents
    exact ⟨n, answers, hstage, hlength, hevents⟩
  · obtain ⟨⟨rest, hrest, -⟩, -⟩ := hquiet stopping fun later hlater event hevent => by
      rw [htrace] at hlater
      rw [← List.append_cancel_left hlater] at hevent
      rw [List.mem_singleton.mp hevent]
      rfl
    exact ⟨rest, hrest.trans horder⟩

end Loop

end Scaler

end ServingPlane
