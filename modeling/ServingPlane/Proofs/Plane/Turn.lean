import ServingPlane.Proofs.Plane.Ways

/-! # What a turn shows

    Whatever way a visit goes: only a task of which the advisor decides, and
    which was seen running, is asked about; only an alarm leads to a
    recovery; only a recovery that can be read changes more than the status
    of its task; and a task that was not seen is left as it was. -/

namespace ServingPlane

/-- The status report that an event is, whatever came of it. -/
def OutsideEvent.report? : OutsideEvent → Option (String × TaskStatus × List RuntimeInstance)
  | .reported task status runtime _ => some (task, status, runtime)
  | _ => none

/-- What came back from an address, if the event is a request to it. -/
def OutsideEvent.replyFrom? (address : String) : OutsideEvent → Option HttpOutcome
  | .advised request outcome => if request.address = address then some outcome else none
  | _ => none

namespace Detector

open Program

variable {d : Detector} {spec : TaskSpec} {closed : Bool} {held before after : Holding}
  {log : List OutsideEvent} {α β : Type}

/-! ## What is heard in a turn -/

/-- Where an endpoint of the advisor is. -/
def address (d : Detector) (e : Advisor.Endpoint α β) : String := d.advisor.base ++ "/" ++ e.name

/-- What came back from an endpoint, for each request that was sent to it. -/
def replies (d : Detector) (e : Advisor.Endpoint α β) (log : List OutsideEvent) :
    List HttpOutcome :=
  log.filterMap (·.replyFrom? (d.address e))

/-- What was reported. -/
def reports? (log : List OutsideEvent) : List (String × TaskStatus × List RuntimeInstance) :=
  log.filterMap (·.report?)

/-- What the two questions about a task brought, if both were answered. -/
def sighting : List OutsideEvent → Option (Bool × List RuntimeInstance)
  | .askedRunning _ (.ok running) :: .askedInstances _ (.ok runtime) :: _ => some (running, runtime)
  | _ => none

/-- Whether what came back about an anomaly says that there is one. -/
def isAlarm (outcome : HttpOutcome) : Bool :=
  match Advisor.readResult Advisor.detection.result outcome with
  | .ok verdict => verdict.isAnomalous
  | .error _ => false

/-- The clock only showed instants at which there is a window, so that no
    collection panicked. -/
def Timely (d : Detector) (log : List OutsideEvent) : Prop :=
  ∀ now, .shown now ∈ log → (d.window now).isSome = true

@[simp] theorem replies_append (e : Advisor.Endpoint α β) (log later : List OutsideEvent) :
    d.replies e (log ++ later) = d.replies e log ++ d.replies e later :=
  List.filterMap_append

@[simp] theorem reports?_append (log later : List OutsideEvent) :
    reports? (log ++ later) = reports? log ++ reports? later :=
  List.filterMap_append

/-- A request to an endpoint is answered by it and by no other. -/
theorem replies_advised (e : Advisor.Endpoint α β) (input : α) (outcome : HttpOutcome)
    {γ δ : Type} (other : Advisor.Endpoint γ δ) :
    d.replies other [.advised (d.advisor.request e input) outcome]
      = if d.address e = d.address other then [outcome] else [] := by
  have hreply : OutsideEvent.replyFrom? (d.address other)
      (.advised (d.advisor.request e input) outcome)
        = if d.address e = d.address other then some outcome else none := rfl
  simp only [replies]
  rw [List.filterMap_cons, hreply]
  by_cases hsame : d.address e = d.address other
  · rw [if_pos hsame, if_pos hsame]
    rfl
  · rw [if_neg hsame, if_neg hsame]
    rfl

theorem Timely.of_append {later : List OutsideEvent} (h : d.Timely (log ++ later)) :
    d.Timely log ∧ d.Timely later := by
  constructor
  · intro now hnow
    exact h now (List.mem_append_left _ hnow)
  · intro now hnow
    exact h now (List.mem_append_right _ hnow)

theorem address_ne : d.address Advisor.detection ≠ d.address Advisor.recovery := by
  intro heq
  have hnames := congrArg String.toList heq
  simp only [address, String.toList_append] at hnames
  exact absurd (List.append_cancel_left hnames) (by decide)

/-- What is heard of a consultation: one reply from its endpoint, or the
    clock showed an instant without a window. -/
structure Consulted (d : Detector) (e : Advisor.Endpoint α β) (result : Except DetectorError β)
    (log : List OutsideEvent) : Prop where
  unreported : reports? log = []
  replied : (∃ outcome, result = (Advisor.readResult e.result outcome).mapError .advisor ∧
      ∀ {γ δ : Type} (other : Advisor.Endpoint γ δ), d.replies other log
        = if d.address e = d.address other then [outcome] else []) ∨
    (∃ cause, result = .error cause) ∧ ¬ d.Timely log ∧
      ∀ {γ δ : Type} (other : Advisor.Endpoint γ δ), d.replies other log = []

theorem Consultation.consulted {e : Advisor.Endpoint α β} {input : RecoveryRequest → α}
    {result : Except DetectorError β} (h : Consultation d spec e input result log) :
    Consulted d e result log := by
  cases h with
  | uncollected hcollection =>
    cases hcollection with
    | unnamed now hwindow =>
      refine ⟨rfl, .inr ⟨⟨_, rfl⟩, fun htimely => ?_, fun _ => rfl⟩⟩
      have hsome := htimely now (List.mem_singleton_self _)
      rw [hwindow] at hsome
      cases hsome
  | answered outcome hcollection =>
    cases hcollection with
    | gathered now replies hwindow hengine =>
      refine ⟨rfl, .inl ⟨outcome, rfl, fun other => ?_⟩⟩
      rw [replies_append, replies_advised]
      exact List.nil_append _

/-! ## What a turn makes of a task -/

/-- Apart from the status of the task, all is as it was. -/
structure Kept (before after : Holding) : Prop where
  spec : after.entry.map (·.spec) = before.entry.map (·.spec)
  waits : after.waits = before.waits
  history : after.history = before.history

theorem Kept.refl (held : Holding) : Kept held held := ⟨rfl, rfl, rfl⟩

theorem Kept.trans {mid : Holding} (h : Kept before mid) (h' : Kept mid after) :
    Kept before after :=
  ⟨h'.spec.trans h.spec, h'.waits.trans h.waits, h'.history.trans h.history⟩

theorem kept_noted (held : Holding) (status : TaskStatus) : Kept held (held.noted status) where
  spec := by
    simp only [Holding.noted, Option.map_map]
    rfl
  waits := rfl
  history := rfl

/-- The spec of a recommendation stands in the registry and waits in the
    queue; the recovery is in front of the history if that can be read. -/
structure Followed (spec : TaskSpec) (recommended : Recommendation) (before after : Holding) :
    Prop where
  entry : after.entry.map (·.spec) = before.entry.map fun _ => spec.apply recommended
  waits : after.waits = some (spec.apply recommended)
  history : ∃ previous now, spec.currentConfig = some previous ∧
    after.history = (before.filed ⟨.ofInt now, true, recommended, previous⟩).history

theorem filed_history {held other : Holding} (h : held.history = other.history)
    (record : RecoveryRecord) : (held.filed record).history = (other.filed record).history := by
  have hrecords : held.records = other.records := by rw [Holding.records, Holding.records, h]
  simp only [Holding.filed]
  rw [hrecords]
  cases other.records with
  | error cause => exact h
  | ok earlier => rfl

theorem entry_filed (held : Holding) (record : RecoveryRecord) :
    (held.filed record).entry = held.entry ∧ (held.filed record).waits = held.waits := by
  simp only [Holding.filed]
  cases held.records with
  | error cause => exact ⟨rfl, rfl⟩
  | ok earlier => exact ⟨rfl, rfl⟩

/-- What is heard of an exchange, and what it makes of the task. -/
structure Exchanged (spec : TaskSpec) (recommended : Recommendation) (log : List OutsideEvent)
    (before after : Holding) : Prop where
  unreported : reports? log = []
  unasked : ∀ {γ δ : Type} (d : Detector) (e : Advisor.Endpoint γ δ), d.replies e log = []
  status : after.entry.map (·.status) = before.entry.map (·.status)
  effect : Kept before after ∨ Followed spec recommended before after

theorem exchange_cases (held : Holding) (spec updated : TaskSpec) (closed : Bool) :
    (held.exchange spec updated closed).1 = .ok true ∧
      (held.exchange spec updated closed).2
        = { held with
            entry := held.entry.map ({ · with spec := updated }), waits := some updated } ∨
    (held.exchange spec updated closed).1 ≠ .ok true ∧
      (held.exchange spec updated closed).2 = held := by
  simp only [Holding.exchange]
  split
  · split
    · exact .inr ⟨by rintro ⟨⟩, rfl⟩
    · exact .inl ⟨rfl, rfl⟩
  · exact .inr ⟨by rintro ⟨⟩, rfl⟩

theorem Exchange.exchanged {recommended : Recommendation}
    (h : Exchange spec closed before recommended log after) :
    Exchanged spec recommended log before after := by
  have hcases := exchange_cases before spec (spec.apply recommended) closed
  cases h with
  | refused hexchange hanswer =>
    rw [hexchange] at hcases
    rcases hcases with ⟨htrue, -⟩ | ⟨-, rfl⟩
    · exact absurd htrue hanswer
    · exact ⟨rfl, fun _ _ => rfl, rfl, .inl (.refl _)⟩
  | @recorded previous mid now hexchange hprevious =>
    rw [hexchange] at hcases
    rcases hcases with ⟨-, hmid⟩ | ⟨hother, -⟩
    · replace hmid : mid = _ := hmid
      obtain ⟨hentry, hwaits⟩ :=
        entry_filed mid ⟨.ofInt now.millis, true, recommended, previous⟩
      refine ⟨rfl, fun _ _ => rfl, ?_, .inr ⟨?_, ?_, previous, now.millis, hprevious, ?_⟩⟩
      · rw [hentry, hmid, Option.map_map]
        rfl
      · rw [hentry, hmid, Option.map_map]
        rfl
      · rw [hwaits, hmid]
      · exact filed_history (by rw [hmid]) _
    · exact absurd rfl hother

/-- What becomes of a task, but for its status: nothing, or what a
    recommendation says that was asked for and could be read. -/
def Changed (d : Detector) (spec : TaskSpec) (log : List OutsideEvent) (before after : Holding) :
    Prop :=
  Kept before after ∨ ∃ outcome ∈ d.replies Advisor.recovery log, ∃ recommended,
    Advisor.readResult Advisor.recovery.result outcome = .ok recommended ∧
      Followed spec recommended before after

/-- What is heard of a recovery, and what it makes of the task. -/
structure Relieved (d : Detector) (spec : TaskSpec) (log : List OutsideEvent)
    (before after : Holding) : Prop where
  unreported : reports? log = []
  verdicts : d.replies Advisor.detection log = []
  advice : (d.replies Advisor.recovery log).length ≤ 1 ∧
    (d.Timely log → (d.replies Advisor.recovery log).length = 1)
  status : after.entry.map (·.status) = before.entry.map (·.status)
  effect : Changed d spec log before after

theorem Recovery.relieved (h : Recovery d spec closed before log after) :
    Relieved d spec log before after := by
  cases h with
  | unadvised hasked =>
    obtain ⟨hunreported, hreplied⟩ := hasked.consulted
    refine ⟨hunreported, ?_, ?_, rfl, .inl (.refl _)⟩
    · rcases hreplied with ⟨outcome, -, hreplies⟩ | ⟨-, -, hreplies⟩
      · rw [hreplies, if_neg address_ne.symm]
      · exact hreplies _
    · rcases hreplied with ⟨outcome, -, hreplies⟩ | ⟨-, huntimely, hreplies⟩
      · rw [hreplies, if_pos rfl]
        exact ⟨le_rfl, fun _ => rfl⟩
      · rw [hreplies]
        exact ⟨Nat.zero_le 1, fun htimely => absurd htimely huntimely⟩
  | @advised recommended first later after hasked hexchange =>
    obtain ⟨hunreported, hreplied⟩ := hasked.consulted
    have hexchanged := hexchange.exchanged
    rcases hreplied with ⟨outcome, hresult, hreplies⟩ | ⟨⟨cause, hcause⟩, -⟩
    · have hadvice : d.replies Advisor.recovery (first ++ later) = [outcome] := by
        rw [replies_append, hreplies, if_pos rfl, hexchanged.unasked]
        rfl
      refine ⟨?_, ?_, ?_, hexchanged.status, ?_⟩
      · rw [reports?_append, hunreported, hexchanged.unreported]
        rfl
      · rw [replies_append, hreplies, if_neg address_ne.symm, hexchanged.unasked]
        rfl
      · rw [hadvice]
        exact ⟨le_rfl, fun _ => rfl⟩
      · refine hexchanged.effect.imp id fun hfollowed => ⟨outcome, ?_, recommended, ?_, hfollowed⟩
        · rw [hadvice]
          exact List.mem_singleton_self _
        · cases hread : Advisor.readResult Advisor.recovery.result outcome with
          | error cause =>
            rw [hread] at hresult
            cases hresult
          | ok other =>
            rw [hread] at hresult
            cases hresult
            rfl
    · cases hcause

/-- What is heard of a task that was observed, and is asked about or not,
    and what is made of it. -/
structure Treated (d : Detector) (spec : TaskSpec) (due : Bool) (log : List OutsideEvent)
    (before after : Holding) : Prop where
  unreported : reports? log = []
  verdicts : (d.replies Advisor.detection log).length ≤ if due then 1 else 0
  judged : d.Timely log → (d.replies Advisor.detection log).length = if due then 1 else 0
  advice : (d.replies Advisor.recovery log).length
    ≤ if (d.replies Advisor.detection log).any isAlarm then 1 else 0
  advised : d.Timely log → (d.replies Advisor.recovery log).length
    = if (d.replies Advisor.detection log).any isAlarm then 1 else 0
  status : after.entry.map (·.status) = before.entry.map (·.status)
  effect : Changed d spec log before after

theorem isPositive_eq (outcome : HttpOutcome) :
    isPositive ((Advisor.readResult Advisor.detection.result outcome).mapError .advisor)
      = isAlarm outcome := by
  simp only [isAlarm]
  cases Advisor.readResult Advisor.detection.result outcome with
  | error cause => rfl
  | ok verdict => rfl

theorem treated_left (held : Holding) : Treated d spec false [] held held where
  unreported := rfl
  verdicts := le_rfl
  judged := fun _ => rfl
  advice := le_rfl
  advised := fun _ => rfl
  status := rfl
  effect := .inl (.refl _)

theorem Treatment.treated (h : Treatment d spec closed before log after) :
    Treated d spec true log before after := by
  cases h with
  | calm hasked hcalm =>
    obtain ⟨hunreported, hreplied⟩ := hasked.consulted
    rcases hreplied with ⟨outcome, rfl, hreplies⟩ | ⟨-, huntimely, hreplies⟩
    · rw [isPositive_eq] at hcalm
      have hverdicts : d.replies Advisor.detection log = [outcome] := by
        rw [hreplies, if_pos rfl]
      have hadvice : d.replies Advisor.recovery log = [] := by
        rw [hreplies, if_neg address_ne]
      refine ⟨hunreported, ?_, fun _ => ?_, ?_, fun _ => ?_, rfl, .inl (.refl _)⟩
      · rw [hverdicts]
        exact le_rfl
      · rw [hverdicts]
        rfl
      · rw [hadvice]
        exact Nat.zero_le _
      · rw [hadvice, hverdicts, List.any_cons, hcalm]
        rfl
    · refine ⟨hunreported, ?_, fun htimely => absurd htimely huntimely, ?_,
        fun htimely => absurd htimely huntimely, rfl, .inl (.refl _)⟩
      · rw [hreplies]
        exact Nat.zero_le 1
      · rw [hreplies]
        exact Nat.zero_le _
  | @alarmed verdict first later after hasked halarmed hrecovery =>
    obtain ⟨hunreported, hreplied⟩ := hasked.consulted
    have hrelieved := hrecovery.relieved
    rcases hreplied with ⟨outcome, rfl, hreplies⟩ | ⟨⟨cause, rfl⟩, -⟩
    · rw [isPositive_eq] at halarmed
      have hverdicts : d.replies Advisor.detection (first ++ later) = [outcome] := by
        rw [replies_append, hreplies, if_pos rfl, hrelieved.verdicts]
        rfl
      have hadvice : d.replies Advisor.recovery (first ++ later)
          = d.replies Advisor.recovery later := by
        rw [replies_append, hreplies, if_neg address_ne]
        rfl
      have halarms : (d.replies Advisor.detection (first ++ later)).any isAlarm = true := by
        rw [hverdicts, List.any_cons, halarmed]
        rfl
      refine ⟨?_, ?_, fun _ => ?_, ?_, fun htimely => ?_, hrelieved.status, ?_⟩
      · rw [reports?_append, hunreported, hrelieved.unreported]
        rfl
      · rw [hverdicts]
        exact le_rfl
      · rw [hverdicts]
        rfl
      · rw [halarms, hadvice]
        exact hrelieved.advice.1
      · rw [halarms, hadvice]
        exact hrelieved.advice.2 htimely.of_append.2
      · simp only [Changed]
        rw [hadvice]
        exact hrelieved.effect
    · cases halarmed

/-- Whether the advisor is to be asked about a task after what was heard. -/
def due (spec : TaskSpec) (log : List OutsideEvent) : Bool :=
  spec.isAutoScaled && (sighting log).any (·.1)

/-- What is heard of a turn, and what it makes of the task. -/
structure Turned (d : Detector) (spec : TaskSpec) (log : List OutsideEvent)
    (before after : Holding) : Prop where
  asked : ∃ answer, log.head? = some (.askedRunning spec answer)
  /-- Nobody but a running task of which the advisor decides is asked about. -/
  verdicts : (d.replies Advisor.detection log).length ≤ if due spec log then 1 else 0
  judged : d.Timely log →
    (d.replies Advisor.detection log).length = if due spec log then 1 else 0
  /-- No recovery is asked for without an alarm. -/
  advice : (d.replies Advisor.recovery log).length
    ≤ if (d.replies Advisor.detection log).any isAlarm then 1 else 0
  advised : d.Timely log → (d.replies Advisor.recovery log).length
    = if (d.replies Advisor.detection log).any isAlarm then 1 else 0
  effect : Changed d spec log before after
  status : after.entry.map (·.status) = match sighting log with
    | some (running, runtime) => before.entry.map fun _ => .observed running runtime
    | none => before.entry.map (·.status)
  reported : reports? log = match sighting log with
    | some (running, runtime) =>
      if d.reports then [(spec.name, .observed running runtime, runtime)] else []
    | none => []
  unseen : sighting log = none → after = before

theorem observed_beq_running (running : Bool) (runtime : List RuntimeInstance) :
    (TaskStatus.observed running runtime == .running) = running := by
  simp only [TaskStatus.observed]
  cases running with
  | true => rfl
  | false =>
    cases runtime.any RuntimeInstance.isExited with
    | true => rfl
    | false => rfl

theorem Followed.of_noted {recommended : Recommendation} {status : TaskStatus}
    (h : Followed spec recommended (before.noted status) after) :
    Followed spec recommended before after where
  entry := by
    rw [h.entry]
    simp only [Holding.noted, Option.map_map]
    rfl
  waits := h.waits
  history := by
    obtain ⟨previous, now, hprevious, hhistory⟩ := h.history
    have hsame : (before.noted status).history = before.history := rfl
    exact ⟨previous, now, hprevious, hhistory.trans (filed_history hsame _)⟩

/-- What is reported is no request, and all that is reported. -/
theorem heard_reporting (status : TaskStatus) (runtime : List RuntimeInstance)
    (answer : Except String Unit) :
    reports? (d.reporting spec status runtime answer)
      = (if d.reports then [(spec.name, status, runtime)] else []) ∧
    ∀ {γ δ : Type} (e : Advisor.Endpoint γ δ),
      d.replies e (d.reporting spec status runtime answer) = [] := by
  simp only [reporting]
  cases d.reports with
  | true => exact ⟨rfl, fun _ => rfl⟩
  | false => exact ⟨rfl, fun _ => rfl⟩

/-- What a turn shows in which both questions were answered. -/
theorem Treated.turned {running : Bool} {runtime : List RuntimeInstance}
    {later : List OutsideEvent} (h : Treated d spec (spec.isAutoScaled && running) later
      (before.noted (.observed running runtime)) after) (answer : Except String Unit) :
    Turned d spec ([.askedRunning spec (.ok running), .askedInstances spec (.ok runtime)]
      ++ (d.reporting spec (.observed running runtime) runtime answer ++ later)) before after := by
  generalize hlog : [OutsideEvent.askedRunning spec (.ok running),
    .askedInstances spec (.ok runtime)]
      ++ (d.reporting spec (.observed running runtime) runtime answer ++ later) = log
  have hsighting : sighting log = some (running, runtime) := hlog ▸ rfl
  have hdue : due spec log = (spec.isAutoScaled && running) := by
    simp only [due]
    rw [hsighting]
    rfl
  obtain ⟨hreported, hunasked⟩ :=
    @heard_reporting d spec (.observed running runtime) runtime answer
  have hreplies : ∀ {γ δ : Type} (e : Advisor.Endpoint γ δ),
      d.replies e log = d.replies e later := by
    intro γ δ e
    rw [← hlog, replies_append, replies_append, hunasked]
    rfl
  have htimely : d.Timely log → d.Timely later := by
    intro htimely
    rw [← hlog] at htimely
    exact htimely.of_append.2.of_append.2
  constructor
  · rw [← hlog]
    exact ⟨_, rfl⟩
  · rw [hreplies, hdue]
    exact h.verdicts
  · intro htime
    rw [hreplies, hdue]
    exact h.judged (htimely htime)
  · rw [hreplies, hreplies]
    exact h.advice
  · intro htime
    rw [hreplies, hreplies]
    exact h.advised (htimely htime)
  · simp only [Changed]
    rw [hreplies]
    refine h.effect.imp (fun hkept => (kept_noted before _).trans hkept) ?_
    rintro ⟨outcome, houtcome, recommended, hread, hfollowed⟩
    exact ⟨outcome, houtcome, recommended, hread, hfollowed.of_noted⟩
  · rw [hsighting, h.status]
    simp only [Holding.noted, Option.map_map]
    rfl
  · rw [hsighting, ← hlog, reports?_append, reports?_append, hreported, h.unreported,
      List.append_nil]
    rfl
  · intro hnone
    rw [hsighting] at hnone
    cases hnone

/-- What a turn shows in which a question was not answered. -/
theorem turned_of_unseen {answer : Except BackendError Bool} {later : List OutsideEvent}
    (hunseen : sighting (.askedRunning spec answer :: later) = none)
    (hreplies : ∀ {γ δ : Type} (e : Advisor.Endpoint γ δ), d.replies e later = [])
    (hreported : reports? later = []) (held : Holding) :
    Turned d spec (.askedRunning spec answer :: later) held held := by
  have hheard : ∀ {γ δ : Type} (e : Advisor.Endpoint γ δ),
      d.replies e (.askedRunning spec answer :: later) = [] := fun e => hreplies e
  have hdue : due spec (.askedRunning spec answer :: later) = false := by
    simp only [due]
    rw [hunseen, Option.any_none, Bool.and_false]
  constructor
  · exact ⟨answer, rfl⟩
  · rw [hheard]
    exact Nat.zero_le _
  · intro _
    rw [hheard, hdue]
    rfl
  · rw [hheard]
    exact Nat.zero_le _
  · intro _
    rw [hheard, hheard]
    rfl
  · exact .inl (.refl held)
  · rw [hunseen]
  · rw [hunseen]
    exact hreported
  · intro _
    rfl

/-- Whatever way a visit goes, this is what it shows. -/
theorem Visit.turned (h : Visit d spec closed before log after) :
    Turned d spec log before after := by
  cases h with
  | @observed seen first later mid after hobserved hfollowing =>
    cases hfollowing with
    | unseen cause =>
      cases hobserved with
      | unanswered => exact turned_of_unseen rfl (fun _ => rfl) rfl _
      | unlisted running => exact turned_of_unseen rfl (fun _ => rfl) rfl _
    | left runtime answer hleft =>
      cases hobserved with
      | seen running =>
        rw [observed_beq_running] at hleft
        have hturned := (hleft ▸ treated_left _ : Treated d spec (spec.isAutoScaled && running) []
          (before.noted (.observed running runtime)) _).turned answer
        rw [List.append_nil] at hturned
        exact hturned
    | treated runtime answer hdue htreatment =>
      cases hobserved with
      | seen running =>
        rw [observed_beq_running] at hdue
        exact (hdue ▸ htreatment.treated : Treated d spec (spec.isAutoScaled && running) _
          (before.noted (.observed running runtime)) _).turned answer

end Detector

end ServingPlane
