import ServingPlane.Proofs.Plane.Behaviour

/-! # The ways of a visit

    A visit can fail at six points, and each has its own consequence: the
    two questions about the task, the metrics for the verdict, the verdict,
    the recommendation, and the exchange of the spec.  The rules below tell
    for each way what is heard on it and what becomes of what belongs to
    the task; a visit goes these ways and no others, and it can go them all. -/

namespace ServingPlane

theorem Program.interpret_ask_bind {E F : Type → Type} {α β : Type}
    {answer : ∀ {δ : Type}, E δ → Program F δ} (e : E β) (f : β → Program E α) :
    (ask e >>= f).interpret answer = answer e >>= fun b => (f b).interpret answer :=
  rfl

namespace Detector

open Program

variable {d : Detector} {spec : TaskSpec} {name : String} {α β : Type}

/-! ## Questions to the advisor -/

/-- The stretch over which metrics are collected at an instant, if it lies
    within the calendar. -/
def window (d : Detector) (now : Instant) : Option QueryWindow :=
  QueryWindow.endingAt now d.metrics.lookback d.metrics.step

/-- The ways to collect metrics: failed queries are left out, so that only
    the clock can be in the way. -/
inductive Collection (d : Detector) (spec : TaskSpec) :
    Except MetricsError RecoveryRequest → List OutsideEvent → Prop where
  | unnamed (now : Instant) (hwindow : d.window now = none) :
    Collection d spec (.error .window) [.shown now]
  | gathered (now : Instant) {window : QueryWindow} {settings : VllmSettings}
    (replies : List (Metric × HttpOutcome)) (hwindow : d.window now = some window)
    (hengine : spec.engine.vllm? = some settings) :
    Collection d spec (.ok (MetricsCollection.recoveryRequest spec settings replies))
      [.shown now, .gathered (d.metrics.requests window spec) replies]

/-- The metrics of a task, window or not, once the clock was read. -/
def collectAt (d : Detector) (spec : TaskSpec) (settings : VllmSettings) (now : Instant) :
    Detection (Except MetricsError RecoveryRequest) :=
  match d.window now with
  | none => pure (.error .window)
  | some window => askOutside (.gather (d.metrics.requests window spec)) >>= fun replies =>
    pure (.ok (MetricsCollection.recoveryRequest spec settings replies))

theorem collect_eq {settings : VllmSettings} (hengine : spec.engine.vllm? = some settings) :
    d.collect spec = askOutside .now >>= d.collectAt spec settings := by
  simp only [collect, MetricsCollection.collect]
  rw [hengine]
  dsimp only
  rw [interpret_ask_bind]
  refine congrArg (askOutside .now >>= ·) (funext fun instant => ?_)
  simp only [collectAt, window]
  cases QueryWindow.endingAt instant d.metrics.lookback d.metrics.step with
  | none => rfl
  | some window => rfl

theorem behaves_collect : (d.collect spec).Behaves name fun held _ a log after =>
    Collection d spec a log ∧ after = held := by
  obtain ⟨settings, hengine⟩ := spec.engine.exists_vllm?
  rw [collect_eq hengine]
  have hrest : ∀ instant, (d.collectAt spec settings instant).Behaves name
      fun held _ a log after => Collection d spec a (.shown instant :: log) ∧ after = held := by
    intro instant
    simp only [collectAt]
    cases hwindow : d.window instant with
    | none =>
      refine (behaves_pure _).congr fun held closed a log after => ?_
      constructor
      · rintro ⟨rfl, rfl, rfl⟩
        exact ⟨.unnamed instant hwindow, rfl⟩
      · rintro ⟨hcollection, rfl⟩
        cases hcollection with
        | unnamed => exact ⟨rfl, rfl, rfl⟩
        | gathered _ _ hother =>
          rw [hwindow] at hother
          cases hother
    | some window =>
      refine ((behaves_askOutside _).map _).congr fun held closed a log after => ?_
      constructor
      · rintro ⟨replies, rfl, rfl, rfl⟩
        exact ⟨.gathered instant replies hwindow hengine, rfl⟩
      · rintro ⟨hcollection, rfl⟩
        cases hcollection with
        | unnamed _ hother =>
          rw [hwindow] at hother
          cases hother
        | gathered _ replies hother hengine' =>
          rw [hwindow] at hother
          rw [hengine] at hengine'
          cases hother
          cases hengine'
          exact ⟨replies, rfl, rfl, rfl⟩
  refine behaves_askOutside_bind hrest ?_
  rintro held closed a log after ⟨hcollection, -⟩
  cases hcollection with
  | unnamed instant => exact ⟨instant, _, rfl⟩
  | gathered instant => exact ⟨instant, _, rfl⟩

/-- The ways to ask the advisor about a task at an endpoint. -/
inductive Consultation (d : Detector) (spec : TaskSpec) (e : Advisor.Endpoint α β)
    (input : RecoveryRequest → α) : Except DetectorError β → List OutsideEvent → Prop where
  | uncollected {cause : MetricsError} {log : List OutsideEvent}
    (hcollection : Collection d spec (.error cause) log) :
    Consultation d spec e input (.error (.metrics cause)) log
  | answered {request : RecoveryRequest} {log : List OutsideEvent} (outcome : HttpOutcome)
    (hcollection : Collection d spec (.ok request) log) :
    Consultation d spec e input ((Advisor.readResult e.result outcome).mapError .advisor)
      (log ++ [.advised (d.advisor.request e (input request)) outcome])

/-- Collect the metrics of a task and ask at an endpoint: the verdict and
    the recommendation are got this way. -/
def question (d : Detector) (spec : TaskSpec) (e : Advisor.Endpoint α β)
    (input : RecoveryRequest → α) : Detection (Except DetectorError β) := do
  match ← d.collect spec with
  | .error cause => return .error (.metrics cause)
  | .ok request => return (← d.consult e (input request)).mapError .advisor

theorem behaves_question (e : Advisor.Endpoint α β) (input : RecoveryRequest → α) :
    (d.question spec e input).Behaves name fun held _ a log after =>
      Consultation d spec e input a log ∧ after = held := by
  have hconsult : ∀ request, (d.consult e (input request)).Behaves name fun held _ a log after =>
      ∃ outcome, a = Advisor.readResult e.result outcome ∧
        log = [.advised (d.advisor.request e (input request)) outcome] ∧ after = held := by
    intro request
    exact (behaves_askOutside (.advise (d.advisor.request e (input request)))).map
      (Advisor.readResult e.result)
  have hrest : ∀ collected : Except MetricsError RecoveryRequest,
      (match collected with
        | .error cause => pure (.error (.metrics cause))
        | .ok request => d.consult e (input request) >>= fun result =>
          pure (result.mapError .advisor) : Detection (Except DetectorError β)).Behaves name
      fun held _ a log after => after = held ∧ match collected with
        | .error cause => a = .error (.metrics cause) ∧ log = []
        | .ok request => ∃ outcome,
          a = (Advisor.readResult e.result outcome).mapError .advisor ∧
            log = [.advised (d.advisor.request e (input request)) outcome] := by
    intro collected
    cases collected with
    | error cause =>
      refine (behaves_pure _).congr fun held closed a log after => ?_
      constructor
      · rintro ⟨rfl, rfl, rfl⟩
        exact ⟨rfl, rfl, rfl⟩
      · rintro ⟨rfl, rfl, rfl⟩
        exact ⟨rfl, rfl, rfl⟩
    | ok request =>
      refine ((hconsult request).map _).congr fun held closed a log after => ?_
      constructor
      · rintro ⟨_, rfl, outcome, rfl, rfl, rfl⟩
        exact ⟨rfl, outcome, rfl, rfl⟩
      · rintro ⟨rfl, outcome, rfl, rfl⟩
        exact ⟨_, rfl, outcome, rfl, rfl, rfl⟩
  refine (behaves_collect.bind hrest).congr fun held closed a log after => ?_
  constructor
  · rintro ⟨collected, first, mid, later, ⟨hcollection, rfl⟩, ⟨rfl, hanswer⟩, rfl⟩
    cases collected with
    | error cause =>
      obtain ⟨rfl, rfl⟩ := hanswer
      rw [List.append_nil]
      exact ⟨.uncollected hcollection, rfl⟩
    | ok request =>
      obtain ⟨outcome, rfl, rfl⟩ := hanswer
      exact ⟨.answered outcome hcollection, rfl⟩
  · rintro ⟨hconsultation, rfl⟩
    cases hconsultation with
    | uncollected hcollection =>
      exact ⟨_, log, _, [], ⟨hcollection, rfl⟩, ⟨rfl, rfl, rfl⟩, (List.append_nil _).symm⟩
    | answered outcome hcollection =>
      exact ⟨_, _, _, _, ⟨hcollection, rfl⟩, ⟨rfl, outcome, rfl, rfl⟩, rfl⟩

/-- Whether a verdict is positive; none is not. -/
def isPositive : Except DetectorError Verdict → Bool
  | .ok v => v.isAnomalous
  | .error _ => false

theorem isAnomalous_eq :
    d.isAnomalous spec = d.verdict spec >>= fun verdict => pure (isPositive verdict) := by
  refine congrArg (d.verdict spec >>= ·) (funext fun verdict => ?_)
  cases verdict with
  | error cause => rfl
  | ok v => rfl

theorem behaves_isAnomalous : (d.isAnomalous spec).Behaves name fun held _ a log after =>
    ∃ verdict, a = isPositive verdict ∧
      Consultation d spec Advisor.detection RecoveryRequest.detection verdict log ∧
        after = held := by
  rw [isAnomalous_eq]
  exact (behaves_question Advisor.detection RecoveryRequest.detection).map isPositive

/-! ## Recovery -/

/-- The ways to exchange a spec for what a recommendation makes of it, and
    to record that. -/
inductive Exchange (spec : TaskSpec) (closed : Bool) (held : Holding)
    (recommended : Recommendation) : List OutsideEvent → Holding → Prop where
  | refused {answer : Except DetectorError Bool} {after : Holding}
    (hexchange : held.exchange spec (spec.apply recommended) closed = (answer, after))
    (hanswer : answer ≠ .ok true) : Exchange spec closed held recommended [] after
  | recorded {previous : Recommendation} {mid : Holding} (now : Instant)
    (hexchange : held.exchange spec (spec.apply recommended) closed = (.ok true, mid))
    (hprevious : spec.currentConfig = some previous) :
    Exchange spec closed held recommended [.shown now]
      (mid.filed ⟨.ofInt now.millis, true, recommended, previous⟩)

/-- The ways to recover a task. -/
inductive Recovery (d : Detector) (spec : TaskSpec) (closed : Bool) (held : Holding) :
    List OutsideEvent → Holding → Prop where
  | unadvised {cause : DetectorError} {log : List OutsideEvent}
    (hasked : Consultation d spec Advisor.recovery id (.error cause) log) :
    Recovery d spec closed held log held
  | advised {recommended : Recommendation} {log later : List OutsideEvent} {after : Holding}
    (hasked : Consultation d spec Advisor.recovery id (.ok recommended) log)
    (hexchange : Exchange spec closed held recommended later after) :
    Recovery d spec closed held (log ++ later) after

/-- What a recovery answers once its record was filed, or was not. -/
def answerOf (updated : TaskSpec) : Except StoreError Unit → Except DetectorError (Option TaskSpec)
  | .error cause => .error (.store cause)
  | .ok () => .ok (some updated)

theorem behaves_record (updated : TaskSpec) (recommended previous : Recommendation) :
    (askOutside .now >>= fun instant => ask (.appendHistory name
        ⟨.ofInt instant.millis, true, recommended, previous⟩ historyLimit) >>= fun filed =>
      pure (answerOf updated filed)).Behaves name fun held _ a log after => ∃ instant,
        a = answerOf updated (held.records.map fun _ => ()) ∧ log = [.shown instant] ∧
          after = held.filed ⟨.ofInt instant.millis, true, recommended, previous⟩ := by
  refine ((behaves_askOutside .now).bind fun instant =>
    (behaves_appendHistory _).map (answerOf updated)).congr fun held closed a log after => ?_
  constructor
  · rintro ⟨instant, _, _, _, ⟨rfl, rfl⟩, ⟨_, rfl, rfl, rfl, rfl⟩, rfl⟩
    exact ⟨instant, rfl, rfl, rfl⟩
  · rintro ⟨instant, rfl, rfl, rfl⟩
    exact ⟨instant, _, _, [], ⟨rfl, rfl⟩, ⟨_, rfl, rfl, rfl, rfl⟩, rfl⟩

/-- A spec is exchanged for what a recommendation makes of it, and if that
    is done, the recovery recorded. -/
def exchanging (spec : TaskSpec) (recommended previous : Recommendation) :
    Detection (Except DetectorError (Option TaskSpec)) :=
  install spec (spec.apply recommended) >>= fun
    | .error cause => pure (.error cause)
    | .ok false => pure (.ok none)
    | .ok true => askOutside .now >>= fun instant => ask (.appendHistory spec.name
        ⟨.ofInt instant.millis, true, recommended, previous⟩ historyLimit) >>= fun filed =>
      pure (answerOf (spec.apply recommended) filed)

theorem recover_eq {previous : Recommendation} (h : spec.currentConfig = some previous) :
    d.recover spec = d.recommendation spec >>= fun
      | .error cause => pure (.error cause)
      | .ok recommended => exchanging spec recommended previous := by
  simp only [recover]
  rw [h]
  refine congrArg (d.recommendation spec >>= ·) (funext fun advice => ?_)
  cases advice with
  | error cause => rfl
  | ok recommended =>
    refine congrArg (install spec (spec.apply recommended) >>= ·) (funext fun answer => ?_)
    cases answer with
    | error cause => rfl
    | ok there =>
      cases there with
      | false => rfl
      | true =>
        refine congrArg (askOutside .now >>= ·) (funext fun instant => ?_)
        refine congrArg (ask (.appendHistory spec.name
          ⟨.ofInt instant.millis, true, recommended, previous⟩ historyLimit) >>= ·) ?_
        funext filed
        cases filed with
        | error cause => rfl
        | ok => rfl

theorem behaves_exchanging {recommended previous : Recommendation}
    (hprevious : spec.currentConfig = some previous) :
    (exchanging spec recommended previous >>= fun _ => pure ()).Behaves spec.name
      fun held closed _ log after => Exchange spec closed held recommended log after := by
  have hafter : ∀ answer : Except DetectorError Bool,
      (match answer with
        | .error cause => pure (.error cause)
        | .ok false => pure (.ok none)
        | .ok true => askOutside .now >>= fun instant => ask (.appendHistory spec.name
            ⟨.ofInt instant.millis, true, recommended, previous⟩ historyLimit) >>= fun filed =>
          pure (answerOf (spec.apply recommended) filed) :
        Detection (Except DetectorError (Option TaskSpec))).Behaves spec.name
      fun held _ a log after => match answer with
        | .error cause => a = .error cause ∧ log = [] ∧ after = held
        | .ok false => a = .ok none ∧ log = [] ∧ after = held
        | .ok true => ∃ instant,
          a = answerOf (spec.apply recommended) (held.records.map fun _ => ()) ∧
            log = [.shown instant] ∧
            after = held.filed ⟨.ofInt instant.millis, true, recommended, previous⟩ := by
    intro answer
    cases answer with
    | error cause => exact behaves_pure _
    | ok there =>
      cases there with
      | false => exact behaves_pure _
      | true => exact behaves_record _ _ _
  have hinstall : (install spec (spec.apply recommended)).Behaves spec.name _ :=
    behaves_install rfl
  refine ((hinstall.bind hafter).map fun _ => ()).congr fun held closed a log after => ?_
  constructor
  · rintro ⟨_, -, answer, _, mid, later, ⟨rfl, hexchange⟩, hlater, rfl⟩
    cases answer with
    | error cause =>
      obtain ⟨-, rfl, rfl⟩ := hlater
      exact .refused hexchange.symm (by rintro ⟨⟩)
    | ok there =>
      cases there with
      | false =>
        obtain ⟨-, rfl, rfl⟩ := hlater
        exact .refused hexchange.symm (by rintro ⟨⟩)
      | true =>
        obtain ⟨instant, -, rfl, rfl⟩ := hlater
        exact .recorded instant hexchange.symm hprevious
  · intro hexchange
    cases hexchange with
    | @refused answer after hexchange hanswer =>
      cases answer with
      | error cause => exact ⟨_, rfl, _, [], _, [], ⟨rfl, hexchange.symm⟩, ⟨rfl, rfl, rfl⟩, rfl⟩
      | ok there =>
        cases there with
        | false => exact ⟨_, rfl, _, [], _, [], ⟨rfl, hexchange.symm⟩, ⟨rfl, rfl, rfl⟩, rfl⟩
        | true => exact absurd rfl hanswer
    | recorded instant hexchange hother =>
      rw [hprevious] at hother
      cases hother
      exact ⟨_, rfl, _, [], _, _, ⟨rfl, hexchange.symm⟩, ⟨instant, rfl, rfl, rfl⟩, rfl⟩

theorem behaves_recover : (d.recover spec >>= fun _ => pure ()).Behaves spec.name
    fun held closed _ log after => Recovery d spec closed held log after := by
  obtain ⟨settings, hengine⟩ := spec.engine.exists_vllm?
  have hprevious : ∃ previous, spec.currentConfig = some previous := by
    simp only [TaskSpec.currentConfig]
    rw [hengine]
    exact ⟨_, rfl⟩
  obtain ⟨previous, hprevious⟩ := hprevious
  rw [recover_eq hprevious, bind_bind]
  have hrest : ∀ advice : Except DetectorError Recommendation,
      ((match advice with
        | .error cause => pure (.error cause)
        | .ok recommended => exchanging spec recommended previous :
          Detection (Except DetectorError (Option TaskSpec))) >>= fun _ =>
        pure ()).Behaves spec.name
      fun held closed _ log after => match advice with
        | .error _ => log = [] ∧ after = held
        | .ok recommended => Exchange spec closed held recommended log after := by
    intro advice
    cases advice with
    | error cause =>
      exact (behaves_pure ()).congr fun _ _ _ _ _ => and_iff_right rfl
    | ok recommended => exact behaves_exchanging hprevious
  have hadvice : (d.recommendation spec).Behaves spec.name _ :=
    behaves_question Advisor.recovery id
  refine (hadvice.bind hrest).congr fun held closed a log after => ?_
  constructor
  · rintro ⟨advice, first, mid, later, ⟨hasked, rfl⟩, hlater, rfl⟩
    cases advice with
    | error cause =>
      obtain ⟨rfl, rfl⟩ := hlater
      rw [List.append_nil]
      exact .unadvised hasked
    | ok recommended => exact .advised hasked hlater
  · intro hrecovery
    cases hrecovery with
    | unadvised hasked =>
      exact ⟨_, log, _, [], ⟨hasked, rfl⟩, ⟨rfl, rfl⟩, (List.append_nil _).symm⟩
    | advised hasked hexchange => exact ⟨_, _, _, _, ⟨hasked, rfl⟩, hexchange, rfl⟩

/-! ## A visit -/

/-- The ways to observe a task. -/
inductive Observation (spec : TaskSpec) (held : Holding) :
    Except BackendError (TaskStatus × List RuntimeInstance) → List OutsideEvent → Holding →
      Prop where
  | unanswered (cause : BackendError) :
    Observation spec held (.error cause) [.askedRunning spec (.error cause)] held
  | unlisted (running : Bool) (cause : BackendError) :
    Observation spec held (.error cause)
      [.askedRunning spec (.ok running), .askedInstances spec (.error cause)] held
  | seen (running : Bool) (runtime : List RuntimeInstance) :
    Observation spec held (.ok (.observed running runtime, runtime))
      [.askedRunning spec (.ok running), .askedInstances spec (.ok runtime)]
      (held.noted (.observed running runtime))

/-- What is noted once both questions were answered. -/
theorem behaves_noting (running : Bool) (runtime : List RuntimeInstance) :
    (ask (.updateRegistry (·.setStatus spec.name (.observed running runtime))) >>= fun _ =>
      pure (.ok (.observed running runtime, runtime))).Behaves spec.name
    fun held _ (a : Except BackendError (TaskStatus × List RuntimeInstance)) log after =>
      Observation spec held a
        (.askedRunning spec (.ok running) :: .askedInstances spec (.ok runtime) :: log) after := by
  refine ((behaves_setStatus _).map _).congr fun held closed a log after => ?_
  constructor
  · rintro ⟨_, rfl, rfl, rfl⟩
    exact .seen running runtime
  · intro hobservation
    cases hobservation
    exact ⟨(), rfl, rfl, rfl⟩

/-- What is observed once the task was asked about. -/
theorem behaves_listing (running : Bool) :
    (askOutside (.instances spec) >>= fun
      | .error cause => pure (.error cause)
      | .ok runtime =>
        ask (.updateRegistry (·.setStatus spec.name (.observed running runtime))) >>= fun _ =>
          pure (.ok (.observed running runtime, runtime))).Behaves spec.name
    fun held _ (a : Except BackendError (TaskStatus × List RuntimeInstance)) log after =>
      Observation spec held a (.askedRunning spec (.ok running) :: log) after := by
  refine behaves_askOutside_bind (fun listed => ?_) fun hobservation => ?_
  · cases listed with
    | error cause =>
      refine (behaves_pure _).congr fun held closed a log after => ?_
      constructor
      · rintro ⟨rfl, rfl, rfl⟩
        exact .unlisted running cause
      · intro hobservation
        cases hobservation
        exact ⟨rfl, rfl, rfl⟩
    | ok runtime => exact behaves_noting running runtime
  · cases hobservation with
    | unlisted => exact ⟨_, _, rfl⟩
    | seen => exact ⟨_, _, rfl⟩

theorem behaves_observe : (observe spec).Behaves spec.name
    fun held _ a log after => Observation spec held a log after := by
  simp only [observe]
  refine behaves_askOutside_bind (fun answer => ?_) fun hobservation => ?_
  · cases answer with
    | error cause =>
      refine (behaves_pure _).congr fun held closed a log after => ?_
      constructor
      · rintro ⟨rfl, rfl, rfl⟩
        exact .unanswered cause
      · intro hobservation
        cases hobservation
        exact ⟨rfl, rfl, rfl⟩
    | ok running => exact behaves_listing running
  · cases hobservation with
    | unanswered => exact ⟨_, _, rfl⟩
    | unlisted => exact ⟨_, _, rfl⟩
    | seen => exact ⟨_, _, rfl⟩

/-- The ways to treat a running task of which the advisor decides. -/
inductive Treatment (d : Detector) (spec : TaskSpec) (closed : Bool) (held : Holding) :
    List OutsideEvent → Holding → Prop where
  | calm {verdict : Except DetectorError Verdict} {log : List OutsideEvent}
    (hasked : Consultation d spec Advisor.detection RecoveryRequest.detection verdict log)
    (hcalm : isPositive verdict = false) : Treatment d spec closed held log held
  | alarmed {verdict : Except DetectorError Verdict} {log later : List OutsideEvent}
    {after : Holding}
    (hasked : Consultation d spec Advisor.detection RecoveryRequest.detection verdict log)
    (halarmed : isPositive verdict = true)
    (hrecovery : Recovery d spec closed held later after) :
    Treatment d spec closed held (log ++ later) after

/-- What is reported of an observation, and what came of that. -/
def reporting (d : Detector) (spec : TaskSpec) (status : TaskStatus)
    (runtime : List RuntimeInstance) (answer : Except String Unit) : List OutsideEvent :=
  if d.reports then [.reported spec.name status runtime answer] else []

/-- The ways in which a visit goes on after an observation. -/
inductive Following (d : Detector) (spec : TaskSpec) (closed : Bool) (held : Holding) :
    Except BackendError (TaskStatus × List RuntimeInstance) → List OutsideEvent → Holding →
      Prop where
  | unseen (cause : BackendError) : Following d spec closed held (.error cause) [] held
  | left {status : TaskStatus} (runtime : List RuntimeInstance) (answer : Except String Unit)
    (hleft : (spec.isAutoScaled && status == .running) = false) :
    Following d spec closed held (.ok (status, runtime))
      (d.reporting spec status runtime answer) held
  | treated {status : TaskStatus} (runtime : List RuntimeInstance) (answer : Except String Unit)
    {log : List OutsideEvent} {after : Holding}
    (hdue : (spec.isAutoScaled && status == .running) = true)
    (htreatment : Treatment d spec closed held log after) :
    Following d spec closed held (.ok (status, runtime))
      (d.reporting spec status runtime answer ++ log) after

/-- The ways of a visit. -/
inductive Visit (d : Detector) (spec : TaskSpec) (closed : Bool) (held : Holding) :
    List OutsideEvent → Holding → Prop where
  | observed {seen : Except BackendError (TaskStatus × List RuntimeInstance)}
    {log later : List OutsideEvent} {mid after : Holding}
    (hobserved : Observation spec held seen log mid)
    (hfollowing : Following d spec closed mid seen later after) :
    Visit d spec closed held (log ++ later) after

theorem behaves_treatment : (d.isAnomalous spec >>= fun anomalous =>
    if anomalous then d.recover spec >>= fun _ => pure () else pure ()).Behaves spec.name
      fun held closed _ log after => Treatment d spec closed held log after := by
  have hrest : ∀ anomalous : Bool, (if anomalous then d.recover spec >>= fun _ => pure ()
      else pure () : Detection Unit).Behaves spec.name fun held closed _ log after =>
      if anomalous then Recovery d spec closed held log after else log = [] ∧ after = held := by
    intro anomalous
    cases anomalous with
    | false => exact (behaves_pure ()).congr fun _ _ _ _ _ => and_iff_right rfl
    | true => exact behaves_recover
  refine (behaves_isAnomalous.bind hrest).congr fun held closed a log after => ?_
  constructor
  · rintro ⟨_, first, _, later, ⟨verdict, rfl, hasked, rfl⟩, hlater, rfl⟩
    cases hverdict : isPositive verdict with
    | false =>
      rw [hverdict] at hlater
      obtain ⟨rfl, rfl⟩ := hlater
      rw [List.append_nil]
      exact .calm hasked hverdict
    | true =>
      rw [hverdict] at hlater
      exact .alarmed hasked hverdict hlater
  · intro htreatment
    cases htreatment with
    | calm hasked hcalm =>
      refine ⟨_, log, _, [], ⟨_, rfl, hasked, rfl⟩, ?_, (List.append_nil _).symm⟩
      rw [hcalm]
      exact ⟨rfl, rfl⟩
    | alarmed hasked halarmed hrecovery =>
      refine ⟨_, _, _, _, ⟨_, rfl, hasked, rfl⟩, ?_, rfl⟩
      rw [halarmed]
      exact hrecovery

/-- What follows an observation, once it was reported. -/
def treating (d : Detector) (spec : TaskSpec) (status : TaskStatus) : Detection Unit :=
  if spec.isAutoScaled && status == .running then
    d.isAnomalous spec >>= fun anomalous =>
      if anomalous then d.recover spec >>= fun _ => pure () else pure ()
  else pure ()

theorem behaves_treating (status : TaskStatus) : (d.treating spec status).Behaves spec.name
    fun held closed _ log after =>
      if spec.isAutoScaled && status == .running then Treatment d spec closed held log after
      else log = [] ∧ after = held := by
  simp only [treating]
  cases spec.isAutoScaled && status == .running with
  | false => exact (behaves_pure ()).congr fun _ _ _ _ _ => and_iff_right rfl
  | true => exact behaves_treatment

theorem behaves_reporting (status : TaskStatus) (runtime : List RuntimeInstance) :
    (if d.reports then askOutside (.report spec.name status runtime) >>= fun _ =>
        d.treating spec status
      else d.treating spec status).Behaves spec.name fun held closed _ log after =>
        Following d spec closed held (.ok (status, runtime)) log after := by
  have hways : ∀ held closed log after, Following d spec closed held (.ok (status, runtime)) log
      after ↔ ∃ answer later, log = d.reporting spec status runtime answer ++ later ∧
        if spec.isAutoScaled && status == .running then Treatment d spec closed held later after
        else later = [] ∧ after = held := by
    intro held closed log after
    constructor
    · intro hfollowing
      cases hfollowing with
      | left _ answer hleft =>
        exact ⟨answer, [], (List.append_nil _).symm, by rw [hleft]; exact ⟨rfl, rfl⟩⟩
      | treated _ answer hdue htreatment =>
        exact ⟨answer, _, rfl, by rw [hdue]; exact htreatment⟩
    · rintro ⟨answer, later, rfl, hlater⟩
      cases hdue : spec.isAutoScaled && status == .running with
      | false =>
        rw [hdue] at hlater
        obtain ⟨rfl, rfl⟩ := hlater
        rw [List.append_nil]
        exact .left runtime answer hdue
      | true =>
        rw [hdue] at hlater
        exact .treated runtime answer hdue hlater
  simp only [hways, reporting]
  cases d.reports with
  | false =>
    refine (behaves_treating status).congr fun held closed a log after => ?_
    constructor
    · intro htreating
      exact ⟨.ok (), log, rfl, htreating⟩
    · rintro ⟨-, later, rfl, htreating⟩
      exact htreating
  | true =>
    refine ((behaves_askOutside (.report spec.name status runtime)).bind
      fun _ => behaves_treating status).congr fun held closed a log after => ?_
    constructor
    · rintro ⟨answer, _, _, later, ⟨rfl, rfl⟩, htreating, rfl⟩
      exact ⟨answer, later, rfl, htreating⟩
    · rintro ⟨answer, later, rfl, htreating⟩
      exact ⟨answer, _, _, later, ⟨rfl, rfl⟩, htreating, rfl⟩

/-- A visit goes one of its ways, wherever the task is ready. -/
theorem behaves_visit : (d.visit spec).Behaves spec.name
    fun held closed _ log after => Visit d spec closed held log after := by
  simp only [visit]
  refine (behaves_observe.bind (C := fun seen held closed _ log after =>
    Following d spec closed held seen log after) fun seen => ?_).congr
      fun held closed a log after => ?_
  · cases seen with
    | error cause =>
      refine (behaves_pure ()).congr fun held closed a log after => ?_
      constructor
      · rintro ⟨-, rfl, rfl⟩
        exact .unseen cause
      · intro hfollowing
        cases hfollowing
        exact ⟨rfl, rfl, rfl⟩
    | ok seen => exact behaves_reporting seen.1 seen.2
  · constructor
    · rintro ⟨seen, first, mid, later, hobserved, hfollowing, rfl⟩
      exact .observed hobserved hfollowing
    · rintro ⟨hobserved, hfollowing⟩
      exact ⟨_, _, _, _, hobserved, hfollowing, rfl⟩

end Detector

end ServingPlane
