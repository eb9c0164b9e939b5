import ServingPlane.Cluster.Manifest
import ServingPlane.Container.Pool
import ServingPlane.Metrics.Query
import ServingPlane.Proofs.Dict
import ServingPlane.Proofs.Program

/-! # Exporter names and the queries that look for them

    A replica exports under the name that its argument list gives behind
    `--exporter_service_name`, and a query picks the series whose label
    its pattern matches as a whole.  A container is given a name of its
    own, the service name with `-replica-` and a suffix, and every query
    finds it.  A pod is given the bare service name, and no query does. -/

namespace ServingPlane

/-! ## Patterns -/

namespace LabelPattern

/-- Characters that a pattern, or the query that holds it, takes for more than themselves. -/
def operators : List Char := "\\\".+*?()[]\x7b\x7d|^$".toList

/-- A text in which every character stands for itself. -/
def Plain (text : String) : Prop := ∀ c ∈ text.toList, c ∉ operators

instance (text : String) : Decidable (Plain text) :=
  List.decidableBAll (fun c => c ∉ operators) text.toList

/-- A character of a pattern fits itself, `.` fits every one. -/
def Fits (p c : Char) : Prop := p = '.' ∨ p = c

/-- A pattern matches a text as a whole: character by character, where one
    before `*` stands for any number of characters that fit it. -/
def Matches : List Char → List Char → Prop
  | [], text => text = []
  | p :: '*' :: rest, text =>
    ∃ run tail, text = run ++ tail ∧ (∀ c ∈ run, Fits p c) ∧ Matches rest tail
  | p :: rest, text => ∃ c tail, text = c :: tail ∧ Fits p c ∧ Matches rest tail

theorem matches_anything (text : List Char) : Matches ['.', '*'] text :=
  ⟨text, [], text.append_nil.symm, fun _ _ => .inl rfl, rfl⟩

theorem matches_cons {p : Char} {rest text : List Char} (h : rest.head? ≠ some '*') :
    Matches (p :: rest) text ↔ ∃ c tail, text = c :: tail ∧ Fits p c ∧ Matches rest tail := by
  cases rest with
  | nil => rfl
  | cons q rest =>
    have hq : q ≠ '*' := fun heq => h (congrArg some heq)
    rw [Matches]
    rintro tail ⟨⟩
    exact hq rfl

/-- Plain characters match themselves only. -/
theorem matches_append {literal rest text : List Char} (hliteral : ∀ c ∈ literal, c ∉ operators)
    (hrest : rest.head? ≠ some '*') :
    Matches (literal ++ rest) text ↔ ∃ tail, text = literal ++ tail ∧ Matches rest tail := by
  induction literal generalizing text with
  | nil => exact ⟨fun h => ⟨text, rfl, h⟩, by rintro ⟨tail, rfl, h⟩; exact h⟩
  | cons p literal ih =>
    have hp : p ≠ '.' := fun heq => hliteral p List.mem_cons_self (heq ▸ by decide)
    have hliteral' : ∀ c ∈ literal, c ∉ operators := fun c hc =>
      hliteral c (List.mem_cons_of_mem _ hc)
    -- the next character is one of the literal or the first of the rest
    have hhead : (literal ++ rest).head? ≠ some '*' := by
      cases literal with
      | nil => exact hrest
      | cons q literal =>
        rintro ⟨⟩
        exact hliteral' '*' List.mem_cons_self (by decide)
    rw [List.cons_append, matches_cons hhead]
    constructor
    · rintro ⟨c, tail, rfl, hdot | rfl, h⟩
      · exact absurd hdot hp
      · obtain ⟨last, rfl, hlast⟩ := (ih hliteral').mp h
        exact ⟨last, rfl, hlast⟩
    · rintro ⟨tail, rfl, h⟩
      exact ⟨p, literal ++ tail, rfl, .inr rfl, (ih hliteral').mpr ⟨tail, rfl, h⟩⟩

end LabelPattern

/-! ## What a query selects -/

namespace Metric

open LabelPattern

variable {service value : String}

/-- The label that tells the replicas of a service apart in a series. -/
def label : Metric → String
  | successes => "service"
  | _ => "exported_job"

/-- The first matcher of a query: what stands between its brace and its
    first quote, and what is quoted. -/
def firstMatcher (query : String) : List Char × List Char :=
  let matchers := (query.toList.dropWhile (· ≠ '\x7b')).drop 1
  (matchers.takeWhile (· ≠ '"'), ((matchers.dropWhile (· ≠ '"')).drop 1).takeWhile (· ≠ '"'))

/-- A query picks the series that carry a value in its first label. -/
def Selects (query value : String) : Prop :=
  ∃ label : String, ∃ pattern, firstMatcher query = ((label ++ "=~").toList, pattern) ∧
    Matches pattern value.toList

theorem firstMatcher_append {series label pattern rest : String}
    (hseries : '\x7b' ∉ series.toList) (hlabel : '"' ∉ label.toList)
    (hpattern : '"' ∉ pattern.toList) :
    firstMatcher (series ++ "\x7b" ++ labelMatcher label pattern ++ rest)
      = ((label ++ "=~").toList, pattern.toList) := by
  have hno : ∀ {stop : Char} {before : List Char}, stop ∉ before →
      ∀ c ∈ before, decide (c ≠ stop) = true := fun hstop c hc =>
    decide_eq_true fun heq => hstop (heq ▸ hc)
  have hskip : (series ++ "\x7b" ++ labelMatcher label pattern ++ rest).toList.dropWhile
      (· ≠ '\x7b') = '\x7b' :: ((label ++ "=~").toList ++ '"' ::
        (pattern.toList ++ '"' :: rest.toList)) := by
    simp only [labelMatcher, String.toList_append, List.append_assoc]
    rw [List.dropWhile_append_of_pos (hno hseries)]
    rfl
  have hmatcher : '"' ∉ (label ++ "=~").toList := by
    rw [String.toList_append, List.mem_append]
    exact not_or.mpr ⟨hlabel, by decide⟩
  simp only [firstMatcher]
  rw [hskip, List.drop_one, List.tail_cons, List.takeWhile_append_of_pos (hno hmatcher),
    List.dropWhile_append_of_pos (hno hmatcher), List.takeWhile_cons_of_neg (by simp),
    List.dropWhile_cons_of_neg (by simp), List.drop_one, List.tail_cons,
    List.takeWhile_append_of_pos (hno hpattern), List.takeWhile_cons_of_neg (by simp),
    List.append_nil, List.append_nil]

theorem gaugeQuery_eq (series service : String) : gaugeQuery series service =
    "avg by(exported_job) (" ++ series ++ "\x7b" ++
      labelMatcher "exported_job" (replicaPattern service) ++ ("\x7d" ++ ")") := by
  unfold gaugeQuery selector
  rw [String.intercalate_singleton]
  simp only [String.append_assoc]

/-- Every query starts with a matcher for the replicas of the service. -/
theorem query_eq (metric : Metric) (service : String) : ∃ series rest : String,
    '\x7b' ∉ series.toList ∧ metric.query service =
      series ++ "\x7b" ++ labelMatcher metric.label (replicaPattern service) ++ rest := by
  cases metric with
  | pendingRequests => exact ⟨_, _, by decide, gaugeQuery_eq _ _⟩
  | activeRequests => exact ⟨_, _, by decide, gaugeQuery_eq _ _⟩
  | runningRequests => exact ⟨_, _, by decide, gaugeQuery_eq _ _⟩
  | kvCacheUsage => exact ⟨_, _, by decide, gaugeQuery_eq _ _⟩
  | newRequests =>
    refine ⟨"sum(rate(" ++ "http_server_requests_total", "\x7d" ++ "[1m]) * 60) by (exported_job)",
      by decide, ?_⟩
    unfold query selector label
    simp only [String.intercalate_singleton, String.append_assoc]
  | successes =>
    refine ⟨"avg by(service) (increase(" ++ "traces_spanmetrics_calls_total",
      ", " ++ "span_name=\"POST /generate\"" ++ ", " ++ labelMatcher "http_status_code" "2.." ++
        ("\x7d" ++ "[1m]))"), by decide, ?_⟩
    unfold query selector label
    simp only [String.intercalate_cons_cons, String.intercalate_singleton, String.append_assoc]

variable {service value : String}

/-- Every query for a plain service picks the values that start with its
    name and `-replica`. -/
theorem selects_query (hplain : Plain service) (metric : Metric) :
    Selects (metric.query service) value ↔ (service ++ "-replica").toList <+: value.toList := by
  have hsuffix : Plain "-replica" := by decide
  have hliteral : ∀ c ∈ (service ++ "-replica").toList, c ∉ operators := by
    intro c hc
    rw [String.toList_append, List.mem_append] at hc
    exact hc.elim (hplain c) fun hc => hsuffix c hc
  have hpattern : (replicaPattern service).toList
      = (service ++ "-replica").toList ++ ['.', '*'] := by
    rw [replicaPattern, String.toList_append, String.toList_append, List.append_assoc]
    rfl
  have hquote : '"' ∉ (replicaPattern service).toList := by
    rw [hpattern, List.mem_append]
    exact not_or.mpr ⟨fun hmem => hliteral _ hmem (by decide), by decide⟩
  have hmatches : Matches (replicaPattern service).toList value.toList ↔
      (service ++ "-replica").toList <+: value.toList := by
    rw [hpattern, matches_append hliteral (by decide)]
    constructor
    · rintro ⟨tail, heq, -⟩
      exact ⟨tail, heq.symm⟩
    · rintro ⟨tail, heq⟩
      exact ⟨tail, heq.symm, matches_anything tail⟩
  obtain ⟨series, rest, hseries, heq⟩ := query_eq metric service
  have hfirst : firstMatcher (metric.query service) =
      ((metric.label ++ "=~").toList, (replicaPattern service).toList) := by
    rw [heq]
    exact firstMatcher_append hseries (by cases metric <;> decide) hquote
  constructor
  · rintro ⟨label, pattern, hmatcher, h⟩
    obtain rfl := congrArg Prod.snd (hfirst.symm.trans hmatcher)
    exact hmatches.mp h
  · intro h
    exact ⟨metric.label, _, hfirst, hmatches.mpr h⟩

end Metric

/-! ## What a replica is told -/

/-- The flag in front of the name that a replica exports under. -/
def exporterFlag : String := "--exporter_service_name"

/-- The values behind a flag in a row of flags with values. -/
def passed (flag : String) : List String → List String
  | word :: value :: rest => if word = flag then value :: passed flag rest else passed flag rest
  | _ => []

/-- The names that an argument list gives its replica to export under, in order. -/
def exporterNames (startCommand words : List String) : List String :=
  passed exporterFlag (words.drop startCommand.length)

theorem passed_flagWords (flag : String) (flags : List (String × String)) :
    passed flag (flagWords flags) = (flags.filter (·.1 = flag)).map (·.2) := by
  induction flags with
  | nil => rfl
  | cons pair flags ih =>
    obtain ⟨word, value⟩ := pair
    show passed flag (word :: value :: flagWords flags) = _
    rw [passed, ih, List.filter_cons]
    by_cases hword : word = flag
    · rw [if_pos hword, if_pos (by simpa using hword)]
      rfl
    · rw [if_neg hword, if_neg (by simpa using hword)]

namespace TaskSpec

open ContainerPool

variable {spec : TaskSpec}

/-- The name that the extra arguments of a spec give beside that of the backend. -/
def extraExporterName? (s : TaskSpec) : Option String :=
  s.extraArguments.get? "exporter_service_name"

theorem filter_launchFlags (engine : Engine) :
    engine.launchFlags.filter (·.1 = exporterFlag) = [] := by
  cases engine with
  | vllm s =>
    simp only [Engine.launchFlags, VllmSettings.launchFlags, List.filter_append,
      List.append_eq_nil_iff]
    refine ⟨⟨⟨⟨?_, ?_⟩, ?_⟩, ?_⟩, ?_⟩ <;> split <;> rfl

theorem filter_extraFlags (s : TaskSpec) :
    (s.extraFlags.filter (·.1 = exporterFlag)).map (·.2) = s.extraExporterName?.toList := by
  have hword : exporterFlag = "--" ++ "exporter_service_name" := rfl
  have hflag : ∀ key : String, "--" ++ key = exporterFlag ↔ key = "exporter_service_name" := by
    intro key
    rw [hword, String.append_right_inj]
  have hflags : s.extraFlags = s.extraArguments.entries.map fun p => ("--" ++ p.1, p.2) := rfl
  have hfilter : (s.extraArguments.entries.map fun p => ("--" ++ p.1, p.2)).filter
      (·.1 = exporterFlag) = (s.extraArguments.entries.filter (·.1 = "exporter_service_name")).map
        fun p => ("--" ++ p.1, p.2) := by
    rw [List.filter_map]
    refine congrArg _ (List.filter_congr fun p _ => ?_)
    exact decide_eq_decide.mpr (hflag p.1)
  rw [hflags, hfilter, Dict.filter_entries, extraExporterName?]
  cases s.extraArguments.get? "exporter_service_name" <;> rfl

/-- A launch command gives the name that it is built with, then that of the
    extra arguments, if they have one. -/
theorem exporterNames_launchCommand (s : TaskSpec) (startCommand : List String)
    (name endpoint : String) :
    exporterNames startCommand (s.launchCommand startCommand name endpoint)
      = name :: s.extraExporterName?.toList := by
  have hfixed : (s.fixedFlags name endpoint).filter (·.1 = exporterFlag)
      = [(exporterFlag, name)] := rfl
  rw [exporterNames, launchCommand, List.drop_left, passed_flagWords, List.filter_append,
    List.filter_append, hfixed, filter_launchFlags, List.append_nil, List.map_append,
    filter_extraFlags]
  rfl

/-- Defaults leave no task without a service name. -/
theorem exporterServiceName_fillDefaults_ne (s : TaskSpec) (serving : ServingSettings) :
    (s.fillDefaults serving).exporterServiceName ≠ "" := by
  simp only [fillDefaults]
  split
  · intro hempty
    simp only [String.append_eq_empty_iff] at hempty
    exact absurd hempty.1.1.1.2 (by decide)
  · rename_i hnamed
    exact fun hempty => hnamed (String.isEmpty_iff.mpr hempty)

theorem replicaBase_of_ne (h : spec.exporterServiceName ≠ "") :
    spec.replicaBase = spec.exporterServiceName :=
  if_neg fun hempty => h (String.isEmpty_iff.mp hempty)

end TaskSpec

/-! ## Containers -/

namespace ContainerPool

open Program

variable {serving : ServingSettings} {spec : TaskSpec} {pool : PoolState}
  {allowed : ContainerLaunch → Prop}

/-- A call that creates no container, or creates one by such a launch. -/
def CreatesBy (allowed : ContainerLaunch → Prop) : {α : Type} → PoolCall α → Prop
  | _, .inl (.create launch) => allowed launch
  | _, _ => True

theorem createsBy_stopMany (ids : List String) :
    (stopMany ids pool).EveryCall (CreatesBy allowed) := by
  induction ids generalizing pool with
  | nil => trivial
  | cons id ids ih =>
    refine everyCall_bind (everyCall_ask trivial) fun stopped => ?_
    cases stopped with
    | ok => exact ih
    | error e => exact everyCall_bind ih fun _ => trivial

theorem createsBy_recordThen (task : String) (ids : List String)
    (result : Except BackendError Unit) :
    (recordThen task ids result).EveryCall (CreatesBy allowed) := by
  refine everyCall_bind (everyCall_ask trivial) fun recorded => ?_
  cases recorded with
  | error e => trivial
  | ok => trivial

theorem createsBy_shrink (ids : List String) (excess : Nat) :
    (shrink spec ids excess pool).EveryCall (CreatesBy allowed) :=
  everyCall_bind (createsBy_stopMany _) fun _ =>
    everyCall_bind (createsBy_recordThen ..) fun _ => trivial

theorem createsBy_tearDown (ids : List String) :
    (tearDown spec ids pool).EveryCall (CreatesBy allowed) := by
  refine everyCall_bind (createsBy_stopMany _) fun stopped => ?_
  split
  · refine everyCall_bind (everyCall_ask trivial) fun forgotten => ?_
    cases forgotten with
    | error e => trivial
    | ok _ => trivial
  · exact everyCall_bind (createsBy_recordThen ..) fun _ => trivial

section Launches

variable (h : ∀ suffix gpus, allowed (spec.containerLaunch serving suffix gpus))
include h

theorem createsBy_launchOne :
    (launchOne serving spec pool).EveryCall (CreatesBy allowed) := by
  refine everyCall_bind (everyCall_ask trivial) fun suffix =>
    everyCall_bind (everyCall_ask (h suffix _)) fun created => ?_
  cases created with
  | error e => trivial
  | ok id =>
    refine everyCall_bind (everyCall_ask trivial) fun started => ?_
    cases started with
    | error e => exact everyCall_bind (everyCall_ask trivial) fun _ => trivial
    | ok => trivial

theorem createsBy_launchEach (n : Nat) :
    (launchEach serving spec n pool).EveryCall (CreatesBy allowed) := by
  induction n generalizing pool with
  | zero => trivial
  | succ n ih =>
    refine everyCall_bind (createsBy_launchOne h) fun one => everyCall_bind ih fun rest => ?_
    cases one.result with
    | ok id => trivial
    | error e => trivial

theorem createsBy_grow (ids : List String) (missing : Nat) :
    (grow serving spec ids missing pool).EveryCall (CreatesBy allowed) := by
  refine everyCall_bind (everyCall_bind (everyCall_ask trivial) fun fetched => ?_)
    fun launched => ?_
  · cases fetched with
    | error e => trivial
    | ok => exact everyCall_bind (createsBy_launchEach h missing) fun _ => trivial
  · obtain ⟨result, left⟩ := launched
    cases result with
    | error e => trivial
    | ok l => exact everyCall_bind (createsBy_recordThen ..) fun _ => trivial

/-- A reconcile creates containers by launches of its spec only. -/
theorem createsBy_reconcile : (reconcile serving spec pool).EveryCall (CreatesBy allowed) := by
  refine everyCall_bind (everyCall_ask trivial) fun recorded => ?_
  match recorded with
  | .error e => trivial
  | .ok none =>
    show (if spec.replica.toNat = 0 then _ else _ : Program _ _).EveryCall _
    split
    · trivial
    · exact createsBy_grow h ..
  | .ok (some ids) =>
    show (if spec.replica.toNat = 0 then _ else if _ then _ else if _ then _ else _ :
      Program _ _).EveryCall _
    split
    · exact createsBy_tearDown ids
    · split
      · exact createsBy_shrink ..
      · split
        · exact createsBy_grow h ..
        · trivial

end Launches

end ContainerPool

/-! ## Pods -/

namespace DeploymentManifest

/-- The whole argument list of a pod. -/
def words (m : DeploymentManifest) : List String := m.command.getD [] ++ m.arguments

end DeploymentManifest

theorem TaskSpec.words_of_deploymentManifest {spec : TaskSpec} {ctx : ClusterContext}
    {m : DeploymentManifest} (h : spec.deploymentManifest ctx = .ok m) :
    m.words = spec.launchCommand ctx.startCommand spec.exporterServiceName
      spec.collectorEndpoint := by
  have hwords : (spec.podCommand ctx).1.getD [] ++ (spec.podCommand ctx).2
      = spec.launchCommand ctx.startCommand spec.exporterServiceName spec.collectorEndpoint := by
    simp only [podCommand]
    split
    · rfl
    · exact List.take_append_drop 1 _
  simp only [deploymentManifest] at h
  split at h
  · cases h
  · cases h
    exact hwords

/-! ## Which replicas are seen -/

/-- A deployed task exports under names of its service, and every query
    picks the names that start with the service name and `-replica`: so
    all of them pick the name that a container is given, and none of them
    that of a pod, which is the bare service name.  An extra argument of
    the spec may give a second name. -/
theorem containers_selected_pods_missed (spec : TaskSpec) (serving : ServingSettings)
    (hplain : LabelPattern.Plain (spec.fillDefaults serving).exporterServiceName) :
    let filled := spec.fillDefaults serving
    let service := filled.exporterServiceName
    service ≠ "" ∧
    (∀ (metric : Metric) (name : String), Metric.Selects (metric.query service) name ↔
      (service ++ "-replica").toList <+: name.toList) ∧
    (∀ pool, (ContainerPool.reconcile serving filled pool).EveryCall
      (ContainerPool.CreatesBy fun launch => ∃ name,
        exporterNames serving.startCommand launch.command
          = name :: filled.extraExporterName?.toList ∧
        ∀ metric : Metric, Metric.Selects (metric.query service) name)) ∧
    ∀ ctx m, filled.deploymentManifest ctx = .ok m →
      exporterNames ctx.startCommand m.words = service :: filled.extraExporterName?.toList ∧
        ∀ metric : Metric, ¬ Metric.Selects (metric.query service) service := by
  intro filled service
  have hne : service ≠ "" := spec.exporterServiceName_fillDefaults_ne serving
  refine ⟨hne, fun metric name => Metric.selects_query hplain metric, ?_, ?_⟩
  · refine fun pool => ContainerPool.createsBy_reconcile fun suffix gpus => ?_
    refine ⟨filled.replicaName suffix, filled.exporterNames_launchCommand .., fun metric => ?_⟩
    have hdash : "-replica-" = "-replica" ++ "-" := rfl
    have hname : filled.replicaName suffix = service ++ "-replica" ++ ("-" ++ suffix) := by
      rw [TaskSpec.replicaName, TaskSpec.replicaBase_of_ne hne, hdash]
      simp only [String.append_assoc, service]
    rw [Metric.selects_query hplain, hname, String.toList_append (s := service ++ "-replica")]
    exact List.prefix_append _ _
  · intro ctx m hm
    refine ⟨?_, fun metric hselects => ?_⟩
    · rw [TaskSpec.words_of_deploymentManifest hm]
      exact filled.exporterNames_launchCommand ..
    · -- no text starts with a longer one
      have hlength := ((Metric.selects_query hplain metric).mp hselects).length_le
      rw [String.toList_append, List.length_append] at hlength
      exact absurd hlength (Nat.not_le.mpr (Nat.lt_add_of_pos_right (by decide)))

/-- A task with one replica that names its service. -/
def named : TaskSpec :=
  { TaskSpec.blank with name := "chat", exporterServiceName := "chat-svc", replica := 1 }

/-- The serving settings of a daemon that is given none. -/
def standardServing : ServingSettings := Settings.standard.serving

theorem plain_named :
    LabelPattern.Plain (named.fillDefaults standardServing).exporterServiceName := by
  show LabelPattern.Plain "chat-svc"
  decide

/-- In an empty pool its container is created, under a name that every query picks. -/
theorem containers_selected_pods_missed_of_named :
    LabelPattern.Plain (named.fillDefaults standardServing).exporterServiceName ∧
    ∃ name, exporterNames standardServing.startCommand
        ((named.fillDefaults standardServing).containerLaunch standardServing "ab12" []).command
        = [name] ∧
      ∀ metric : Metric, Metric.Selects (metric.query "chat-svc") name := by
  obtain ⟨-, -, hcontainers, -⟩ :=
    containers_selected_pods_missed named standardServing plain_named
  -- nothing is on record, the image is there, and the suffix is drawn
  have hcreate := (((hcontainers (.ofIndices [])).2 (.ok none)).2 (.ok ())).2 "ab12"
  exact ⟨plain_named, hcreate.1⟩

/-- Its pod exports under a name that no query picks. -/
theorem pod_missed_by_queries : ∃ m,
    (named.fillDefaults standardServing).deploymentManifest
        (.ofSettings standardServing Settings.standard.cluster) = .ok m ∧
      exporterNames standardServing.startCommand m.words = ["chat-svc"] ∧
      ∀ metric : Metric, ¬ Metric.Selects (metric.query "chat-svc") "chat-svc" := by
  refine ⟨_, rfl, rfl, fun metric hselects => ?_⟩
  have hprefix := (Metric.selects_query plain_named metric).mp hselects
  exact absurd hprefix (by decide)

end ServingPlane
