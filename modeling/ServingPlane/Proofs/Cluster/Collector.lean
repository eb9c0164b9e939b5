import ServingPlane.Proofs.Cluster.Manifests
import ServingPlane.Proofs.Json.Text

/-! # The collector of a task

    A collector is asked for together with the service that it scrapes,
    and its configuration travels as a text inside its document.  The text
    is read back as the configuration, whatever the strings in it are; its
    pipelines name nothing that it does not define, and its one target is
    a port of the service. -/

namespace ServingPlane

open Json Numeric

/-! ## The configuration as a text -/

namespace Json

theorem itemsNumbers_strings (texts : List String) : itemsNumbers (texts.map .string) = [] := by
  induction texts with
  | nil => rfl
  | cons s texts ih => exact ih

theorem itemsNesting_strings (texts : List String) : itemsNesting (texts.map .string) = 0 := by
  induction texts with
  | nil => rfl
  | cons s texts ih => exact (Nat.zero_max _).trans ih

theorem canonicalItems_strings (texts : List String) :
    canonicalItems (texts.map .string) = texts.map .string := by
  induction texts with
  | nil => rfl
  | cons s texts ih => exact congrArg (Json.string s :: ·) ih

end Json

namespace PipelineConfig

variable (spec : TaskSpec) (target : String)

/-- There is no number in a configuration, ports included. -/
theorem numbers_document : (forTask spec target).document.numbers = [] := by
  simp only [document, forTask, deliveryReceiver, endpoint, scrapeReceiver, attributesProcessor,
    insertAction, deleteAction, brokerExporter, pipelineDocument, strings, numbers, membersNumbers,
    itemsNumbers, itemsNumbers_strings, List.map_cons, List.map_nil, List.append_nil]

theorem nesting_document : (forTask spec target).document.nesting = 9 := by
  simp only [document, forTask, deliveryReceiver, endpoint, scrapeReceiver, attributesProcessor,
    insertAction, deleteAction, brokerExporter, pipelineDocument, strings, nesting, membersNesting,
    itemsNesting, itemsNesting_strings, List.map_cons, List.map_nil]
  rfl

/-- The text of a configuration is read as the configuration. -/
theorem parse_text :
    Json.parse (forTask spec target).text = .ok (forTask spec target).document.canonical := by
  refine parse_pretty ?_ ?_
  · rw [numbers_document]
    exact fun _ h => absurd h List.not_mem_nil
  · rw [nesting_document]
    decide

/-- What is read where in the configuration of a task's collector. -/
structure Conveys (spec : TaskSpec) (target : String) (config : Json) : Prop where
  clusterId : ∃ action, config.itemsAt ["processors", "attributes/metrics", "actions"] = [action] ∧
    action.textAt? ["key"] = some "cluster_id" ∧
    action.textAt? ["value"] = some spec.collector.clusterId
  brokers : config.at? ["exporters", "kafka", "brokers"]
    = some (.strings spec.collector.kafka.brokers)
  username : config.textAt? ["exporters", "kafka", "auth", "sasl", "username"]
    = some spec.collector.kafka.username
  password : config.textAt? ["exporters", "kafka", "auth", "sasl", "password"]
    = some spec.collector.kafka.password
  /-- One job scrapes one target. -/
  job : ∃ job group,
    config.itemsAt ["receivers", "prometheus", "config", "scrape_configs"] = [job] ∧
    job.textAt? ["job_name"] = some spec.name ∧ job.itemsAt ["static_configs"] = [group] ∧
    group.at? ["targets"] = some (.strings [target])
  /-- Whatever the pipelines name is defined. -/
  defined : ∃ pipelines, config.at? ["service", "pipelines"] = some (.object pipelines) ∧
    pipelines.map Prod.fst = ["metrics", "traces"] ∧
    ∀ p ∈ pipelines, ∀ part ∈ ["receivers", "processors", "exporters"],
      ∃ names, p.2.at? [part] = some (.strings names) ∧
        ∀ name ∈ names, (config.at? [part, name]).isSome

/-- What a pipeline names is defined part by part. -/
theorem defined_of_pipeline {config : Json} (p : Pipeline)
    (hreceivers : ∀ name ∈ p.receivers, (config.at? ["receivers", name]).isSome)
    (hprocessors : ∀ name ∈ p.processors, (config.at? ["processors", name]).isSome)
    (hexporters : ∀ name ∈ p.exporters, (config.at? ["exporters", name]).isSome) :
    ∀ part ∈ ["receivers", "processors", "exporters"],
      ∃ names, (pipelineDocument p).canonical.at? [part] = some (.strings names) ∧
        ∀ name ∈ names, (config.at? [part, name]).isSome := by
  have hnames : ∀ names : List String,
      some (Json.array (canonicalItems (names.map .string))) = some (.strings names) := by
    intro names
    rw [canonicalItems_strings]
    rfl
  refine List.forall_mem_cons.mpr ⟨?_, List.forall_mem_cons.mpr ⟨?_,
    List.forall_mem_singleton.mpr ?_⟩⟩
  · exact ⟨p.receivers, hnames p.receivers, hreceivers⟩
  · exact ⟨p.processors, hnames p.processors, hprocessors⟩
  · exact ⟨p.exporters, hnames p.exporters, hexporters⟩

theorem conveys_document :
    Conveys spec target (forTask spec target).document.canonical where
  clusterId := ⟨_, rfl, rfl, rfl⟩
  brokers := by
    show some (Json.array (canonicalItems (spec.collector.kafka.brokers.map .string))) = _
    rw [canonicalItems_strings]
    rfl
  username := rfl
  password := rfl
  job := ⟨_, _, rfl, rfl, rfl, rfl⟩
  defined := by
    refine ⟨_, rfl, rfl, List.forall_mem_cons.mpr ⟨?_, List.forall_mem_singleton.mpr ?_⟩⟩
    · exact defined_of_pipeline ⟨["prometheus", "otlp"],
        ["attributes/metrics", "attributes/http", "batch"], ["kafka"]⟩
        (List.forall_mem_cons.mpr ⟨rfl, List.forall_mem_singleton.mpr rfl⟩)
        (List.forall_mem_cons.mpr ⟨rfl, List.forall_mem_cons.mpr ⟨rfl,
          List.forall_mem_singleton.mpr rfl⟩⟩)
        (List.forall_mem_singleton.mpr rfl)
    · exact defined_of_pipeline ⟨["otlp"], ["batch"], ["kafka"]⟩
        (List.forall_mem_singleton.mpr rfl) (List.forall_mem_singleton.mpr rfl)
        (List.forall_mem_singleton.mpr rfl)

end PipelineConfig

/-! ## The collector and its service -/

/-- A text names a service, by its name and namespace, at a port that it exposes. -/
def IsTarget (target : String) (service : Json) : Prop :=
  ∃ name space port entry, service.textAt? ["metadata", "name"] = some name ∧
    service.textAt? ["metadata", "namespace"] = some space ∧
    entry ∈ service.itemsAt ["spec", "ports"] ∧ entry.at? ["port"] = some (.ofInt port) ∧
    target = name ++ "." ++ space ++ ".svc:" ++ intText port

namespace TaskSpec

variable {spec : TaskSpec} {ctx : ClusterContext} {desired : List Manifest}

/-- A collector is built where telemetry is on and there is a port to scrape. -/
theorem collectorManifest?_eq_some {m : CollectorManifest} :
    spec.collectorManifest? ctx = some m ↔ spec.collector.enable = true ∧
      ∃ port rest, spec.service.ports = port :: rest ∧
        m = ⟨spec.objectMetadata .collector, ctx.collectorServiceAccount,
          .forTask spec (spec.scrapeTarget port)⟩ := by
  simp only [collectorManifest?]
  constructor
  · intro h
    split at h
    · next port rest henable hports =>
      exact ⟨henable, port, rest, hports, (Option.some.inj h).symm⟩
    · cases h
  · rintro ⟨henable, port, rest, hports, rfl⟩
    rw [henable, hports]

/-- A service exposes every port of the spec. -/
theorem exposes_port {m : ServiceManifest} (h : spec.serviceManifest? = some m) {port : Int32}
    (hport : port ∈ spec.service.ports) :
    ∃ entry ∈ (Manifest.service m).document.itemsAt ["spec", "ports"],
      entry.at? ["port"] = some (.ofInt port.toInt) := by
  obtain ⟨i, hi, rfl⟩ := List.mem_iff_getElem.mp hport
  have hports : m.ports = spec.service.ports.mapIdx fun i p => ("tcp" ++ natText i, p) := by
    simp only [serviceManifest?] at h
    split at h
    · cases h
    · cases h
      rfl
  have hmem : ("tcp" ++ natText i, spec.service.ports[i]) ∈ m.ports := by
    rw [hports]
    exact List.mem_mapIdx.mpr ⟨i, hi, rfl⟩
  exact ⟨_, List.mem_map_of_mem hmem, rfl⟩

/-- The target is one that the service of the spec serves. -/
theorem isTarget_scrapeTarget {m : ServiceManifest} (h : spec.serviceManifest? = some m)
    {port : Int32} (hport : port ∈ spec.service.ports) :
    IsTarget (spec.scrapeTarget port) (Manifest.service m).document := by
  obtain ⟨entry, hentry, hnumber⟩ := exposes_port h hport
  have hmetadata := service_metadata h
  refine ⟨spec.objectName .service, spec.clusterNamespace, port.toInt, entry, ?_, ?_, hentry,
    hnumber, rfl⟩
  · show some m.metadata.name = _
    rw [hmetadata]
    rfl
  · show some m.metadata.namespaceName = _
    rw [hmetadata]
    rfl

/-- A collector is asked for just where telemetry is on and there is a port
    to scrape.  A service comes with it, and is the one that it scrapes, at
    a port that it exposes.  The text in its document is read as its
    configuration, which gives every string back as the spec has it and
    whose pipelines name nothing that is not defined. -/
theorem collector_scrapes_service (h : spec.desiredObjects ctx = .ok desired) :
    ((∃ m ∈ desired, m.kind = .collector) ↔
      spec.collector.enable = true ∧ spec.service.ports ≠ []) ∧
    ∀ m ∈ desired, m.kind = .collector → ∃ service ∈ desired, service.kind = .service ∧
      ∃ target text config, IsTarget target service.document ∧
        m.document.at? ["spec", "config"] = some (.string text) ∧
        Json.parse text = .ok config ∧
        config = (PipelineConfig.forTask spec target).document.canonical ∧
        PipelineConfig.Conveys spec target config := by
  refine ⟨⟨?_, ?_⟩, ?_⟩
  · rintro ⟨m, hm, hkind⟩
    cases m with
    | collector m =>
      obtain ⟨henable, port, rest, hports, -⟩ :=
        collectorManifest?_eq_some.mp ((mem_desiredObjects h).mp hm)
      exact ⟨henable, hports ▸ List.cons_ne_nil port rest⟩
    | _ => cases hkind
  · rintro ⟨henable, hports⟩
    obtain ⟨port, rest, hports⟩ := List.exists_cons_of_ne_nil hports
    exact ⟨.collector _, (mem_desiredObjects h).mpr
      (collectorManifest?_eq_some.mpr ⟨henable, port, rest, hports, rfl⟩), rfl⟩
  · intro m hm hkind
    cases m with
    | collector m =>
      obtain ⟨-, port, rest, hports, rfl⟩ :=
        collectorManifest?_eq_some.mp ((mem_desiredObjects h).mp hm)
      have hport : port ∈ spec.service.ports := hports ▸ List.mem_cons_self
      obtain ⟨service, hservice⟩ : ∃ service, spec.serviceManifest? = some service :=
        ⟨_, if_neg (by rw [hports]; exact Bool.false_ne_true)⟩
      exact ⟨.service service, (mem_desiredObjects h).mpr hservice, rfl, spec.scrapeTarget port, _,
        _, isTarget_scrapeTarget hservice hport, rfl, PipelineConfig.parse_text _ _, rfl,
        PipelineConfig.conveys_document _ _⟩
    | _ => cases hkind

/-- A task with telemetry whose strings hold quotes, braces, a backslash,
    controls and letters beyond ASCII. -/
def outspoken : TaskSpec :=
  { furnished with
    name := "chat \"1\""
    collector :=
      ⟨true, "gpu\\east\t\x01", ⟨["käfka-0:9092", ""], "us\x7fer", "p\"ss: \x7bweird\x7d"⟩⟩ }

/-- The password comes back as it is, quote and braces included. -/
theorem collector_scrapes_service_of_outspoken : ∃ desired,
    outspoken.desiredObjects shellStarted = .ok desired ∧
      ∃ m ∈ desired, ∃ text config, m.document.at? ["spec", "config"] = some (.string text) ∧
        Json.parse text = .ok config ∧
        config.textAt? ["exporters", "kafka", "auth", "sasl", "password"]
          = some "p\"ss: \x7bweird\x7d" := by
  obtain ⟨desired, hdesired⟩ : ∃ desired, outspoken.desiredObjects shellStarted = .ok desired :=
    ⟨_, rfl⟩
  obtain ⟨hexists, hcollector⟩ := collector_scrapes_service hdesired
  obtain ⟨m, hm, hkind⟩ := hexists.mpr ⟨rfl, List.cons_ne_nil _ _⟩
  obtain ⟨service, -, -, target, text, config, -, htext, hparse, -, hconveys⟩ :=
    hcollector m hm hkind
  exact ⟨desired, hdesired, m, hm, text, config, htext, hparse, hconveys.password⟩

end TaskSpec

end ServingPlane
