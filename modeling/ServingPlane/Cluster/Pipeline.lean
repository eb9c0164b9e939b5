import ServingPlane.Json.Printer
import ServingPlane.Task.Spec

/-! # Telemetry pipelines

    What a task's collector does: it receives traces and metrics from the
    replicas and scrapes their service, tags metrics with the cluster,
    strips attributes of single requests, and sends everything to the
    message broker.  Components are defined by name and pipelines refer
    to them. -/

namespace ServingPlane

open Numeric

/-- A pipeline names the components that data flows through. -/
structure Pipeline where
  receivers : List String
  processors : List String
  exporters : List String
  deriving DecidableEq, Repr

/-- Component definitions and the pipelines over them. -/
structure PipelineConfig where
  receivers : List (String × Json)
  processors : List (String × Json)
  exporters : List (String × Json)
  pipelines : List (String × Pipeline)

namespace PipelineConfig

/-- The port on which replicas deliver over the binary protocol. -/
def grpcPort : Nat := 4317

/-- The port on which replicas deliver over HTTP. -/
def httpPort : Nat := 4318

/-- A listening endpoint on every interface. -/
def endpoint (port : Nat) : Json :=
  .object [("endpoint", .string ("0.0.0.0:" ++ natText port))]

/-- Replicas deliver here. -/
def deliveryReceiver : Json :=
  .object [("protocols", .object [("grpc", endpoint grpcPort), ("http", endpoint httpPort)])]

/-- One job that scrapes one target every five seconds. -/
def scrapeReceiver (job target : String) : Json :=
  .object [("config", .object [("scrape_configs", .array [.object [
    ("job_name", .string job),
    ("scrape_interval", .string "5s"),
    ("static_configs", .array [.object [("targets", .strings [target])]])]])])]

/-- Set an attribute. -/
def insertAction (key value : String) : Json :=
  .object [("key", .string key), ("action", .string "insert"), ("value", .string value)]

/-- Drop an attribute. -/
def deleteAction (key : String) : Json :=
  .object [("key", .string key), ("action", .string "delete")]

/-- Change attributes. -/
def attributesProcessor (actions : List Json) : Json := .object [("actions", .array actions)]

/-- The message broker as a sink. -/
def brokerExporter (k : KafkaConfig) : Json :=
  .object [
    ("brokers", .strings k.brokers),
    ("topic", .string "k8s-common-collector"),
    ("protocol_version", .string "2.0.0"),
    ("auth", .object [("sasl", .object [
      ("username", .string k.username),
      ("password", .string k.password),
      ("mechanism", .string "PLAIN")])])]

/-- The configuration for one task whose service is scraped at `target`. -/
def forTask (spec : TaskSpec) (target : String) : PipelineConfig where
  receivers := [("otlp", deliveryReceiver), ("prometheus", scrapeReceiver spec.name target)]
  processors := [
    ("batch", .object []),
    ("attributes/metrics",
      attributesProcessor [insertAction "cluster_id" spec.collector.clusterId]),
    ("attributes/http",
      attributesProcessor [deleteAction "http.server_name", deleteAction "http.host"])]
  exporters := [("kafka", brokerExporter spec.collector.kafka)]
  pipelines := [
    ("traces", ⟨["otlp"], ["batch"], ["kafka"]⟩),
    ("metrics",
      ⟨["prometheus", "otlp"], ["attributes/metrics", "attributes/http", "batch"], ["kafka"]⟩)]

/-- One pipeline as a document. -/
def pipelineDocument (p : Pipeline) : Json :=
  .object [("receivers", .strings p.receivers), ("processors", .strings p.processors),
    ("exporters", .strings p.exporters)]

/-- The configuration as a document. -/
def document (c : PipelineConfig) : Json :=
  .object [
    ("receivers", .object c.receivers),
    ("processors", .object c.processors),
    ("exporters", .object c.exporters),
    ("service", .object [("pipelines",
      .object (c.pipelines.map fun (name, p) => (name, pipelineDocument p)))])]

/-- The configuration as the text that the operator of collectors reads. -/
def text (c : PipelineConfig) : String := c.document.pretty

end PipelineConfig

end ServingPlane
