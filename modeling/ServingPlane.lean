import ServingPlane.Advisor.Client
import ServingPlane.Advisor.Payload
import ServingPlane.Api
import ServingPlane.Api.MediaType
import ServingPlane.Api.Reply
import ServingPlane.Api.Request
import ServingPlane.Backend
import ServingPlane.Cluster.Connection
import ServingPlane.Cluster.Kind
import ServingPlane.Cluster.Manifest
import ServingPlane.Cluster.ObjectStore
import ServingPlane.Cluster.Pipeline
import ServingPlane.Cluster.Reconcile
import ServingPlane.Cluster.Server
import ServingPlane.CommandLine
import ServingPlane.Container.Daemon
import ServingPlane.Container.Description
import ServingPlane.Container.Engine
import ServingPlane.Container.Launch
import ServingPlane.Container.Machine
import ServingPlane.Container.Pool
import ServingPlane.Detector
import ServingPlane.Detector.Calls
import ServingPlane.Detector.Error
import ServingPlane.Detector.Registry
import ServingPlane.Dict
import ServingPlane.Gpu.Discovery
import ServingPlane.Gpu.Pool
import ServingPlane.Http
import ServingPlane.Json.Codec
import ServingPlane.Json.Document
import ServingPlane.Json.Fault
import ServingPlane.Json.Printer
import ServingPlane.Json.Reader
import ServingPlane.Json.Value
import ServingPlane.Main
import ServingPlane.Metrics.Collection
import ServingPlane.Metrics.Query
import ServingPlane.Metrics.Series
import ServingPlane.Metrics.Server
import ServingPlane.Metrics.Window
import ServingPlane.Numeric.Binary
import ServingPlane.Numeric.Notation
import ServingPlane.Numeric.Scaled
import ServingPlane.Numeric.Shortest
import ServingPlane.Plane
import ServingPlane.Program
import ServingPlane.Proofs.Cluster.ApiServer
import ServingPlane.Proofs.Cluster.Installation
import ServingPlane.Proofs.Cluster.Isolation
import ServingPlane.Proofs.Cluster.Renaming
import ServingPlane.Proofs.Container.Accounting
import ServingPlane.Proofs.Container.Assignment
import ServingPlane.Proofs.Container.Exclusion
import ServingPlane.Proofs.Container.Reconciliation
import ServingPlane.Proofs.Container.Restarts
import ServingPlane.Proofs.Container.Success
import ServingPlane.Proofs.Detector.Discipline
import ServingPlane.Proofs.Dict
import ServingPlane.Proofs.Gpu.Allocation
import ServingPlane.Proofs.Gpu.Pool
import ServingPlane.Proofs.Json.Equality
import ServingPlane.Proofs.Json.Number
import ServingPlane.Proofs.Json.Roundtrip
import ServingPlane.Proofs.Json.Text
import ServingPlane.Proofs.Metrics.Exporter
import ServingPlane.Proofs.Metrics.Gathering
import ServingPlane.Proofs.Numeric.Rounding
import ServingPlane.Proofs.Numeric.Scaled
import ServingPlane.Proofs.Numeric.Shortest
import ServingPlane.Proofs.Plane.Agreement
import ServingPlane.Proofs.Plane.Assembly
import ServingPlane.Proofs.Plane.Convergence
import ServingPlane.Proofs.Plane.Exchange
import ServingPlane.Proofs.Plane.History
import ServingPlane.Proofs.Plane.Newest
import ServingPlane.Proofs.Plane.Recovery
import ServingPlane.Proofs.Plane.Schedule
import ServingPlane.Proofs.Plane.Turns
import ServingPlane.Proofs.Program
import ServingPlane.Proofs.Queue.Backlog
import ServingPlane.Proofs.Queue.Coherence
import ServingPlane.Proofs.Queue.Steps
import ServingPlane.Proofs.Queue.Tickets
import ServingPlane.Proofs.Queue.Traffic
import ServingPlane.Proofs.Store.History
import ServingPlane.Proofs.Store.Maps
import ServingPlane.Proofs.Store.Records
import ServingPlane.Proofs.Store.Reread
import ServingPlane.Proofs.Task.Roundtrip
import ServingPlane.Queue
import ServingPlane.Scaler
import ServingPlane.Settings.Address
import ServingPlane.Settings.Basic
import ServingPlane.Settings.Environment
import ServingPlane.Settings.File
import ServingPlane.Settings.Load
import ServingPlane.Store
import ServingPlane.Task.Engine
import ServingPlane.Task.Launch
import ServingPlane.Task.Recommendation
import ServingPlane.Task.Spec
import ServingPlane.Task.Wire
import ServingPlane.Text.Address
import ServingPlane.Text.Blank
import ServingPlane.Text.Bytes
import ServingPlane.Text.Hidden
import ServingPlane.Text.Percent
import ServingPlane.Text.Quoted
import ServingPlane.Time.Instant
import ServingPlane.Time.Timestamp
import ServingPlane.Toml.Printer
import ServingPlane.Toml.Reader
import ServingPlane.Toml.Tree
import ServingPlane.Toml.Value
import ServingPlane.Yaml.Reader
import ServingPlane.Proofs.Plane.Share
import ServingPlane.Proofs.Plane.Visits
import ServingPlane.Proofs.Toml.Strings
import ServingPlane.Proofs.Toml.Values
import ServingPlane.Proofs.Toml.Files
import ServingPlane.Proofs.Settings.File
import ServingPlane.Proofs.Container.Scaling
import ServingPlane.Proofs.Queue.Cancellation
import ServingPlane.Proofs.Queue.Delivery
import ServingPlane.Proofs.Scaler.Loop
import ServingPlane.Proofs.Scaler.Drain
import ServingPlane.Proofs.Plane.Behaviour
import ServingPlane.Proofs.Plane.Ways
import ServingPlane.Proofs.Plane.Cycle
import ServingPlane.Proofs.Cluster.Refusals
import ServingPlane.Proofs.Cluster.Contention
import ServingPlane.Proofs.Cluster.Manifests
import ServingPlane.Proofs.Cluster.Collector
import ServingPlane.Proofs.Numeric.Plain
import ServingPlane.Proofs.Task.Command
import ServingPlane.Proofs.Json.Defined
import ServingPlane.Proofs.Task.Merge
import ServingPlane.Proofs.Plane.Lineage
import ServingPlane.Proofs.Json.Stated
import ServingPlane.Proofs.Plane.Deployment
import ServingPlane.Proofs.Plane.Advice
import ServingPlane.Proofs.Plane.Alone
import ServingPlane.Proofs.Plane.Atomicity
import ServingPlane.Proofs.Gpu.Discovery
import ServingPlane.Proofs.Queue.HangUp
import ServingPlane.Proofs.Plane.HangUp
import ServingPlane.Proofs.Plane.Addressable
import ServingPlane.Proofs.Plane.Lookups
import ServingPlane.Proofs.Plane.Addressing
