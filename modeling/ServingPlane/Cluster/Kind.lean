/-! # Object kinds

    The four kinds of cluster objects that a task is made of, and how the
    API server addresses them. -/

namespace ServingPlane

/-- A kind of cluster object. -/
inductive ObjectKind where
  | deployment
  | service
  | ingress
  | collector
  deriving DecidableEq, Repr, Inhabited

namespace ObjectKind

/-- All kinds, in the order in which they are handled. -/
def all : List ObjectKind := [deployment, service, ingress, collector]

/-- The API group; empty for the core group. -/
def group : ObjectKind → String
  | deployment => "apps"
  | service => ""
  | ingress => "networking.k8s.io"
  | collector => "opentelemetry.io"

/-- The version of the group. -/
def version : ObjectKind → String
  | deployment | service | ingress => "v1"
  | collector => "v1alpha1"

/-- The name of the kind. -/
def name : ObjectKind → String
  | deployment => "Deployment"
  | service => "Service"
  | ingress => "Ingress"
  | collector => "OpenTelemetryCollector"

/-- The name of the collection that holds objects of the kind. -/
def plural : ObjectKind → String
  | deployment => "deployments"
  | service => "services"
  | ingress => "ingresses"
  | collector => "opentelemetrycollectors"

/-- Group and version, as manifests state them. -/
def apiVersion (k : ObjectKind) : String :=
  if k.group.isEmpty then k.version else k.group ++ "/" ++ k.version

end ObjectKind

end ServingPlane
