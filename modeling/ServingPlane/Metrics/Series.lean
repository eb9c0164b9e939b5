import ServingPlane.Advisor.Payload

/-! # Range query answers

    The answer of the metrics server to one range query: labelled series
    of raw samples.  A series belongs to the replica that its labels
    name, and samples that are not numbers are left out. -/

namespace ServingPlane

open Numeric

/-- One labelled series of raw samples. -/
structure RangeSeries where
  labels : Dict String String
  samples : List (Double × String)
  deriving DecidableEq

namespace RangeSeries

/-- A series on the wire. -/
def shape : RecordShape RangeSeries where
  name := "RangeSeries"
  initial := ⟨.empty, []⟩
  fields := [
    .optional "metric" (.dict .string) (·.labels) (fun v s => { s with labels := v }),
    .optional "values" (.list (.pair "a tuple of size 2" .double .string)) (·.samples)
      (fun v s => { s with samples := v })]

/-- The replica a series belongs to: its exporting job, else its service,
    else its first label, else nobody. -/
def identity (s : RangeSeries) : String :=
  match s.labels.get? "exported_job", s.labels.get? "service", s.labels.values with
  | some job, _, _ => job
  | none, some service, _ => service
  | none, none, first :: _ => first
  | none, none, [] => ""

/-- The samples that are numbers. -/
def points (s : RangeSeries) : List MetricPoint :=
  s.samples.filterMap fun (at_, raw) => (readDouble? raw).map fun v => (at_, v)

end RangeSeries

/-- The data of an answer. -/
structure RangeData where
  resultType : String
  result : List RangeSeries
  deriving DecidableEq

/-- The data on the wire. -/
def RangeData.shape : RecordShape RangeData where
  name := "QueryRangeData"
  initial := ⟨"", []⟩
  fields := [
    .optional "resultType" .string (·.resultType) (fun v d => { d with resultType := v }),
    .optional "result" (.list RangeSeries.shape.codec) (·.result)
      (fun v d => { d with result := v })]

/-- An answer to a range query. -/
structure RangeAnswer where
  status : String
  data : Option RangeData
  error : Option String
  deriving DecidableEq

/-- The answer on the wire; only the status is required. -/
def RangeAnswer.shape : RecordShape RangeAnswer where
  name := "QueryRangeResponse"
  initial := ⟨"", none, none⟩
  fields := [
    .needed "status" .string (·.status) (fun v a => { a with status := v }),
    .optional "data" (.option RangeData.shape.codec) (·.data) (fun v a => { a with data := v }),
    .optional "error" (.option .string) (·.error) (fun v a => { a with error := v })]

end ServingPlane
