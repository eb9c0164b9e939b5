import Mathlib.Data.List.Perm.Basic
import ServingPlane.Metrics.Collection
import ServingPlane.Proofs.Dict
import ServingPlane.Proofs.Program

/-! # Metrics do not depend on the order of arrival

    The outcomes of the six queries are gathered one after the other, and
    whichever comes first makes the entry of a replica.  What was gathered
    for a replica holds, for each metric, the points of its series in the
    order in which they came.  All series of a metric come in one outcome,
    so the order of the outcomes does not show. -/

namespace ServingPlane

/-- Every engine is one whose metrics are known. -/
theorem Engine.exists_vllm? (engine : Engine) : ∃ settings, engine.vllm? = some settings := by
  cases engine with
  | vllm settings => exact ⟨settings, rfl⟩

/-! ## One replica -/

namespace ReplicaMetrics

/-- The samples of one metric. -/
def samples (r : ReplicaMetrics) : Metric → List MetricPoint
  | .pendingRequests => r.pending
  | .activeRequests => r.active
  | .runningRequests => r.running
  | .kvCacheUsage => r.kvCacheUsage
  | .newRequests => r.newRequests
  | .successes => r.successes

@[simp] theorem samples_blank (metric : Metric) : blank.samples metric = [] := by
  cases metric <;> rfl

theorem ext_samples {r t : ReplicaMetrics} (h : ∀ metric, r.samples metric = t.samples metric) :
    r = t := by
  obtain ⟨active, running, pending, kvCacheUsage, newRequests, successes⟩ := r
  obtain rfl := h .activeRequests
  obtain rfl := h .runningRequests
  obtain rfl := h .pendingRequests
  obtain rfl := h .kvCacheUsage
  obtain rfl := h .newRequests
  obtain rfl := h .successes
  rfl

end ReplicaMetrics

/-- A query adds to the samples of its own metric and to no other. -/
theorem Metric.samples_extend (metric other : Metric) (points : List MetricPoint)
    (r : ReplicaMetrics) :
    (metric.extend points r).samples other
      = r.samples other ++ if other = metric then points else [] := by
  cases metric <;> cases other <;> first | rfl | exact (List.append_nil _).symm

theorem Metric.mem_all (metric : Metric) : metric ∈ all := by
  cases metric <;> decide

theorem Metric.all_nodup : all.Nodup := by decide

/-! ## What is gathered -/

/-- The points of those series that belong to a replica. -/
def RangeSeries.pointsOf (identity : String) (series : List RangeSeries) : List MetricPoint :=
  (series.filter (·.identity = identity)).flatMap points

namespace MetricsByReplica

/-- The samples gathered for a replica so far. -/
def samples (g : MetricsByReplica) (identity : String) (metric : Metric) : List MetricPoint :=
  ((g.get? identity).getD .blank).samples metric

theorem samples_addSeries (metric other : Metric) (g : MetricsByReplica) (s : RangeSeries)
    (identity : String) :
    (g.addSeries metric s).samples identity other = g.samples identity other ++
      if other = metric then RangeSeries.pointsOf identity [s] else [] := by
  simp only [samples, addSeries]
  rw [Dict.get?_insert]
  by_cases hs : identity = s.identity
  · subst hs
    rw [if_pos rfl, Option.getD_some, Metric.samples_extend]
    simp [RangeSeries.pointsOf]
  · rw [if_neg hs]
    have hnone : RangeSeries.pointsOf identity [s] = [] := by
      simp [RangeSeries.pointsOf, Ne.symm hs]
    rw [hnone, ite_self, List.append_nil]

theorem samples_foldl_addSeries (metric other : Metric) (series : List RangeSeries)
    (g : MetricsByReplica) (identity : String) :
    MetricsByReplica.samples (series.foldl (addSeries metric) g) identity other
      = g.samples identity other ++
        if other = metric then RangeSeries.pointsOf identity series else [] := by
  induction series generalizing g with
  | nil => simp [RangeSeries.pointsOf]
  | cons s series ih =>
    rw [List.foldl_cons, ih, samples_addSeries, List.append_assoc]
    by_cases hother : other = metric
    · rw [if_pos hother, if_pos hother, if_pos hother, RangeSeries.pointsOf, RangeSeries.pointsOf,
        ← List.flatMap_append, ← List.filter_append]
      rfl
    · rw [if_neg hother, if_neg hother, if_neg hother, List.append_nil]

theorem mem_keys_foldl_addSeries {metric : Metric} {series : List RangeSeries}
    {g : MetricsByReplica} {identity : String} :
    identity ∈ Dict.keys (series.foldl (addSeries metric) g) ↔
      identity ∈ Dict.keys g ∨ ∃ s ∈ series, s.identity = identity := by
  induction series generalizing g with
  | nil => simp
  | cons s series ih =>
    rw [List.foldl_cons, ih, addSeries, Dict.mem_keys_insert]
    simp only [List.mem_cons, exists_eq_or_imp, eq_comm (a := identity)]
    rw [or_assoc, or_left_comm]

end MetricsByReplica

/-! ## Six outcomes -/

/-- What became of the query for each metric. -/
abbrev MetricOutcomes := Metric → Except MetricsError (List RangeSeries)

namespace MetricOutcomes

/-- The series that a query brought; a failed one brought none. -/
def series (outcomes : MetricOutcomes) (metric : Metric) : List RangeSeries :=
  match outcomes metric with
  | .ok series => series
  | .error _ => []

/-- Some reply has a series of this replica. -/
def Mentions (outcomes : MetricOutcomes) (identity : String) : Prop :=
  ∃ metric series, outcomes metric = .ok series ∧ ∃ s ∈ series, s.identity = identity

/-- All points that the replies have of a replica, in the order of each reply. -/
def replica (outcomes : MetricOutcomes) (identity : String) : ReplicaMetrics where
  active := RangeSeries.pointsOf identity (outcomes.series .activeRequests)
  running := RangeSeries.pointsOf identity (outcomes.series .runningRequests)
  pending := RangeSeries.pointsOf identity (outcomes.series .pendingRequests)
  kvCacheUsage := RangeSeries.pointsOf identity (outcomes.series .kvCacheUsage)
  newRequests := RangeSeries.pointsOf identity (outcomes.series .newRequests)
  successes := RangeSeries.pointsOf identity (outcomes.series .successes)

/-- The outcomes as they arrive. -/
def arriving (outcomes : MetricOutcomes) (order : List Metric) : List MetricOutcome :=
  order.map fun metric => ⟨metric, outcomes metric⟩

/-- What has been gathered once the outcomes have arrived. -/
def gathered (outcomes : MetricOutcomes) (order : List Metric) : MetricsByReplica :=
  (outcomes.arriving order).foldl MetricsByReplica.addOutcome Dict.empty

variable (outcomes : MetricOutcomes)

theorem samples_replica (identity : String) (metric : Metric) :
    (outcomes.replica identity).samples metric
      = RangeSeries.pointsOf identity (outcomes.series metric) := by
  cases metric <;> rfl

theorem addOutcome_eq (g : MetricsByReplica) (metric : Metric) :
    g.addOutcome ⟨metric, outcomes metric⟩
      = (outcomes.series metric).foldl (MetricsByReplica.addSeries metric) g := by
  rw [MetricsByReplica.addOutcome, series]
  cases outcomes metric with
  | ok series => rfl
  | error cause => rfl

theorem mentions_iff {identity : String} :
    outcomes.Mentions identity ↔ ∃ metric, ∃ s ∈ outcomes.series metric, s.identity = identity := by
  refine exists_congr fun metric => ?_
  rw [series]
  cases outcomes metric with
  | ok series => exact ⟨by rintro ⟨_, ⟨⟩, h⟩; exact h, fun h => ⟨series, rfl, h⟩⟩
  | error cause => exact ⟨by rintro ⟨_, ⟨⟩, -⟩, by rintro ⟨s, hs, -⟩; cases hs⟩

theorem samples_foldl_arriving (order : List Metric) (g : MetricsByReplica) (identity : String)
    (metric : Metric) :
    MetricsByReplica.samples ((outcomes.arriving order).foldl MetricsByReplica.addOutcome g)
        identity metric
      = g.samples identity metric ++ order.flatMap fun m =>
          if metric = m then RangeSeries.pointsOf identity (outcomes.series m) else [] := by
  induction order generalizing g with
  | nil => exact (List.append_nil _).symm
  | cons m order ih =>
    show MetricsByReplica.samples (List.foldl _ (g.addOutcome ⟨m, outcomes m⟩)
      (outcomes.arriving order)) _ _ = _
    rw [ih, addOutcome_eq, MetricsByReplica.samples_foldl_addSeries, List.append_assoc,
      List.flatMap_cons]

theorem mem_keys_foldl_arriving {order : List Metric} {g : MetricsByReplica} {identity : String} :
    identity ∈ Dict.keys ((outcomes.arriving order).foldl MetricsByReplica.addOutcome g) ↔
      identity ∈ Dict.keys g ∨
        ∃ m ∈ order, ∃ s ∈ outcomes.series m, s.identity = identity := by
  induction order generalizing g with
  | nil => simp [arriving]
  | cons m order ih =>
    show identity ∈ Dict.keys (List.foldl _ (g.addOutcome ⟨m, outcomes m⟩)
      (outcomes.arriving order)) ↔ _
    rw [ih, addOutcome_eq, MetricsByReplica.mem_keys_foldl_addSeries, or_assoc]
    simp

/-- Of a list without repetitions, one item is picked once. -/
theorem flatMap_pick {ι α : Type} [DecidableEq ι] {l : List ι} (hl : l.Nodup) {i : ι} (hi : i ∈ l)
    (f : ι → List α) : (l.flatMap fun j => if i = j then f j else []) = f i := by
  have hothers : ∀ {r : List ι}, i ∉ r → (r.flatMap fun j => if i = j then f j else []) = [] := by
    intro r hr
    refine List.flatMap_eq_nil_iff.mpr fun j hj => if_neg ?_
    rintro rfl
    exact hr hj
  induction l with
  | nil => cases hi
  | cons j l ih =>
    obtain ⟨hj, hl⟩ := List.nodup_cons.mp hl
    rw [List.flatMap_cons]
    by_cases hij : i = j
    · subst hij
      rw [if_pos rfl, hothers hj, List.append_nil]
    · rw [if_neg hij, List.nil_append]
      exact ih hl ((List.mem_cons.mp hi).resolve_left hij)

section Order

variable {order : List Metric} (horder : order.Perm Metric.all)
include horder

theorem samples_gathered (identity : String) (metric : Metric) :
    (outcomes.gathered order).samples identity metric
      = (outcomes.replica identity).samples metric := by
  have hblank : MetricsByReplica.samples Dict.empty identity metric = [] :=
    ReplicaMetrics.samples_blank metric
  rw [gathered, samples_foldl_arriving, hblank, List.nil_append, samples_replica]
  exact flatMap_pick (horder.nodup_iff.mpr Metric.all_nodup) (horder.mem_iff.mpr metric.mem_all)
    fun m => RangeSeries.pointsOf identity (outcomes.series m)

theorem mem_keys_gathered {identity : String} :
    identity ∈ Dict.keys (outcomes.gathered order) ↔ outcomes.Mentions identity := by
  rw [gathered, mem_keys_foldl_arriving, mentions_iff]
  constructor
  · rintro (hnone | ⟨m, -, h⟩)
    · cases hnone
    · exact ⟨m, h⟩
  · rintro ⟨m, h⟩
    exact .inr ⟨m, horder.mem_iff.mpr m.mem_all, h⟩

/-- Each replica that some reply mentions has its entry, whatever the order. -/
theorem get?_gathered {identity : String} {r : ReplicaMetrics} :
    Dict.get? (outcomes.gathered order) identity = some r ↔
      outcomes.Mentions identity ∧ r = outcomes.replica identity := by
  rw [← mem_keys_gathered outcomes horder, Dict.mem_keys_iff]
  constructor
  · intro h
    refine ⟨⟨r, h⟩, ReplicaMetrics.ext_samples fun metric => ?_⟩
    rw [← samples_gathered outcomes horder, MetricsByReplica.samples, h]
    rfl
  · rintro ⟨⟨t, h⟩, rfl⟩
    rw [h]
    refine congrArg some (ReplicaMetrics.ext_samples fun metric => ?_)
    rw [← samples_gathered outcomes horder, MetricsByReplica.samples, h]
    rfl

theorem gatherMetrics_eq :
    gatherMetrics (outcomes.arriving order)
      = (Dict.keys (outcomes.gathered Metric.all)).map outcomes.replica := by
  have hsame : outcomes.gathered order = outcomes.gathered Metric.all := by
    refine Dict.ext_get? fun identity => Option.ext fun r => ?_
    rw [get?_gathered outcomes horder, get?_gathered outcomes (List.Perm.refl _)]
  show Dict.values (outcomes.gathered order) = _
  rw [hsame, Dict.values, Dict.keys, List.map_map]
  refine List.map_congr_left fun p hp => ?_
  have hget := (get?_gathered outcomes (List.Perm.refl _)).mp (Dict.get?_eq_some_iff.mpr hp)
  exact hget.2

end Order

/-- A query that failed might as well not have been made. -/
theorem gatherMetrics_filter_isOk (order : List Metric) :
    gatherMetrics (outcomes.arriving (order.filter fun metric => (outcomes metric).isOk))
      = gatherMetrics (outcomes.arriving order) := by
  have hskip : ∀ g : MetricsByReplica,
      (outcomes.arriving (order.filter fun metric => (outcomes metric).isOk)).foldl
          MetricsByReplica.addOutcome g
        = (outcomes.arriving order).foldl MetricsByReplica.addOutcome g := by
    induction order with
    | nil => exact fun _ => rfl
    | cons m order ih =>
      intro g
      cases hm : outcomes m with
      | ok series =>
        rw [List.filter_cons_of_pos (by rw [hm]; rfl)]
        exact ih _
      | error cause =>
        have hnothing : g.addOutcome ⟨m, outcomes m⟩ = g := by
          rw [MetricsByReplica.addOutcome, hm]
        rw [List.filter_cons_of_neg (by rw [hm]; exact Bool.false_ne_true), ih]
        exact congrArg (List.foldl _ · (outcomes.arriving order)) hnothing.symm
  exact congrArg Dict.values (hskip Dict.empty)

/-- The replicas that the replies mention, each once and in increasing order. -/
structure Lists (outcomes : MetricOutcomes) (identities : List String) : Prop where
  increasing : identities.Pairwise (· < ·)
  mem_iff : ∀ identity, identity ∈ identities ↔ outcomes.Mentions identity

theorem lists_keys_gathered : outcomes.Lists (Dict.keys (outcomes.gathered Metric.all)) where
  increasing := Dict.keys_pairwise _
  mem_iff _ := mem_keys_gathered outcomes (List.Perm.refl _)

end MetricOutcomes

/-! ## A collection -/

namespace MetricsCollection

/-- The clock shows one of these instants, and each request gets the reply
    that belongs to it; the replies come in any order. -/
def answering {σ : Type} (clock : Instant → Prop) (reply : HttpRequest → HttpOutcome) :
    Environment σ Call
  | _, s, .now, instant, t => clock instant ∧ t = s
  | _, s, .gather requests, replies, t =>
    replies.Perm (requests.map fun p => (p.1, reply p.2)) ∧ t = s

/-- What becomes of the queries for a task over one window. -/
def outcomes (c : MetricsCollection) (spec : TaskSpec) (window : QueryWindow)
    (reply : HttpRequest → HttpOutcome) : MetricOutcomes := fun metric =>
  MetricsServer.readRange
    (reply (c.server.rangeRequest (metric.query spec.exporterServiceName) window))

/-- What is asked of the advisor after those queries. -/
def gathered (spec : TaskSpec) (settings : VllmSettings) (outcomes : MetricOutcomes) :
    RecoveryRequest :=
  ⟨(Dict.keys (outcomes.gathered Metric.all)).map outcomes.replica, settings,
    spec.modelConfig.family, spec.modelConfig.gpu⟩

/-- What a collection at an instant comes to. -/
def collected (c : MetricsCollection) (spec : TaskSpec) (settings : VllmSettings)
    (reply : HttpRequest → HttpOutcome) (now : Instant) : Except MetricsError RecoveryRequest :=
  match QueryWindow.endingAt now c.lookback c.step with
  | none => .error .window
  | some window => .ok (gathered spec settings (c.outcomes spec window reply))

variable {c : MetricsCollection} {spec : TaskSpec} {now : Instant} {window : QueryWindow}
  {settings : VllmSettings} {reply : HttpRequest → HttpOutcome}

/-- Replies in any order are outcomes in some order. -/
theorem exists_order {replies : List (Metric × HttpOutcome)}
    (h : replies.Perm ((c.requests window spec).map fun p => (p.1, reply p.2))) :
    ∃ order : List Metric, order.Perm Metric.all ∧
      (replies.map fun (m, r) => ⟨m, MetricsServer.readRange r⟩)
        = (c.outcomes spec window reply).arriving order := by
  refine ⟨replies.map (·.1), ?_, ?_⟩
  · have hmetrics := h.map (·.1)
    rw [List.map_map, requests, List.map_map] at hmetrics
    exact hmetrics.trans (List.Perm.of_eq (List.map_id _))
  · rw [MetricOutcomes.arriving, List.map_map]
    refine List.map_congr_left fun p hp => ?_
    have hreply := h.mem_iff.mp hp
    rw [requests, List.map_map] at hreply
    obtain ⟨metric, -, rfl⟩ := List.mem_map.mp hreply
    rfl

theorem recoveryRequest_eq {replies : List (Metric × HttpOutcome)}
    (h : replies.Perm ((c.requests window spec).map fun p => (p.1, reply p.2))) :
    recoveryRequest spec settings replies = gathered spec settings (c.outcomes spec window reply) := by
  obtain ⟨order, horder, harriving⟩ := exists_order h
  rw [recoveryRequest, harriving, MetricOutcomes.gatherMetrics_eq _ horder]
  rfl

/-- A collection comes to one result for each instant that the clock may show. -/
theorem runs_collect_iff {σ : Type} {s t : σ} {clock : Instant → Prop}
    (hengine : spec.engine.vllm? = some settings) {result : Except MetricsError RecoveryRequest} :
    (c.collect spec).Runs (answering clock reply) s result t ↔
      t = s ∧ ∃ now, clock now ∧ result = c.collected spec settings reply now := by
  rw [collect, hengine]
  show Program.Runs _ (Program.ask Call.now >>= _) _ _ _ ↔ _
  simp only [Program.runs_bind, Program.runs_ask, collected]
  constructor
  · rintro ⟨now, _, ⟨hnow, rfl⟩, hrest⟩
    cases hwindow : QueryWindow.endingAt now c.lookback c.step with
    | none =>
      rw [hwindow] at hrest
      obtain ⟨rfl, rfl⟩ := hrest
      exact ⟨rfl, now, hnow, by rw [hwindow]⟩
    | some window =>
      rw [hwindow] at hrest
      obtain ⟨replies, _, hgather, rfl, rfl⟩ := Program.runs_bind.mp hrest
      obtain ⟨hreplies, rfl⟩ := Program.runs_ask.mp hgather
      exact ⟨rfl, now, hnow, by rw [hwindow, recoveryRequest_eq hreplies]⟩
  · rintro ⟨rfl, now, hnow, rfl⟩
    refine ⟨now, t, ⟨hnow, rfl⟩, ?_⟩
    cases QueryWindow.endingAt now c.lookback c.step with
    | none => exact ⟨rfl, rfl⟩
    | some window =>
      refine Program.runs_bind.mpr
        ⟨_, t, Program.runs_ask.mpr ⟨List.Perm.refl _, rfl⟩, ?_, rfl⟩
      rw [recoveryRequest_eq (List.Perm.refl _)]

/-- Six outcomes, series or failures, give the same metrics in whatever
    order they arrive: one entry for each replica that is mentioned, in
    increasing order, with all its points; failed queries leave no trace.
    So a collection that does not panic, as its window lies within the
    calendar, has one result, whenever its replies come. -/
theorem same_metrics_in_any_order
    (hwindow : QueryWindow.endingAt now c.lookback c.step = some window) :
    (∀ outcomes : MetricOutcomes, ∃ identities, outcomes.Lists identities ∧
      ∀ order, order.Perm Metric.all →
        gatherMetrics (outcomes.arriving order) = identities.map outcomes.replica ∧
        gatherMetrics (outcomes.arriving (order.filter fun metric => (outcomes metric).isOk))
          = identities.map outcomes.replica) ∧
    ∃ settings identities, spec.engine.vllm? = some settings ∧
      (c.outcomes spec window reply).Lists identities ∧
      ∀ result, (c.collect spec).Runs (answering (· = now) reply) () result () ↔
        result = .ok ⟨identities.map (c.outcomes spec window reply).replica, settings,
          spec.modelConfig.family, spec.modelConfig.gpu⟩ := by
  refine ⟨fun outcomes => ?_, ?_⟩
  · refine ⟨_, outcomes.lists_keys_gathered, fun order horder => ?_⟩
    rw [outcomes.gatherMetrics_filter_isOk, outcomes.gatherMetrics_eq horder]
    exact ⟨rfl, rfl⟩
  · obtain ⟨settings, hengine⟩ := spec.engine.exists_vllm?
    refine ⟨settings, _, hengine, (c.outcomes spec window reply).lists_keys_gathered,
      fun result => ?_⟩
    rw [runs_collect_iff hengine]
    constructor
    · rintro ⟨-, now, rfl, rfl⟩
      rw [collected, hwindow]
      rfl
    · rintro rfl
      refine ⟨rfl, now, rfl, ?_⟩
      rw [collected, hwindow]
      rfl

/-- Two replicas in the replies to two queries; a third query failed. -/
def twoReplicas : MetricOutcomes
  | .pendingRequests => .ok [
      ⟨.ofList [("exported_job", "b")], [(.ofInt 60, "4")]⟩,
      ⟨.ofList [("exported_job", "a")], [(.ofInt 60, "none"), (.ofInt 120, "2")]⟩,
      ⟨.ofList [("exported_job", "b")], [(.ofInt 90, "5")]⟩]
  | .successes => .ok [⟨.ofList [("service", "a")], [(.ofInt 60, "1")]⟩]
  | .newRequests => .error (.http "refused")
  | _ => .ok []

/-- A collection over three hours, a minute a step. -/
def lastHours : MetricsCollection := ⟨⟨"http://metrics"⟩, ⟨10800, 0⟩, "60s"⟩

/-- Their metrics in any order of arrival, and those of a task whose queries all fail. -/
theorem same_metrics_in_any_order_of_two_replicas :
    QueryWindow.endingAt ⟨1700000000, 0⟩ ⟨10800, 0⟩ "60s"
      = some ⟨⟨1699989200, 0⟩, ⟨1700000000, 0⟩, "60s"⟩ ∧
    (∀ order, order.Perm Metric.all → gatherMetrics (twoReplicas.arriving order) = [
      { ReplicaMetrics.blank with
        pending := [(.ofInt 120, .ofInt 2)], successes := [(.ofInt 60, .ofInt 1)] },
      { ReplicaMetrics.blank with pending := [(.ofInt 60, .ofInt 4), (.ofInt 90, .ofInt 5)] }]) ∧
    (lastHours.collect .blank).Runs (answering (· = ⟨1700000000, 0⟩) fun _ => .error "refused") ()
      (.ok ⟨[], .unset, TaskSpec.blank.modelConfig.family, TaskSpec.blank.modelConfig.gpu⟩) () := by
  have hwindow : QueryWindow.endingAt ⟨1700000000, 0⟩ ⟨10800, 0⟩ "60s"
      = some ⟨⟨1699989200, 0⟩, ⟨1700000000, 0⟩, "60s"⟩ := by decide +kernel
  obtain ⟨hany, settings, identities, hengine, hlists, hruns⟩ :=
    @same_metrics_in_any_order lastHours .blank _ _ (fun _ => .error "refused") hwindow
  refine ⟨hwindow, fun order horder => ?_, (hruns _).mpr ?_⟩
  · obtain ⟨identities, -, hmetrics⟩ := hany twoReplicas
    rw [(hmetrics order horder).1, ← (hmetrics Metric.all (List.Perm.refl _)).1]
    decide
  · obtain rfl : identities = [] := List.eq_nil_iff_forall_not_mem.mpr fun i hi => by
      obtain ⟨metric, series, hok, -⟩ := (hlists.mem_iff i).mp hi
      cases hok
    cases hengine
    rfl

end MetricsCollection

end ServingPlane
