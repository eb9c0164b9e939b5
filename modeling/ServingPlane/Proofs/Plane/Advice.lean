import ServingPlane.Proofs.Json.Equality
import ServingPlane.Proofs.Json.Stated
import ServingPlane.Proofs.Plane.Lineage
import ServingPlane.Proofs.Plane.Ways
import ServingPlane.Proofs.Store.Reread
import ServingPlane.Scaler

/-! # What is queued on advice

    A task that is sized by the advisor, and one that is recovered, is
    queued with the replica count in the advisor's reply.  A reply that
    states none counts as one that asks for none: the count is taken as it
    is, and a spec without replicas is the order to remove its task. -/

namespace ServingPlane

open Numeric

/-! ## The replica count in a reply -/

namespace Recommendation

/-- The replica count of a recommendation is its fourth field. -/
theorem sets_replicas : shape.Sets "replicas" 3 .uint32 (·.replicas) where
  wellNamed := wellNamed_shape
  placed := rfl
  reads := by
    intro f hf d s s' hread
    simp only [shape, List.mem_cons, List.not_mem_nil, or_false] at hf
    rcases hf with rfl | rfl | rfl | rfl
    · obtain ⟨n, -, rfl⟩ := map_eq_ok.mp hread
      rfl
    · obtain ⟨n, -, rfl⟩ := map_eq_ok.mp hread
      rfl
    · obtain ⟨n, -, rfl⟩ := map_eq_ok.mp hread
      rfl
    · obtain ⟨n, hn, rfl⟩ := map_eq_ok.mp hread
      exact hn

end Recommendation

namespace Advisor

/-- The result in a reply. -/
def result? : HttpOutcome → Option Json
  | .error _ => none
  | .ok reply =>
    if reply.isSuccess then
      match adviceEnvelope.codec.ofText reply.body with
      | .ok result => result
      | .error _ => none
    else none

/-- What is read from a reply is read from its result. -/
theorem ofJson_of_readResult {β : Type} {c : Codec β} {outcome : HttpOutcome} {b : β}
    (h : readResult c outcome = .ok b) :
    ∃ result, result? outcome = some result ∧ c.ofJson result = .ok b := by
  cases outcome with
  | error reason => cases h
  | ok reply =>
    simp only [readResult, result?] at h ⊢
    split at h
    · rename_i hsuccess
      rw [if_pos hsuccess]
      cases htext : adviceEnvelope.codec.ofText reply.body with
      | error fault =>
        rw [htext] at h
        cases h
      | ok result =>
        rw [htext] at h
        cases result with
        | none => cases h
        | some result =>
          refine ⟨result, rfl, ?_⟩
          cases hread : c.ofJson result with
          | error fault =>
            simp only [hread] at h
            cases h
          | ok a =>
            simp only [hread] at h
            cases h
            rfl
    · cases h

/-- A result asks for no replicas: it says so, or does not say how many. -/
def AsksForNone (result : Json) : Prop :=
  result.States "replicas" 3 (.ofNat 0) ∨ ∀ part, ¬ result.States "replicas" 3 part

end Advisor

/-- The count that is read is the one that is stated. -/
theorem Recommendation.replicas_of_ofJson {result : Json} {r : Recommendation}
    (h : codec.ofJson result = .ok r) :
    (∀ part, result.States "replicas" 3 part → part = .ofNat r.replicas.toNat) ∧
    (r.replicas = 0 ↔ Advisor.AsksForNone result) := by
  obtain ⟨hstated, habsent⟩ := sets_replicas.ofJson h
  have hcount : ∀ part, result.States "replicas" 3 part → part = .ofNat r.replicas.toNat :=
    fun part hpart => Codec.ofJson_uint32 (hstated part hpart)
  refine ⟨hcount, fun hnone => ?_, ?_⟩
  · by_cases hany : ∃ part, result.States "replicas" 3 part
    · obtain ⟨part, hpart⟩ := hany
      have hzero : part = .ofNat 0 := by
        rw [hcount part hpart, hnone]
        rfl
      exact .inl (hzero ▸ hpart)
    · exact .inr (not_exists.mp hany)
  · rintro (hzero | hnone)
    · have heq := hcount _ hzero
      simp only [Json.ofNat, Json.number.injEq, Number.int.injEq, Int.ofNat_inj] at heq
      exact UInt32.toNat_inj.mp heq.symm
    · exact habsent hnone

/-! ## The specs that a program queues -/

/-- The spec that a call hands to the queue. -/
def DetectorCall.queued? : {β : Type} → DetectorCall β → Option TaskSpec
  | _, .inl (.enqueue spec) => some spec
  | _, _ => none

/-- The spec that a turn hands to the queue, whether it is taken or not. -/
def Turn.queued? : Turn → Option TaskSpec
  | heard _ _ => none
  | asked e _ _ _ => DetectorCall.queued? (.inl e)

/-- What answers from the outside do not queue. -/
theorem Turn.queued?_of_isHeard {turns : List Turn} (h : ∀ turn ∈ turns, turn.IsHeard) :
    turns.filterMap queued? = [] := by
  refine List.filterMap_eq_nil_iff.mpr fun turn hturn => ?_
  cases turn with
  | heard e answer => rfl
  | asked => exact (h _ hturn).elim

/-- A program that queues no spec but this one. -/
def Program.Queues {α : Type} (p : Detection α) (spec : TaskSpec) : Prop :=
  p.EveryCall fun e => ∀ queued ∈ DetectorCall.queued? e, queued = spec

/-- The turns of a program queue only what the program queues. -/
theorem Program.Queues.eq_of_mem {α : Type} {p : Detection α} {spec queued : TaskSpec} {a : α}
    {turns : List Turn} (h : p.Queues spec) (hmakes : p.Makes turns a)
    (hqueued : queued ∈ turns.filterMap Turn.queued?) : queued = spec := by
  induction p generalizing turns with
  | done b =>
    obtain ⟨rfl, -⟩ := hmakes
    exact absurd hqueued List.not_mem_nil
  | call e k ih =>
    cases e with
    | inr e =>
      obtain ⟨answer, rest, rfl, hrest⟩ := hmakes
      exact ih answer (h.2 answer) hrest hqueued
    | inl e =>
      obtain ⟨stalls, answer, p, q, rest, rfl, hrest⟩ := hmakes
      rw [List.filterMap_append, List.mem_append, List.filterMap_map] at hqueued
      rcases hqueued with hstall | hqueued
      · obtain ⟨stall, -, hstall⟩ := List.mem_filterMap.mp hstall
        exact h.1 queued hstall
      · rw [List.filterMap_cons] at hqueued
        cases hcall : Turn.queued? (.asked e (some answer) p q) with
        | none =>
          rw [hcall] at hqueued
          exact ih answer (h.2 answer) hrest hqueued
        | some handed =>
          rw [hcall] at hqueued
          rcases List.mem_cons.mp hqueued with rfl | hqueued
          · exact h.1 queued hcall
          · exact ih answer (h.2 answer) hrest hqueued

namespace Detector

open Program

variable {d : Detector} {spec updated queued : TaskSpec} {turns : List Turn}

/-- To release the registry queues nothing. -/
theorem queues_release {α : Type} (contents : Registry) (a : α) :
    (ask (.unlockRegistry contents) >>= fun _ => pure a).Queues spec :=
  ⟨fun _ h => (nomatch h), fun _ => trivial⟩

theorem queues_handOver {α : Type} (registry contents : Registry) (a : α) :
    (handOver registry contents spec a).Queues spec := by
  refine ⟨fun queued h => (Option.some.inj h).symm, fun answer => ?_⟩
  cases answer with
  | closed => exact queues_release registry _
  | accepted => exact queues_release contents _

theorem queues_install : (install spec updated).Queues updated := by
  refine ⟨fun _ h => (nomatch h), fun registry => ?_⟩
  show Program.Queues (if _ then _ else _) _
  split
  · exact queues_handOver _ _ _
  · exact queues_release registry _

theorem queues_enter : (enter spec).Queues spec :=
  ⟨fun _ h => (nomatch h), fun _ => queues_handOver _ _ _⟩

/-- A recovery queues what its recommendation leads to. -/
theorem queues_exchanging {recommended previous : Recommendation} :
    (exchanging spec recommended previous).Queues (spec.apply recommended) := by
  refine everyCall_bind queues_install fun installed => ?_
  cases installed with
  | error cause => trivial
  | ok there =>
    cases there with
    | false => trivial
    | true => exact ⟨fun _ h => (nomatch h), fun now => ⟨fun _ h => (nomatch h), fun _ => trivial⟩⟩

end Detector

/-- A spec was queued for a task on a result of the advisor: the count is
    the one that is stated, and none if none is stated, and it decides
    between removal and deployment. -/
structure TaskSpec.AsAdvised (spec queued : TaskSpec) (result : Json) : Prop where
  applied : ∃ r, Recommendation.codec.ofJson result = .ok r ∧ queued = spec.apply r
  count : ∀ part, result.States "replicas" 3 part → part = .ofNat queued.replica.toNat
  removed : Advisor.AsksForNone result →
    queued.replica = 0 ∧ Scaler.reconcile queued = .ask (.delete queued)
  deployed : ¬ Advisor.AsksForNone result →
    queued.replica ≠ 0 ∧ Scaler.reconcile queued = .ask (.deploy queued)

theorem TaskSpec.asAdvised_apply (spec : TaskSpec) {result : Json} {r : Recommendation}
    (h : Recommendation.codec.ofJson result = .ok r) : spec.AsAdvised (spec.apply r) result := by
  obtain ⟨hcount, hnone⟩ := Recommendation.replicas_of_ofJson h
  have hreplica : (spec.apply r).replica = r.replicas := rfl
  refine ⟨⟨r, h, rfl⟩, hcount, fun hasks => ?_, fun hasks => ?_⟩
  · have hzero : (spec.apply r).replica = 0 := hreplica.trans (hnone.mpr hasks)
    refine ⟨hzero, ?_⟩
    rw [Scaler.reconcile, if_pos hzero]
  · have hpositive : (spec.apply r).replica ≠ 0 := fun hzero => hasks (hnone.mp hzero)
    refine ⟨hpositive, ?_⟩
    rw [Scaler.reconcile, if_neg hpositive]

namespace Detector

open Program

variable {d : Detector} {spec queued : TaskSpec} {turns : List Turn}

/-- What is queued by a deploy of a task that is scaled automatically. -/
theorem asAdvised_of_deploy {result : Except DetectorError Unit} (hauto : spec.isAutoScaled = true)
    (h : (d.deploy spec).Makes turns result) (hqueued : queued ∈ turns.filterMap Turn.queued?) :
    ∃ outcome advice, .heard (.advise (d.advisor.request Advisor.sizing
        ⟨spec.modelConfig.family, spec.modelConfig.gpu⟩)) outcome ∈ turns ∧
      Advisor.result? outcome = some advice ∧ spec.AsAdvised queued advice := by
  obtain ⟨-, -, -, rfl⟩ | ⟨-, ⟨cause, hseeds, -⟩ | ⟨asking, rest, seeded, rfl, hseeds, hrest⟩⟩ :=
    makes_deploy h
  · exact absurd hqueued List.not_mem_nil
  · rw [Turn.queued?_of_isHeard hseeds.isHeard] at hqueued
    exact absurd hqueued List.not_mem_nil
  · rw [List.filterMap_append, Turn.queued?_of_isHeard hseeds.isHeard, List.nil_append] at hqueued
    obtain rfl := queues_enter.eq_of_mem hrest hqueued
    obtain ⟨outcome, r, hheard, hread, rfl⟩ := hseeds.advised_of_auto hauto
    obtain ⟨advice, hresult, hread⟩ := Advisor.ofJson_of_readResult hread
    exact ⟨outcome, advice, List.mem_append_left _ hheard, hresult, spec.asAdvised_apply hread⟩

/-- What is queued by a recovery. -/
theorem asAdvised_of_recover {result : Except DetectorError (Option TaskSpec)}
    (h : (d.recover spec).Makes turns result) (hqueued : queued ∈ turns.filterMap Turn.queued?) :
    ∃ request outcome advice,
      .heard (.advise (d.advisor.request Advisor.recovery request)) outcome ∈ turns ∧
      Advisor.result? outcome = some advice ∧ spec.AsAdvised queued advice := by
  cases hconfig : spec.currentConfig with
  | none =>
    simp only [recover, hconfig] at h
    obtain ⟨rfl, -⟩ := h
    exact absurd hqueued List.not_mem_nil
  | some previous =>
    rw [recover_eq hconfig] at h
    obtain ⟨asking, rest, advice, rfl, hadvice, hrest⟩ := makes_bind.mp h
    obtain ⟨hheard, hadvice⟩ := makes_recommendation hadvice
    rw [List.filterMap_append, Turn.queued?_of_isHeard hheard, List.nil_append] at hqueued
    rcases hadvice with
      ⟨cause, rfl⟩ | ⟨cause, rfl⟩ | ⟨r, request, outcome, rfl, hadvised, hreply⟩
    · obtain ⟨rfl, -⟩ := hrest
      exact absurd hqueued List.not_mem_nil
    · obtain ⟨rfl, -⟩ := hrest
      exact absurd hqueued List.not_mem_nil
    · obtain rfl := queues_exchanging.eq_of_mem hrest hqueued
      obtain ⟨result, hresult, hread⟩ := Advisor.ofJson_of_readResult hreply
      exact ⟨request, outcome, result, List.mem_append_left _ hadvised, hresult,
        spec.asAdvised_apply hread⟩

/-- Whatever the advisor replies and whatever others do meanwhile: a task
    that is scaled automatically is deployed, and any task is recovered,
    only with the replica count that the reply states, and with none if it
    states none; then, and only then, the scaler removes it. -/
theorem advised_replicas (d : Detector) (spec : TaskSpec) (turns : List Turn) :
    (∀ result, spec.isAutoScaled = true → (d.deploy spec).Makes turns result →
      ∀ queued ∈ turns.filterMap Turn.queued?, ∃ outcome advice,
        .heard (.advise (d.advisor.request Advisor.sizing
          ⟨spec.modelConfig.family, spec.modelConfig.gpu⟩)) outcome ∈ turns ∧
        Advisor.result? outcome = some advice ∧ spec.AsAdvised queued advice) ∧
    ∀ result, (d.recover spec).Makes turns result →
      ∀ queued ∈ turns.filterMap Turn.queued?, ∃ request outcome advice,
        .heard (.advise (d.advisor.request Advisor.recovery request)) outcome ∈ turns ∧
        Advisor.result? outcome = some advice ∧ spec.AsAdvised queued advice :=
  ⟨fun _ hauto hmakes _ hqueued => asAdvised_of_deploy hauto hmakes hqueued,
    fun _ hmakes _ hqueued => asAdvised_of_recover hmakes hqueued⟩

end Detector

namespace Schedule

/-- The turns of the deploy in the run that tunes a task. -/
def sizingTurns : List Turn :=
  ((start 1).step watchful (.begin 0 (.deploy limited))).turns watchful 0 ((tuned.drop 1).take 8)

/-- The turns of the recovery in the same run. -/
def recoveryTurns : List Turn :=
  ((run watchful 1 (tuned.take 9)).step watchful (.begin 1 (.recover (limited.apply sizing)))).turns
    watchful 1 (tuned.drop 10)

/-- The task is queued with the three replicas of the sizing, and then with
    the one of the recovery. -/
theorem advised_replicas_of_tuned :
    limited.isAutoScaled = true ∧
    (∃ result, (watchful.deploy limited).Makes sizingTurns result) ∧
    limited.apply sizing ∈ sizingTurns.filterMap Turn.queued? ∧
    (∃ outcome advice, .heard (.advise (watchful.advisor.request Advisor.sizing
        ⟨limited.modelConfig.family, limited.modelConfig.gpu⟩)) outcome ∈ sizingTurns ∧
      Advisor.result? outcome = some advice ∧
      limited.AsAdvised (limited.apply sizing) advice) ∧
    (∃ result, (watchful.recover (limited.apply sizing)).Makes recoveryTurns result) ∧
    settled ∈ recoveryTurns.filterMap Turn.queued? ∧
    ∃ request outcome advice,
      .heard (.advise (watchful.advisor.request Advisor.recovery request)) outcome ∈ recoveryTurns ∧
      Advisor.result? outcome = some advice ∧ (limited.apply sizing).AsAdvised settled advice := by
  have hdeploy : ∃ result, (watchful.deploy limited).Makes sizingTurns result :=
    makes_turns (leaves_deploy limited rfl) (by decide)
      (Option.isNone_iff_eq_none.mp (by decide +kernel))
  have hfree : (run watchful 1 (tuned.take 9)).activities 1 = none :=
    Option.isNone_iff_eq_none.mp (by decide +kernel)
  have hrecover : ∃ result, (watchful.recover (limited.apply sizing)).Makes recoveryTurns result :=
    makes_turns (leaves_recover (limited.apply sizing) hfree) (by decide)
      (Option.isNone_iff_eq_none.mp (by decide +kernel))
  have hsized : limited.apply sizing ∈ sizingTurns.filterMap Turn.queued? := by decide +kernel
  have hsettled : settled ∈ recoveryTurns.filterMap Turn.queued? := by decide +kernel
  obtain ⟨_, hsizing⟩ := hdeploy
  obtain ⟨_, hrecovery⟩ := hrecover
  exact ⟨rfl, ⟨_, hsizing⟩, hsized,
    (Detector.advised_replicas watchful limited sizingTurns).1 _ rfl hsizing _ hsized,
    ⟨_, hrecovery⟩, hsettled,
    (Detector.advised_replicas watchful (limited.apply sizing) recoveryTurns).2 _ hrecovery _
      hsettled⟩

/-- A size without a replica count. -/
def uncounted : String := "\x7b\"max_num_seqs\": 32\x7d"

/-- A task that asks for two replicas, and whose sizing does not say how
    many, is queued without replicas; the scaler removes it. -/
theorem removed_without_count :
    limited.isAutoScaled = true ∧ limited.replica = 2 ∧
    (∃ advice, Advisor.result? (replying uncounted) = some advice ∧
      ∀ part, ¬ advice.States "replicas" 3 part) ∧
    ∃ removed, (run watchful 1 (.begin 0 (.deploy limited)
        :: List.replicate 8 (.advance 0 (advising uncounted)))).accepted = [removed] ∧
      removed.replica = 0 ∧ Scaler.reconcile removed = .ask (.delete removed) := by
  refine ⟨rfl, rfl, ⟨.object [("max_num_seqs", .ofNat 32)], by decide +kernel, fun part hpart => ?_⟩,
    { limited with replica := 0 }, by decide +kernel, rfl, rfl⟩
  have hkey : "replicas" = "max_num_seqs" := congrArg Prod.fst (List.mem_singleton.mp hpart)
  exact absurd hkey (by decide)

end Schedule

end ServingPlane
