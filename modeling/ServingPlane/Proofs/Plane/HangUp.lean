import ServingPlane.Proofs.Plane.Atomicity
import ServingPlane.Proofs.Queue.HangUp

/-! # Deploys and deletes once the scaler is gone

    When nobody takes specs any more, a task of which none waits and for
    which no request has a slot in hand stays out of the queue for good:
    no later step of any request queues it.  A deploy or a delete of such
    a task that has not queued its spec by then never reports success and
    leaves queue and registry as they are. -/

namespace ServingPlane

/-- A call that is no append leaves the queue alone. -/
theorem Plane.queue_attempt {β : Type} {e : PlaneCall β} (he : e.isAppend = false) (p : Plane)
    (stage : AppendStage) : (p.attempt stage e).plane.queue = p.queue := by
  cases hserve : p.serve e with
  | none => rw [attempt_of_serve_eq_none he hserve]
  | some served =>
    obtain ⟨answer, plane⟩ := served
    rw [attempt_of_serve_eq_some he hserve]
    cases e with
    | enqueue => cases he
    | unlockRegistry => cases hserve; rfl
    | queuedCount => cases hserve; rfl
    | listHistory => cases hserve; rfl
    | appendHistory task record limit =>
      obtain ⟨answer, store, heq, -⟩ := p.serve_appendHistory task record limit
      cases heq.symm.trans hserve
      rfl
    | _ =>
      -- the others go on while the registry is free
      simp only [serve, whenFree] at hserve
      split at hserve
      · cases hserve
      · cases hserve
        rfl

theorem Plane.stage_attempt {β : Type} {e : PlaneCall β} (he : e.isAppend = false) (p : Plane)
    (stage : AppendStage) : (p.attempt stage e).stage = .arrived := by
  cases hserve : p.serve e with
  | none => rw [attempt_of_serve_eq_none he hserve]
  | some served =>
    obtain ⟨answer, plane⟩ := served
    rw [attempt_of_serve_eq_some he hserve]

namespace Turn

/-- The spec whose append took effect by the turn, if one did. -/
def accepted? : Turn → Option TaskSpec
  | asked (.enqueue spec) (some .accepted) _ _ => some spec
  | _ => none

end Turn

namespace Schedule

variable {d : Detector} {s : Schedule} {i : Nat} {a : Activity} {name : String}
  {actions : List Action}

/-- Nobody takes specs any more, and nothing of the task is in the queue or about to be. -/
abbrev Forsakes (s : Schedule) (name : String) : Prop :=
  s.plane.queue.Forsakes s.appends name

theorem Activity.emptyHanded_append {a : Activity} (h : a.stage = .arrived) :
    TaskQueue.EmptyHanded name a.append := by
  simp only [Activity.append]
  split
  · rw [h]
    exact TaskQueue.emptyHanded_of_stage fun _ => AppendStage.noConfusion
  · exact TaskQueue.emptyHanded_none

theorem forsakes_put {plane : Plane} (accepted : List TaskSpec) {next : Option Activity}
    (h : plane.queue.Forsakes (Function.update s.appends i (next.bind Activity.append)) name) :
    ({ s with plane, accepted }.put i next).Forsakes name := by
  rw [← appends_put] at h
  exact h

/-- A request moves on, and has no slot in hand. -/
theorem Forsakes.put (h : s.Forsakes name) {plane : Plane} (hqueue : plane.queue = s.plane.queue)
    (accepted : List TaskSpec) {next : Option Activity}
    (hnext : TaskQueue.EmptyHanded name (next.bind Activity.append)) :
    ({ s with plane, accepted }.put i next).Forsakes name := by
  refine forsakes_put accepted ?_
  rw [hqueue]
  exact TaskQueue.Forsakes.update h rfl h.absent hnext

/-- A request goes one step on with its append. -/
theorem Forsakes.enqueue (h : s.Forsakes name) {spec : TaskSpec} {k : AppendResult → Detection Unit}
    (hi : s.activities i = some a) (hprogram : a.program = .call (.inl (.enqueue spec)) k) :
    (s.resume i a (.enqueue spec) k (s.plane.attempt a.stage (.enqueue spec))).Forsakes name := by
  have hadvance := TaskQueue.Forsakes.advance h (appends_of_enqueue hi hprogram)
  simp only [resume, Plane.attempt]
  cases (s.plane.queue.advance spec a.stage).1.result? with
  | none =>
    refine forsakes_put _ ?_
    have happend : ({ a with stage := (s.plane.queue.advance spec a.stage).1 } : Activity).append
        = some (spec, (s.plane.queue.advance spec a.stage).1) := by
      simp only [Activity.append]
      rw [hprogram]
    show TaskQueue.Forsakes _ (Function.update s.appends i (Activity.append _)) name
    rw [happend]
    exact hadvance
  | some result =>
    refine forsakes_put _ ?_
    -- once answered, the request has no append under way
    have hupdate := hadvance.update (i := i) rfl hadvance.absent (Activity.emptyHanded_append
      (a := { a with program := k result, stage := .arrived }) rfl)
    rw [Function.update_idem] at hupdate
    exact hupdate

/-- A request goes one step on with a call to the plane. -/
theorem Forsakes.resume (h : s.Forsakes name) {β : Type} {e : PlaneCall β} {k : β → Detection Unit}
    (hi : s.activities i = some a) (hprogram : a.program = .call (.inl e) k) :
    (s.resume i a e k (s.plane.attempt a.stage e)).Forsakes name := by
  cases he : e.isAppend with
  | true =>
    cases e with
    | enqueue spec => exact h.enqueue hi hprogram
    | _ => cases he
  | false =>
    have hqueue := s.plane.queue_attempt he a.stage
    simp only [Schedule.resume]
    split
    · refine h.put hqueue _ (Activity.emptyHanded_append ?_)
      exact s.plane.stage_attempt he a.stage
    · exact h.put hqueue _ (Activity.emptyHanded_append rfl)

theorem Forsakes.abandon (h : s.Forsakes name) (i : Nat) : (s.abandon i).Forsakes name := by
  simp only [Schedule.abandon]
  split
  · exact h
  · rename_i a hi
    split
    · refine forsakes_put _ ?_
      show (a.leave s.plane).queue.Forsakes _ name
      have hqueue : (a.leave s.plane).queue = (a.append.map fun call =>
          s.plane.queue.giveUp call.2).getD s.plane.queue := by
        simp only [Activity.leave]
        cases a.append with
        | none => cases a.holds with | _ => rfl
        | some call => cases a.holds with | _ => rfl
      rw [hqueue]
      cases a.append with
      | none => exact TaskQueue.Forsakes.update h rfl h.absent TaskQueue.emptyHanded_none
      | some call => exact TaskQueue.Forsakes.giveUp h call.2 TaskQueue.emptyHanded_none
    · exact h

/-- Whatever happens, a forsaken task stays forsaken. -/
theorem forsakes_step (h : s.Forsakes name) (d : Detector) (action : Action) :
    (s.step d action).Forsakes name := by
  cases action with
  | begin i request =>
    simp only [step]
    split
    · exact h.put rfl s.accepted (Activity.emptyHanded_append rfl)
    · exact h
  | advance i outside =>
    simp only [step, Schedule.advance]
    split
    · exact h
    · rename_i a hi
      split
      · exact h.put rfl s.accepted TaskQueue.emptyHanded_none
      · exact h.put rfl s.accepted (Activity.emptyHanded_append rfl)
      · rename_i hprogram
        exact h.resume hi hprogram
  | abandon i => exact h.abandon i
  | take waits =>
    simp only [step]
    split
    · split
      · exact h
      · exact h
    · exact h
  | consume => exact h.consume s.consumer
  | abandonTake => exact h
  | close => exact ⟨rfl, h.absent, h.unheld⟩
  | write store => exact h

theorem forsakes_foldl (h : s.Forsakes name) (d : Detector) (actions : List Action) :
    (actions.foldl (step d) s).Forsakes name := by
  induction actions generalizing s with
  | nil => exact h
  | cons action actions ih => exact ih (forsakes_step h d action)

/-! ## What the turns of a request show -/

/-- A turn of a request is one that it makes where the run has come to. -/
theorem exists_of_mem_turns {turn : Turn} (h : turn ∈ s.turns d i actions) :
    ∃ before later, ∃ outside : ∀ {β : Type}, OutsideCall β → β,
      actions = before ++ .advance i outside :: later ∧
      (before.foldl (step d) s).turn? i outside = some turn := by
  induction actions generalizing s with
  | nil => exact absurd h List.not_mem_nil
  | cons action actions ih =>
    rcases action.advances_cases i with hother | ⟨outside, rfl⟩
    · rw [turns_other hother] at h
      obtain ⟨before, later, outside, rfl, hmade⟩ := ih h
      exact ⟨action :: before, later, outside, rfl, hmade⟩
    · rw [turns_advance] at h
      rcases List.mem_append.mp h with hfirst | hrest
      · exact ⟨[], actions, outside, rfl, Option.mem_toList.mp hfirst⟩
      · obtain ⟨before, later, outside', rfl, hmade⟩ := ih hrest
        exact ⟨.advance i outside :: before, later, outside', rfl, hmade⟩

/-- No turn queues anything of a forsaken task. -/
theorem Sound.accepted?_name_ne (hs : s.Sound) (h : s.Forsakes name)
    {outside : ∀ {β : Type}, OutsideCall β → β} {turn : Turn} (hturn : s.turn? i outside = some turn)
    {spec : TaskSpec} (hspec : turn.accepted? = some spec) : spec.name ≠ name := by
  simp only [turn?] at hturn
  split at hturn
  · cases hturn
  · rename_i a hi
    split at hturn
    · cases hturn
    · cases hturn
      cases hspec
    · rename_i e k hprogram
      cases hturn
      cases e with
      | enqueue queued =>
        intro hname
        have hstep := s.plane.queue.advance_step queued a.stage
        -- nobody takes, no slot is in hand and the name does not wait: no step takes effect
        have hunmoved : ¬ (a.stage.takesEffect (s.plane.queue.advance queued a.stage).1 = true ∧
            queued.name = name) := by
          rintro ⟨heffect, hqueued⟩
          have hnone := TaskQueue.Forsakes.not_takesEffect h (appends_of_enqueue hi hprogram) hqueued
            hstep
          rw [hnone] at heffect
          cases heffect
        simp only [Plane.attempt] at hspec
        obtain ⟨heffect, hafter⟩ | ⟨-, hafter⟩ | ⟨-, hafter⟩ :=
          hstep.after_cases (hs.orderly i a hi).1
        · rw [hafter] at hspec
          cases hspec
          exact hunmoved ⟨heffect, hname⟩
        · rw [hafter] at hspec
          cases hspec
        · generalize (s.plane.queue.advance queued a.stage).1 = after at hafter hspec
          cases after with
          | ended => cases hafter
          | _ => cases hspec
      | _ => cases hspec

/-- The registry that a turn finds is well named. -/
theorem Sound.wellNamed_before (hs : s.Sound) {outside : ∀ {β : Type}, OutsideCall β → β}
    {turn : Turn} (hturn : s.turn? i outside = some turn) {p : Plane} (hp : turn.before? = some p) :
    p.registry.WellNamed := by
  simp only [turn?] at hturn
  split at hturn
  · cases hturn
  · split at hturn
    · cases hturn
    · cases hturn
      cases hp
    · cases hturn
      cases hp
      exact hs.named

theorem sound_foldl (hs : s.Sound) (d : Detector) (actions : List Action) :
    (actions.foldl (step d) s).Sound :=
  List.foldlRecOn actions (step d) hs fun _ h action _ => h.step d action

theorem turns_append (first rest : List Action) :
    s.turns d i (first ++ rest)
      = s.turns d i first ++ (first.foldl (step d) s).turns d i rest := by
  induction first generalizing s with
  | nil => rfl
  | cons action first ih =>
    have hrest : (s.step d action).turns d i (first ++ rest) = _ := ih
    simp only [List.cons_append, turns]
    rw [hrest, List.append_assoc]
    rfl

/-- A request is over, and had queued nothing by the time its task was forsaken. -/
structure Belated (s : Schedule) (d : Detector) (i : Nat) (name : String)
    (first rest : List Action) : Prop where
  own : ∀ action ∈ first ++ rest, action.replaces i = false
  finished : ((first ++ rest).foldl (step d) s).activities i = none
  unqueued : (s.turns d i first).filterMap Turn.accepted? = []
  forsaken : (first.foldl (step d) s).Forsakes name

variable {first rest : List Action}

/-- From then on it cannot queue anything of the task any more. -/
theorem Belated.accepted?_name_ne (h : s.Belated d i name first rest) (hs : s.Sound) {turn : Turn}
    (hturn : turn ∈ s.turns d i (first ++ rest)) {spec : TaskSpec}
    (hspec : turn.accepted? = some spec) : spec.name ≠ name := by
  rw [turns_append] at hturn
  rcases List.mem_append.mp hturn with hfirst | hrest
  · have hnone := List.filterMap_eq_nil_iff.mp h.unqueued turn hfirst
    cases hnone.symm.trans hspec
  · obtain ⟨before, later, outside, rfl, hmade⟩ := exists_of_mem_turns hrest
    exact (sound_foldl (sound_foldl hs d first) d before).accepted?_name_ne
      (forsakes_foldl h.forsaken d before) hmade hspec

/-- A spec was not handed over: nobody has taken one of this name. -/
theorem Belated.not_handsOver (h : s.Belated d i name first rest) (hs : s.Sound)
    {registry contents : Registry} {spec : TaskSpec} (hname : registry.WellNamed → spec.name = name) :
    ¬ Detector.HandsOver registry contents spec (s.turns d i (first ++ rest)) := by
  intro hhands
  generalize hturns : s.turns d i (first ++ rest) = turns at hhands
  obtain ⟨found, queues, kept, quiet⟩ := hhands
  rename_i asking waiting p p' q
  -- the turn by which it was queued shows the name, and that it was accepted
  have hturn : .asked (.enqueue spec) (some .accepted) p p' ∈ s.turns d i (first ++ rest) := by
    rw [hturns]
    exact List.mem_append_right _ List.mem_cons_self
  refine h.accepted?_name_ne hs hturn rfl (hname ?_)
  obtain ⟨before, later, outside, hactions, hmade⟩ := exists_of_mem_turns hturn
  rw [← found]
  exact (sound_foldl hs d before).wellNamed_before hmade rfl

theorem holds_begin (d : Detector) (hfree : s.activities i = none) (request : Request) :
    (s.step d (.begin i request)).Holds i none := by
  simp only [step]
  rw [hfree]
  exact ⟨_, Function.update_self .., rfl, by rintro _ ⟨⟩⟩

/-- A deploy that comes too late reports no success and changes nothing. -/
theorem Belated.deploy (hs : s.Sound) (hfree : s.activities i = none) {spec : TaskSpec}
    (h : (s.step d (.begin i (.deploy spec))).Belated d i spec.name first rest) :
    ∃ result, (d.deploy spec).Makes
        ((s.step d (.begin i (.deploy spec))).turns d i (first ++ rest)) result ∧
      result ≠ .ok () ∧
      ∀ turn ∈ (s.step d (.begin i (.deploy spec))).turns d i (first ++ rest), turn.Quiet := by
  have hsound := hs.step d (.begin i (.deploy spec))
  obtain ⟨result, hresult⟩ := makes_turns (leaves_deploy spec hfree) h.own h.finished
  have hfit := hsound.allFit_turns d (holds_begin d hfree _) h.own
  refine ⟨result, hresult, ?_⟩
  obtain ⟨cause, -, rfl, hturns⟩ | ⟨-, ⟨cause, hseeds, rfl⟩ |
    ⟨asking, later, seeded, hturns, hseeds, henter⟩⟩ := Detector.makes_deploy hresult
  · rw [hturns]
    exact ⟨by rintro ⟨⟩, fun _ hturn => absurd hturn List.not_mem_nil⟩
  · exact ⟨by rintro ⟨⟩, fun turn hturn => Turn.quiet_of_isHeard (hseeds.isHeard turn hturn)⟩
  · have hasking : ∀ turn ∈ asking, turn.Quiet :=
      fun turn hturn => Turn.quiet_of_isHeard (hseeds.isHeard turn hturn)
    rw [hturns] at hfit
    obtain ⟨rfl, hquiet⟩ | ⟨registry, -, hhands⟩ :=
      Detector.makes_enter henter (Turn.allFit_append.mp hfit).2
    · rw [hturns]
      exact ⟨by rintro ⟨⟩, List.forall_mem_append.mpr ⟨hasking, hquiet⟩⟩
    -- handing over would queue the spec under the name that was asked for
    · have hall := hhands.after hasking
      rw [← hturns] at hall
      exact absurd hall (h.not_handsOver hsound fun _ => hseeds.name_eq)

/-- So does a delete. -/
theorem Belated.delete (hs : s.Sound) (hfree : s.activities i = none)
    (h : (s.step d (.begin i (.delete name))).Belated d i name first rest) :
    ∃ result, (Detector.delete name).Makes
        ((s.step d (.begin i (.delete name))).turns d i (first ++ rest)) result ∧
      result ≠ .ok true ∧
      ∀ turn ∈ (s.step d (.begin i (.delete name))).turns d i (first ++ rest), turn.Quiet := by
  have hsound := hs.step d (.begin i (.delete name))
  obtain ⟨result, hresult⟩ := makes_turns (leaves_begin hfree rfl) h.own h.finished
  have hfit := hsound.allFit_turns d (holds_begin d hfree _) h.own
  refine ⟨result, hresult, ?_⟩
  obtain hrefused | ⟨registry, task, htask, -, hhands⟩ := Detector.makes_delete hresult hfit
  · exact hrefused
  · exact absurd hhands (h.not_handsOver hsound fun hnamed => hnamed name task htask)

end Schedule

/-- Once nobody takes specs any more, all appends are turned away that have
    no slot in hand and do not find their task waiting, new ones and those
    that wait: each returns as closed by its third step, whatever others
    do, and leaves all that waits alone.  A task of which none waited then,
    and no append had a slot in hand, never waits again; and a deploy or a
    delete of it that had not queued its spec by then reports no success,
    and none of its turns changes registry or queue. -/
theorem closed_queue_turns_away (capacity : Nat) :
    (∀ before after : List Traffic.Action,
      let hung := (Traffic.run capacity before).hangUp
      let t := after.foldl Traffic.step hung
      (∀ name, hung.queue.Forsakes hung.calls name → t.queue.pending.get? name = none) ∧
      ∀ id spec stage, t.calls id = some (spec, stage) →
        (stage = .absent ∨ (∃ ticket, stage = .waiting ticket) ∨
          stage.isUnderWay = true ∧ hung.queue.Forsakes hung.calls spec.name) →
        t.TurnsAway id) ∧
    ∀ (d : Detector) (earlier : List Schedule.Action),
      let s := Schedule.run d capacity earlier
      (∀ name, s.Forsakes name → ∀ later : List Schedule.Action,
        (later.foldl (Schedule.step d) s).plane.queue.pending.get? name = none) ∧
      ∀ i first rest, s.activities i = none →
        (∀ spec, (s.step d (.begin i (.deploy spec))).Belated d i spec.name first rest →
          let turns := (s.step d (.begin i (.deploy spec))).turns d i (first ++ rest)
          ∃ result, (d.deploy spec).Makes turns result ∧ result ≠ .ok () ∧
            ∀ turn ∈ turns, turn.Quiet) ∧
        ∀ name, (s.step d (.begin i (.delete name))).Belated d i name first rest →
          let turns := (s.step d (.begin i (.delete name))).turns d i (first ++ rest)
          ∃ result, (Detector.delete name).Makes turns result ∧ result ≠ .ok true ∧
            ∀ turn ∈ turns, turn.Quiet := by
  constructor
  · intro before after hung t
    refine ⟨fun name h => (Traffic.forsakes_foldl h after).absent, fun id spec stage hcall hlate => ?_⟩
    have hclosed : t.queue.closed = true := Traffic.closed_foldl hung after
    refine Traffic.turnsAway_of_late hcall ?_
    rcases hlate with rfl | ⟨ticket, rfl⟩ | ⟨hunder, h⟩
    · exact hclosed
    · exact hclosed
    · have hforsakes : t.queue.Forsakes t.calls spec.name := Traffic.forsakes_foldl h after
      cases stage with
      | arrived => exact hforsakes
      | absent => exact hclosed
      | waiting ticket => exact hclosed
      | holding ticket => exact absurd rfl (hforsakes.unheld hcall)
      | ended => cases hunder
      | gone => cases hunder
  · intro d earlier s
    have hs : s.Sound := Schedule.sound_run d capacity earlier
    refine ⟨fun name h later => (Schedule.forsakes_foldl h d later).absent,
      fun i first rest hfree => ⟨fun spec h => ?_, fun name h => ?_⟩⟩
    · exact h.deploy hs hfree
    · exact h.delete hs hfree

namespace Schedule

/-- Some steps of one request. -/
def steps (i n : Nat) : List Action := List.replicate n (.advance i dismissive)

/-- A task waits, and an append of another waits for the only slot. -/
def crowd : List Traffic.Action :=
  [.call 0 pair, .advance 0, .advance 0, .advance 0, .advance 0,
    .call 1 { pair with name := "code" }, .advance 1, .advance 1]

/-- The consumer goes away while the request holds the registry. -/
def leftWith (i : Nat) : List Action := [.advance i dismissive, .close]

/-- An append waits when the consumer goes, and one arrives afterwards;
    a deploy and a delete hold the registry when it goes. -/
theorem closed_queue_turns_away_of_crowd :
    (let hung := (Traffic.run 1 crowd).hangUp
    let t := hung.step (.call 2 { pair with name := "draw" })
    t.calls 1 = some ({ pair with name := "code" }, .waiting 1) ∧ t.TurnsAway 1 ∧
      hung.queue.Forsakes hung.calls "draw" ∧ t.TurnsAway 2) ∧
    (let s := (run watchful 1 []).step watchful (.begin 0 (.deploy pair))
    s.Belated watchful 0 "chat" (leftWith 0) (steps 0 4) ∧
      ∃ result, (watchful.deploy pair).Makes (s.turns watchful 0 (leftWith 0 ++ steps 0 4)) result ∧
        result ≠ .ok ()) ∧
    let s := (run watchful 1 deployed).step watchful (.begin 1 (.delete "chat"))
    s.Belated watchful 1 "chat" (leftWith 1) (steps 1 4) ∧
      ∃ result, (Detector.delete "chat").Makes (s.turns watchful 1 (leftWith 1 ++ steps 1 4)) result ∧
        result ≠ .ok true := by
  refine ⟨?_, ?_, ?_⟩
  · have hcode : ((Traffic.run 1 crowd).hangUp.step (.call 2 { pair with name := "draw" })).calls 1
        = some ({ pair with name := "code" }, .waiting 1) := rfl
    have hdraw : (Traffic.run 1 crowd).hangUp.queue.Forsakes (Traffic.run 1 crowd).hangUp.calls
        "draw" := by
      refine ⟨rfl, by decide +kernel, ?_⟩
      rintro (_ | _ | i) spec ticket h
      · exact nomatch h
      · exact nomatch h
      · exact nomatch h
    have haway := ((closed_queue_turns_away 1).1 crowd [.call 2 { pair with name := "draw" }]).2
    exact ⟨hcode, haway 1 _ _ hcode (.inr (.inl ⟨1, rfl⟩)), hdraw,
      haway 2 { pair with name := "draw" } .arrived rfl (.inr (.inr ⟨rfl, hdraw⟩))⟩
  · have hlate : ((run watchful 1 []).step watchful (.begin 0 (.deploy pair))).Belated watchful 0
        "chat" (leftWith 0) (steps 0 4) := by
      refine ⟨by decide, rfl, rfl, rfl, rfl, ?_⟩
      rintro (_ | i) spec ticket h
      · exact nomatch h
      · exact nomatch h
    obtain ⟨result, hmakes, hresult, -⟩ := (((closed_queue_turns_away 1).2 watchful []).2 0
      (leftWith 0) (steps 0 4) rfl).1 pair hlate
    exact ⟨hlate, result, hmakes, hresult⟩
  · have hlate : ((run watchful 1 deployed).step watchful (.begin 1 (.delete "chat"))).Belated
        watchful 1 "chat" (leftWith 1) (steps 1 4) := by
      refine ⟨by decide, rfl, rfl, rfl, rfl, ?_⟩
      rintro (_ | _ | i) spec ticket h
      · exact nomatch h
      · exact nomatch h
      · exact nomatch h
    obtain ⟨result, hmakes, hresult, -⟩ := (((closed_queue_turns_away 1).2 watchful deployed).2 1
      (leftWith 1) (steps 1 4) rfl).2 "chat" hlate
    exact ⟨hlate, result, hmakes, hresult⟩

/-- A task is deployed and waits, and the consumer goes away. -/
def abandoned : Schedule :=
  run watchful 1 (.begin 0 (.deploy pair) :: steps 0 7 ++ [.close])

/-- The same task with more replicas. -/
def larger : TaskSpec := { pair with replica := 5 }

/-- A closed queue accepts an append of a task that waits, which replaces
    its spec, and one that has its slot in hand; so a deploy of a task that
    waits reports success and registers it, and a delete reports success
    and takes it out, though nobody takes specs any more. -/
theorem accepted_by_closed_queue :
    (let hung := (Traffic.run 1 crowd).hangUp
    let t := [.call 2 larger, .advance 2].foldl Traffic.step hung
    hung.queue.closed = true ∧ t.calls 2 = some (larger, .ended .accepted) ∧
      hung.queue.pending.get? "chat" = some pair ∧
      t.queue.pending.get? "chat" = some larger) ∧
    (let hung := (Traffic.run 1 [.call 0 pair, .advance 0, .advance 0, .advance 0]).hangUp
    hung.queue.closed = true ∧ hung.queue.pending.get? "chat" = none ∧
      (hung.advance 0).calls 0 = some (pair, .ended .accepted) ∧
      (hung.advance 0).queue.pending.get? "chat" = some pair) ∧
    abandoned.plane.queue.closed = true ∧ abandoned.activities 1 = none ∧
    (let s := abandoned.step watchful (.begin 1 (.deploy larger))
    (watchful.deploy larger).Makes (s.turns watchful 1 (steps 1 4)) (.ok ()) ∧
      ((steps 1 4).foldl (step watchful) s).plane.registry.get? "chat" = some ⟨larger, .created⟩) ∧
    let s := abandoned.step watchful (.begin 1 (.delete "chat"))
    (Detector.delete "chat").Makes (s.turns watchful 1 (steps 1 4)) (.ok true) ∧
      ((steps 1 4).foldl (step watchful) s).plane.registry.get? "chat" = none := by
  refine ⟨⟨rfl, rfl, rfl, rfl⟩, ⟨rfl, rfl, rfl, rfl⟩, rfl, rfl, ⟨?_, rfl⟩, ?_, rfl⟩
  · exact ⟨[], _, _, _, _, rfl, [], _, _, _, _, rfl, [], _, _, _, _, rfl, rfl, rfl⟩
  · exact ⟨[], _, _, _, _, rfl, [], _, _, _, _, rfl, [], _, _, _, _, rfl, rfl, rfl⟩

end Schedule

end ServingPlane
