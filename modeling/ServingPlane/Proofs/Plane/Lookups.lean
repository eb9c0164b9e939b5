import ServingPlane.Proofs.Plane.Atomicity

/-! # What is done to one task by its name

    To describe a task, to list its history and to delete it all begin by
    looking its name up in the registry.  If the name is not there, that
    is all that happens.  If it is, nothing but the task found there
    counts: the backend is asked about its spec and about no other, and
    what belongs to other tasks stays as it is, whatever others do
    between the turns. -/

namespace ServingPlane

namespace Api

/-- How the result of a description is answered. -/
def describeReply (ctx : EnvelopeContext) : Except DetectorError TaskView → ApiReply
  | .ok view => .ok ctx view.document
  | .error cause => .ofError ctx cause

/-- How the result of a listing is answered. -/
def historyReply (ctx : EnvelopeContext) (name : String) :
    Except DetectorError (Option (List RecoveryRecord)) → ApiReply
  | .ok (some records) =>
    .ok ctx (.object [("data", .array (records.map RecoveryRecord.shape.codec.write))])
  | .ok none => .notFound ctx name
  | .error cause => .ofError ctx cause

theorem describe_eq (ctx : EnvelopeContext) (name : String) :
    describe ctx name = Detector.describe name >>= fun a => pure (describeReply ctx a) := by
  simp only [describe]
  congr 1
  funext a
  cases a with
  | _ => rfl

theorem history_eq (ctx : EnvelopeContext) (name : String) :
    history ctx name = Detector.history name >>= fun a => pure (historyReply ctx name a) := by
  simp only [history]
  congr 1
  funext a
  cases a with
  | error cause => rfl
  | ok records =>
    cases records with
    | _ => rfl

end Api

/-- How a registered task shows, by what the backend says of its replicas. -/
def RegisteredTask.shownBy (task : RegisteredTask) :
    Except BackendError (List RuntimeInstance) → Except DetectorError TaskView
  | .error cause => .error (.backend cause)
  | .ok runtime =>
    .ok ⟨task.spec, if runtime.any RuntimeInstance.isRunning then .running else task.status, runtime⟩

namespace Plane

/-- The plane once the backend has listed the replicas of a task: if one
    runs, the task is noted as running. -/
def noting (p : Plane) (name : String) : Except BackendError (List RuntimeInstance) → Plane
  | .error _ => p
  | .ok runtime =>
    if runtime.any RuntimeInstance.isRunning then
      { p with registry := p.registry.setStatus name .running }
    else p

variable {p q : Plane} {name other : String}

/-- What belongs to a task, if neither its entry nor its place in the queue
    nor the store has changed. -/
theorem holding_congr (hentry : q.registry.get? name = p.registry.get? name)
    (hwaits : q.queue.pending.get? name = p.queue.pending.get? name) (hstore : q.store = p.store) :
    q.holding name = p.holding name := by
  simp only [holding]
  rw [hentry, hwaits, hstore]

theorem Alike.holding (h : p.Alike q) (name : String) : q.holding name = p.holding name :=
  holding_congr (by rw [h.registry]) (by rw [h.pending]) h.store

theorem holding_setStatus (h : other ≠ name) (status : TaskStatus) :
    ({ p with registry := p.registry.setStatus name status } : Plane).holding other
      = p.holding other := by
  refine holding_congr ?_ rfl rfl
  exact (Dict.get?_modify ..).trans (if_neg h)

theorem holding_noting (h : other ≠ name) (answer : Except BackendError (List RuntimeInstance)) :
    (p.noting name answer).holding other = p.holding other := by
  cases answer with
  | error cause => rfl
  | ok runtime =>
    simp only [noting]
    split
    · exact holding_setStatus h .running
    · rfl

/-- To read the registry changes nothing. -/
theorem serve_readRegistry {registry : Registry} (h : p.serve .readRegistry = some (registry, q)) :
    registry = p.registry ∧ q = p := by
  simp only [serve, whenFree] at h
  split at h
  · cases h
  · cases h
    exact ⟨rfl, rfl⟩

/-- A task that is deleted takes nothing with it. -/
theorem holding_exchanged {spec : TaskSpec} (hname : spec.name = name) (h : other ≠ name) :
    (p.exchanged (p.registry.unregister name) spec.teardown).holding other = p.holding other := by
  have hne : other ≠ spec.name := hname ▸ h
  exact holding_congr ((p.retires_exchanged name spec).registered other h)
    ((p.retires_exchanged name spec).pending other hne) rfl

end Plane

/-! ## While nobody else acts -/

namespace Detector

open Program

variable {w t : Watch} {name : String} {α β : Type}

theorem runs_read {f : Registry → Detection α} {a : α} :
    (ask .readRegistry >>= f).Runs watching w a t ↔
      w.plane.locked = false ∧ (f w.plane.registry).Runs watching w a t := by
  rw [runs_ask]
  simp only [Plane.serve, Plane.whenFree]
  cases w.plane.locked with
  | true => exact ⟨by rintro ⟨_, _, ⟨⟩, -⟩, by rintro ⟨⟨⟩, -⟩⟩
  | false =>
    constructor
    · rintro ⟨_, _, ⟨⟩, hrest⟩
      exact ⟨rfl, hrest⟩
    · rintro ⟨-, hrest⟩
      exact ⟨_, _, rfl, hrest⟩

theorem runs_setStatus {status : TaskStatus} {a b : α} (hfree : w.plane.locked = false) :
    (ask (.updateRegistry (·.setStatus name status)) >>= fun _ => pure a).Runs watching w b t ↔
      b = a ∧ t = ⟨{ w.plane with registry := w.plane.registry.setStatus name status },
        w.heard⟩ := by
  rw [runs_ask]
  simp only [Plane.serve, Plane.whenFree]
  rw [hfree, if_neg Bool.false_ne_true]
  constructor
  · rintro ⟨_, _, ⟨⟩, hrest⟩
    exact hrest
  · intro hrest
    exact ⟨_, _, rfl, hrest⟩

theorem runs_askOutside {e : OutsideCall β} {f : β → Detection α} {a : α} :
    (askOutside e >>= f).Runs watching w a t ↔
      ∃ answer, (f answer).Runs watching ⟨w.plane, w.heard ++ [.of e answer]⟩ a t := by
  rw [runs_bind]
  constructor
  · rintro ⟨answer, _, hask, hrest⟩
    obtain rfl := Program.runs_ask.mp hask
    exact ⟨answer, hrest⟩
  · rintro ⟨answer, hrest⟩
    exact ⟨answer, _, Program.runs_ask.mpr rfl, hrest⟩

/-- A description of a task asks the backend about it, once. -/
theorem runs_describe {b : Except DetectorError TaskView} :
    (describe name).Runs watching w b t ↔ w.plane.locked = false ∧
      ((w.plane.registry.get? name = none ∧ b = .error (.unknownTask name) ∧ t = w) ∨
        ∃ task answer, w.plane.registry.get? name = some task ∧ b = task.shownBy answer ∧
          t = ⟨w.plane.noting name answer, w.heard ++ [.askedInstances task.spec answer]⟩) := by
  simp only [describe]
  rw [runs_read]
  refine and_congr_right fun hfree => ?_
  cases htask : w.plane.registry.get? name with
  | none =>
    constructor
    · rintro ⟨rfl, rfl⟩
      exact .inl ⟨rfl, rfl, rfl⟩
    · rintro (⟨-, rfl, rfl⟩ | ⟨_, _, ⟨⟩, -⟩)
      exact ⟨rfl, rfl⟩
  | some task =>
    -- what becomes of the answer
    have hthen : ∀ answer : Except BackendError (List RuntimeInstance),
        (match answer with
          | .error cause => pure (.error (.backend cause))
          | .ok runtime =>
            if runtime.any RuntimeInstance.isRunning then
              ask (.updateRegistry (·.setStatus name .running)) >>= fun _ =>
                pure (.ok ⟨task.spec, .running, runtime⟩)
            else pure (.ok ⟨task.spec, task.status, runtime⟩) : Detection _).Runs watching
          ⟨w.plane, w.heard ++ [.askedInstances task.spec answer]⟩ b t ↔
        b = task.shownBy answer ∧
          t = ⟨w.plane.noting name answer, w.heard ++ [.askedInstances task.spec answer]⟩ := by
      intro answer
      cases answer with
      | error cause => exact Iff.rfl
      | ok runtime =>
        simp only [RegisteredTask.shownBy, Plane.noting]
        split
        · exact runs_setStatus hfree
        · exact Iff.rfl
    refine runs_askOutside.trans ⟨?_, ?_⟩
    · rintro ⟨answer, hrun⟩
      obtain ⟨rfl, rfl⟩ := (hthen answer).mp hrun
      exact .inr ⟨task, answer, rfl, rfl, rfl⟩
    · rintro (⟨⟨⟩, -⟩ | ⟨_, answer, ⟨⟩, rfl, rfl⟩)
      exact ⟨answer, (hthen answer).mpr ⟨rfl, rfl⟩⟩

/-- The recoveries of a task are those on record under its name. -/
theorem runs_history {b : Except DetectorError (Option (List RecoveryRecord))} :
    (history name).Runs watching w b t ↔ w.plane.locked = false ∧
      ((w.plane.registry.get? name = none ∧ b = .ok none ∧ t = w) ∨
        ∃ task, w.plane.registry.get? name = some task ∧
          b = ((w.plane.store.listHistory name).map some).mapError .store ∧ t = w) := by
  simp only [history]
  rw [runs_read]
  refine and_congr_right fun _ => ?_
  by_cases hthere : w.plane.registry.contains name = true
  · obtain ⟨task, htask⟩ := Dict.contains_eq_true_iff.mp hthere
    rw [if_pos hthere, htask, runs_ask]
    simp only [Plane.serve]
    cases w.plane.store.listHistory name with
    | _ =>
      constructor
      · rintro ⟨_, _, ⟨⟩, rfl, rfl⟩
        exact .inr ⟨task, rfl, rfl, rfl⟩
      · rintro (⟨⟨⟩, -⟩ | ⟨_, ⟨⟩, rfl, rfl⟩)
        exact ⟨_, _, rfl, rfl, rfl⟩
  · have hnone : w.plane.registry.get? name = none := Option.not_isSome_iff_eq_none.mp hthere
    rw [if_neg hthere, hnone]
    constructor
    · rintro ⟨rfl, rfl⟩
      exact .inl ⟨rfl, rfl, rfl⟩
    · rintro (⟨-, rfl, rfl⟩ | ⟨_, ⟨⟩, -⟩)
      exact ⟨rfl, rfl⟩

end Detector

/-! ## Whatever others do meanwhile -/

namespace Turn

variable {r : Option Registry} {turns : List Turn} {p q : Plane} {name : String}

/-- The turn leaves alone what belongs to tasks of other names. -/
def LeavesOthers (name : String) : Turn → Prop
  | heard _ _ => True
  | asked _ _ before after => ∀ other, other ≠ name → after.holding other = before.holding other

theorem Quiet.leavesOthers {turn : Turn} (h : turn.Quiet) : turn.LeavesOthers name := by
  cases turn with
  | heard => trivial
  | asked e answer before after => exact fun other _ => Plane.Alike.holding h other

/-- What is asked of the plane is not heard outside. -/
theorem event?_of_vain (h : ∀ turn ∈ turns, turn.Vain) : turns.filterMap event? = [] := by
  refine List.filterMap_eq_nil_iff.mpr fun turn hturn => ?_
  have hvain := h turn hturn
  cases turn with
  | heard => cases hvain
  | asked => rfl

/-- The registry that was locked is the one that a turn found. -/
theorem exists_before_of_locked? {registry : Registry}
    (h : turns.filterMap locked? = [registry]) :
    ∃ turn ∈ turns, ∃ p, turn.before? = some p ∧ p.registry = registry := by
  have hmem : registry ∈ turns.filterMap locked? := h ▸ List.mem_singleton_self _
  obtain ⟨turn, hturn, hlocked⟩ := List.mem_filterMap.mp hmem
  refine ⟨turn, hturn, ?_⟩
  cases turn with
  | heard => cases hlocked
  | asked e answer before after =>
    refine ⟨before, rfl, ?_⟩
    cases e with
    | lockRegistry =>
      cases answer with
      | none => cases hlocked
      | some => exact Option.some.inj hlocked
    | _ => cases hlocked

theorem Fits.readRegistry {registry : Registry}
    (h : (asked .readRegistry (some registry) p q).Fits r) : registry = p.registry ∧ p.Alike q := by
  obtain ⟨rfl, rfl⟩ := Plane.serve_readRegistry (h.served rfl)
  exact ⟨rfl, .refl _⟩

theorem Fits.setStatus {status : TaskStatus} {answer : Unit}
    (h : (asked (.updateRegistry (·.setStatus name status)) (some answer) p q).Fits r) :
    (asked (.updateRegistry (·.setStatus name status)) (some answer) p q).LeavesOthers name := by
  have hserve := h.served rfl
  simp only [Plane.serve, Plane.whenFree] at hserve
  split at hserve
  · cases hserve
  · cases hserve
    exact fun other hother => Plane.holding_setStatus hother status

theorem Fits.listHistory {answer : Except StoreError (List RecoveryRecord)}
    (h : (asked (.listHistory name) (some answer) p q).Fits r) : p.Alike q := by
  have hserve := h.served rfl
  cases hserve
  exact .refl p

end Turn

namespace Program

open Turn

/-- A program that asks nothing of the outside hears nothing. -/
theorem event?_of_everyCall {α : Type} {p : Detection α} {turns : List Turn} {a : α}
    (hcalls : p.EveryCall fun e => e.isLeft = true) (h : p.Makes turns a) :
    turns.filterMap event? = [] := by
  induction p generalizing turns with
  | done b =>
    obtain ⟨rfl, -⟩ := h
    rfl
  | call e k ih =>
    cases e with
    | inr e => cases hcalls.1
    | inl e =>
      obtain ⟨stalls, answer, p, q, rest, rfl, hk⟩ := h
      have hstalls : (stalls.map fun s => Turn.asked e none s.1 s.2).filterMap event? = [] := by
        rw [List.filterMap_map]
        exact List.filterMap_eq_nil_iff.mpr fun _ _ => rfl
      rw [List.filterMap_append, hstalls, List.nil_append, List.filterMap_cons]
      exact ih answer (hcalls.2 answer) hk

end Program

/-- What is done by the name of a task: at one of the turns the name is
    looked up.  If it is not there, this is answered, and nothing is asked
    of the outside or changed.  If it is, the backend alone is asked, about
    the spec found there, and other tasks are left alone. -/
inductive LooksUp (name : String) (turns : List Turn) (missing : Prop) : Prop
  | missed {turn : Turn} {p : Plane} (mem : turn ∈ turns) (met : turn.before? = some p)
    (unknown : p.registry.get? name = none) (answered : missing)
    (silent : turns.filterMap Turn.event? = []) (quiet : ∀ turn ∈ turns, turn.Quiet)
  | found {turn : Turn} {p : Plane} {task : RegisteredTask} (mem : turn ∈ turns)
    (met : turn.before? = some p) (known : p.registry.get? name = some task)
    (answered : ¬ missing)
    (asked : ∀ event ∈ turns.filterMap Turn.event?,
      ∃ answer, event = .askedInstances task.spec answer)
    (others : task.spec.name = name → ∀ turn ∈ turns, turn.LeavesOthers name)

namespace Detector

open Program Turn

variable {turns : List Turn} {name : String} {α : Type} (ctx : EnvelopeContext)

/-- A program reads the registry, and goes on with what it finds in it. -/
theorem makes_read {f : Registry → Detection α} {a : α}
    (h : (ask .readRegistry >>= f).Makes turns a) (hfit : AllFit none turns) :
    ∃ reading rest turn p, turns = reading ++ rest ∧ turn ∈ reading ∧ turn.before? = some p ∧
      (∀ turn ∈ reading, turn.Quiet) ∧ reading.filterMap event? = [] ∧
      (f p.registry).Makes rest a ∧ AllFit none rest := by
  obtain ⟨stalls, registry, p, q, rest, rfl, hvain, hread, hthen, hfit⟩ := makes_ask_vain h hfit
  obtain ⟨rfl, halike⟩ := hread.readRegistry
  refine ⟨stalls ++ [asked .readRegistry (some p.registry) p q], rest, _, p, List.append_cons ..,
    List.mem_append_right _ (List.mem_singleton_self _), rfl, ?_, ?_, hthen, hfit⟩
  · refine List.forall_mem_append.mpr ⟨fun turn hturn => quiet_of_vain (hvain turn hturn), ?_⟩
    exact List.forall_mem_singleton.mpr halike
  · rw [List.filterMap_append, event?_of_vain hvain]
    rfl

/-- To describe a task is to look it up. -/
theorem looksUp_describe {result : Except DetectorError TaskView}
    (h : (describe name).Makes turns result) (hfit : AllFit none turns) :
    LooksUp name turns ((Api.describeReply ctx result).status = 404) := by
  simp only [describe] at h
  obtain ⟨reading, rest, turn, p, rfl, hmem, hmet, hquiet, hsilent, hthen, hfit⟩ :=
    makes_read h hfit
  cases htask : p.registry.get? name with
  | none =>
    rw [htask] at hthen
    obtain ⟨rfl, rfl⟩ := hthen
    rw [List.append_nil]
    exact .missed hmem hmet htask rfl hsilent hquiet
  | some task =>
    rw [htask] at hthen
    obtain ⟨answer, rest, rfl, hthen⟩ := hthen
    have hfirst : ∀ turn ∈ reading, turn.LeavesOthers name :=
      fun turn hturn => (hquiet turn hturn).leavesOthers
    -- it is enough that what follows the answer hears nothing and leaves other tasks alone
    suffices hrest : (Api.describeReply ctx result).status ≠ 404 ∧
        rest.filterMap event? = [] ∧ ∀ turn ∈ rest, turn.LeavesOthers name by
      obtain ⟨hanswered, hsilent', hothers⟩ := hrest
      refine .found (List.mem_append_left _ hmem) hmet htask hanswered ?_ fun _ =>
        List.forall_mem_append.mpr ⟨hfirst, List.forall_mem_cons.mpr ⟨trivial, hothers⟩⟩
      rw [List.filterMap_append, hsilent, List.nil_append, List.filterMap_cons]
      dsimp only [event?]
      rw [hsilent']
      exact List.forall_mem_singleton.mpr ⟨answer, rfl⟩
    cases answer with
    | error cause =>
      obtain ⟨rfl, rfl⟩ := hthen
      exact ⟨by rintro ⟨⟩, rfl, fun _ hturn => absurd hturn List.not_mem_nil⟩
    | ok runtime =>
      dsimp only [Program.bind] at hthen
      split at hthen
      · obtain ⟨stalls, _, _, _, _, rfl, hvain, hnoted, ⟨rfl, rfl⟩, -⟩ :=
          makes_ask_vain hthen hfit.2
        refine ⟨by rintro ⟨⟩, ?_, ?_⟩
        · rw [List.filterMap_append, event?_of_vain hvain]
          rfl
        · refine List.forall_mem_append.mpr ⟨fun turn hturn => ?_,
            List.forall_mem_singleton.mpr hnoted.setStatus⟩
          exact (quiet_of_vain (hvain turn hturn)).leavesOthers
      · obtain ⟨rfl, rfl⟩ := hthen
        exact ⟨by rintro ⟨⟩, rfl, fun _ hturn => absurd hturn List.not_mem_nil⟩

/-- To list the recoveries of a task is to look it up. -/
theorem looksUp_history {result : Except DetectorError (Option (List RecoveryRecord))}
    (h : (history name).Makes turns result) (hfit : AllFit none turns) :
    LooksUp name turns ((Api.historyReply ctx name result).status = 404) := by
  simp only [history] at h
  obtain ⟨reading, rest, turn, p, rfl, hmem, hmet, hquiet, hsilent, hthen, hfit⟩ :=
    makes_read h hfit
  by_cases hthere : p.registry.contains name = true
  · obtain ⟨task, htask⟩ := Dict.contains_eq_true_iff.mp hthere
    rw [if_pos hthere] at hthen
    obtain ⟨stalls, records, q, q', rest, rfl, hvain, hlisted, hthen, -⟩ :=
      makes_ask_vain hthen hfit
    have hanswered : rest = [] ∧ (Api.historyReply ctx name result).status ≠ 404 := by
      cases records with
      | _ =>
        obtain ⟨rfl, rfl⟩ := hthen
        exact ⟨rfl, by rintro ⟨⟩⟩
    obtain ⟨rfl, hanswered⟩ := hanswered
    refine .found (List.mem_append_left _ hmem) hmet htask hanswered ?_ fun _ turn hturn => ?_
    · rw [List.filterMap_append, List.filterMap_append, hsilent, event?_of_vain hvain]
      exact fun _ hevent => absurd hevent List.not_mem_nil
    · have hall : ∀ turn ∈ reading ++ (stalls ++ [asked (.listHistory name) (some records) q q']),
          turn.Quiet := by
        refine List.forall_mem_append.mpr ⟨hquiet, List.forall_mem_append.mpr ⟨?_, ?_⟩⟩
        · exact fun turn hturn => quiet_of_vain (hvain turn hturn)
        · exact List.forall_mem_singleton.mpr hlisted.listHistory
      exact (hall turn hturn).leavesOthers
  · have hnone : p.registry.get? name = none := Option.not_isSome_iff_eq_none.mp hthere
    rw [if_neg hthere] at hthen
    obtain ⟨rfl, rfl⟩ := hthen
    rw [List.append_nil]
    exact .missed hmem hmet hnone rfl hsilent hquiet

/-- To hand over the teardown of a task concerns that task alone. -/
theorem HandsOver.leavesOthers {registry : Registry} {spec : TaskSpec}
    (h : HandsOver registry (registry.unregister name) spec turns) (hname : spec.name = name) :
    ∀ turn ∈ turns, turn.LeavesOthers name := by
  -- two of its turns may change anything: the append that takes effect and the release
  obtain ⟨-, queues, kept, quiet⟩ := h
  obtain ⟨hasking, hwaiting⟩ := List.forall_mem_append.mp quiet
  refine List.forall_mem_append.mpr ⟨fun turn hturn => (hasking turn hturn).leavesOthers,
    List.forall_mem_cons.mpr ⟨fun other hother => ?_, List.forall_mem_append.mpr
      ⟨fun turn hturn => (hwaiting turn hturn).leavesOthers,
        List.forall_mem_singleton.mpr fun other hother => ?_⟩⟩⟩
  · refine Plane.holding_congr (by rw [queues.registry]) ?_ queues.store
    rw [queues.pending]
    exact Dict.get?_insert_of_ne _ _ (hname ▸ hother)
  · refine Plane.holding_congr ?_ rfl rfl
    rw [kept]
    exact Dict.get?_erase_of_ne _ hother

theorem everyCall_delete (name : String) : (delete name).EveryCall fun e => e.isLeft = true := by
  refine ⟨rfl, fun registry => ?_⟩
  dsimp only [Program.bind]
  cases registry.get? name with
  | none => exact ⟨rfl, fun _ => trivial⟩
  | some task =>
    refine ⟨rfl, fun answer => ?_⟩
    cases answer with
    | _ => exact ⟨rfl, fun _ => trivial⟩

/-- To delete a task is to look it up. -/
theorem looksUp_delete {result : Except DetectorError Bool} (h : (delete name).Makes turns result)
    (hfit : AllFit none turns) :
    LooksUp name turns ((Api.deleteReply ctx name result).status = 404) := by
  have hsilent := event?_of_everyCall (everyCall_delete name) h
  simp only [delete] at h
  obtain ⟨asking, rest, registry, rfl, hquiet, hlocked, hthen, hfit⟩ := makes_lock h hfit
  obtain ⟨turn, hturn, p, hmet, rfl⟩ := exists_before_of_locked? hlocked
  have hmem : turn ∈ asking ++ rest := List.mem_append_left _ hturn
  cases htask : p.registry.get? name with
  | none =>
    rw [htask] at hthen
    obtain ⟨rfl, -⟩ := makes_release hthen hfit
    refine .missed hmem hmet htask rfl hsilent (List.forall_mem_append.mpr ⟨hquiet, ?_⟩)
    exact quiet_of_release hthen hfit
  | some task =>
    rw [htask] at hthen
    have hasked : ∀ event ∈ (asking ++ rest).filterMap event?,
        ∃ answer, event = .askedInstances task.spec answer := by
      rw [hsilent]
      exact fun _ hevent => absurd hevent List.not_mem_nil
    obtain ⟨-, ⟨rfl, hrest⟩ | ⟨rfl, hhands⟩⟩ := makes_handOver hthen hfit
    · refine .found hmem hmet htask (by rintro ⟨⟩) hasked fun _ => ?_
      have hall := List.forall_mem_append.mpr ⟨hquiet, hrest⟩
      exact fun turn hturn => (hall turn hturn).leavesOthers
    · refine .found hmem hmet htask (by rintro ⟨⟩) hasked fun hname => ?_
      exact (hhands.after hquiet).leavesOthers hname

end Detector

end ServingPlane
