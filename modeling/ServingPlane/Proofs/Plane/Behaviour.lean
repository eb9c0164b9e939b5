import ServingPlane.Proofs.Plane.Visits

/-! # How a program behaves towards one task

    Here the outside may answer whatever it likes, another thing each time,
    and everything that it is asked is kept.  How a program behaves is told
    by what it answers, what it asks the outside and is answered, and what
    it makes of what belongs to its task.  It behaves so wherever the task
    is ready: nothing else counts, nothing else is touched, all that may
    happen does happen somewhere, and the program never gets stuck. -/

namespace ServingPlane

/-- A call of the outside and its answer. -/
inductive OutsideEvent where
  | askedRunning (spec : TaskSpec) (answer : Except BackendError Bool)
  | askedInstances (spec : TaskSpec) (answer : Except BackendError (List RuntimeInstance))
  | shown (now : Instant)
  | gathered (requests : List (Metric × HttpRequest)) (replies : List (Metric × HttpOutcome))
  | advised (request : HttpRequest) (outcome : HttpOutcome)
  | reported (task : String) (status : TaskStatus) (runtime : List RuntimeInstance)
    (answer : Except String Unit)

/-- The event that a call with an answer is. -/
def OutsideEvent.of : {β : Type} → OutsideCall β → β → OutsideEvent
  | _, .isRunning spec, answer => .askedRunning spec answer
  | _, .instances spec, answer => .askedInstances spec answer
  | _, .now, answer => .shown answer
  | _, .gather requests, answer => .gathered requests answer
  | _, .advise request, answer => .advised request answer
  | _, .report task status runtime, answer => .reported task status runtime answer

/-! ## What belongs to a task -/

/-- What of the plane belongs to one task, with its history as it is written. -/
structure Holding where
  entry : Option RegisteredTask
  /-- The spec that the task waits with. -/
  waits : Option TaskSpec
  /-- The text of its history. -/
  history : Option String

/-- What belongs to a task. -/
def Plane.holding (p : Plane) (name : String) : Holding :=
  ⟨p.registry.get? name, p.queue.pending.get? name, p.store.history.get? name⟩

theorem Plane.Touches.holding {p q : Plane} {names : List String} (h : p.Touches names q)
    {other : String} (hother : other ∉ names) : q.holding other = p.holding other := by
  rw [Plane.holding, Plane.holding, h.entry other hother, h.waits other hother,
    h.history other hother]

namespace Holding

/-- A status was noted. -/
def noted (h : Holding) (status : TaskStatus) : Holding :=
  { h with entry := h.entry.map ({ · with status }) }

/-- What an exchange of a spec answers, and what it makes of what belongs to the task. -/
def exchange (h : Holding) (spec updated : TaskSpec) (closed : Bool) :
    Except DetectorError Bool × Holding :=
  if h.entry.any (·.spec.eqv spec) then
    if !h.waits.isSome && closed then (.error .queueClosed, h)
    else (.ok true,
      { h with entry := h.entry.map ({ · with spec := updated }), waits := some updated })
  else (.ok false, h)

/-- The recoveries on record, newest first. -/
def records (h : Holding) : Except StoreError (List RecoveryRecord) :=
  match h.history with
  | none => .ok []
  | some text => (Store.historyCodec.ofText text).mapError .undecodable

/-- A record was put in front of the others, if they can be read. -/
def filed (h : Holding) (record : RecoveryRecord) : Holding :=
  match h.records with
  | .error _ => h
  | .ok earlier =>
    let kept := (record :: earlier).take Detector.historyLimit
    { h with history := some (Store.historyCodec.write kept).compact }

end Holding

theorem Plane.records_holding (p : Plane) (name : String) :
    (p.holding name).records = p.store.listHistory name := by
  simp only [Holding.records, Plane.holding, Store.listHistory, Store.lookup]
  cases p.store.history.get? name with
  | none => rfl
  | some text =>
    dsimp only
    cases Store.historyCodec.ofText text with
    | error fault => rfl
    | ok earlier => rfl

/-! ## The environment -/

/-- The plane, and what the outside was asked and has answered. -/
structure Watch where
  plane : Plane
  heard : List OutsideEvent

/-- The plane serves its own calls, and nobody else is at work; the outside
    may answer anything. -/
def watching : Environment Watch DetectorCall
  | _, w, .inl e, answer, t =>
    ∃ plane, w.plane.serve e = some (answer, plane) ∧ t = { w with plane }
  | _, w, .inr e, answer, t => t = { w with heard := w.heard ++ [.of e answer] }

theorem watching_hosts :
    Environment.Hosts watching Watch.plane fun w plane => { w with plane } where
  serves := Iff.rfl
  plane_put _ _ := rfl
  put_put _ _ _ := rfl
  put_plane _ := rfl

/-- Whether a call is answered at all. -/
def Watch.serves : {β : Type} → Watch → DetectorCall β → Prop
  | _, w, .inl e => (w.plane.serve e).isSome = true
  | _, _, .inr _ => True

/-- How a program may behave: what belongs to its task, whether the queue is
    closed, its answer, what it hears, and what belongs to the task then. -/
abbrev Behaviour (α : Type) : Type :=
  Holding → Bool → α → List OutsideEvent → Holding → Prop

/-- Between two moments this was heard, and this became of the one task. -/
structure Came (name : String) (log : List OutsideEvent) (after : Holding) (w t : Watch) :
    Prop where
  heard : t.heard = w.heard ++ log
  holding : t.plane.holding name = after
  touches : w.plane.Touches [name] t.plane

theorem Came.trans {name : String} {first later : List OutsideEvent} {mid after : Holding}
    {w u t : Watch} (h : Came name first mid w u) (h' : Came name later after u t) :
    Came name (first ++ later) after w t where
  heard := by rw [h'.heard, h.heard, List.append_assoc]
  holding := h'.holding
  touches := h.touches.trans h'.touches

theorem Came.stay (name : String) (w : Watch) : Came name [] (w.plane.holding name) w w :=
  ⟨(List.append_nil _).symm, rfl, .refl _ _⟩

namespace Program

variable {α β : Type} {name : String} {p : Detection α} {B : Behaviour α}

/-- The program behaves so wherever the task is ready, and never gets stuck. -/
structure Behaves (p : Detection α) (name : String) (B : Behaviour α) : Prop where
  served : ∀ w : Watch, w.plane.Ready [name] → p.Guarded watching Watch.serves w
  may : ∀ {w : Watch} {a : α} {log : List OutsideEvent} {after : Holding},
    w.plane.Ready [name] → B (w.plane.holding name) w.plane.queue.closed a log after →
    ∃ t, p.Runs watching w a t ∧ Came name log after w t
  does : ∀ {w t : Watch} {a : α}, w.plane.Ready [name] → p.Runs watching w a t →
    ∃ log after, B (w.plane.holding name) w.plane.queue.closed a log after ∧
      Came name log after w t

theorem Behaves.congr (h : p.Behaves name B) {C : Behaviour α}
    (hiff : ∀ held closed a log after, B held closed a log after ↔ C held closed a log after) :
    p.Behaves name C where
  served := h.served
  may := by
    intro w a log after hready hC
    exact h.may hready ((hiff _ _ _ _ _).mpr hC)
  does := by
    intro w t a hready hrun
    obtain ⟨log, after, hB, hcame⟩ := h.does hready hrun
    exact ⟨log, after, (hiff _ _ _ _ _).mp hB, hcame⟩

theorem behaves_pure (a : α) : Behaves (pure a : Detection α) name
    fun held _ b log after => b = a ∧ log = [] ∧ after = held where
  served := fun _ _ => trivial
  may := by
    rintro w _ _ _ - ⟨rfl, rfl, rfl⟩
    exact ⟨w, ⟨rfl, rfl⟩, .stay name w⟩
  does := by
    rintro w t b - ⟨rfl, rfl⟩
    exact ⟨[], _, ⟨rfl, rfl, rfl⟩, .stay name _⟩

/-- Whatever the outside answers is heard. -/
theorem behaves_askOutside (e : OutsideCall α) : (Detector.askOutside e).Behaves name
    fun held _ a log after => log = [.of e a] ∧ after = held where
  served := fun _ _ => guarded_ask.mpr trivial
  may := by
    rintro w a _ _ - ⟨rfl, rfl⟩
    exact ⟨_, runs_ask.mpr rfl, rfl, rfl, .refl _ _⟩
  does := by
    intro w t a _ hrun
    obtain rfl := runs_ask.mp hrun
    exact ⟨_, _, ⟨rfl, rfl⟩, rfl, rfl, .refl _ _⟩

/-- One program after another: the second finds the task as the first left it. -/
theorem Behaves.bind {f : α → Detection β} {C : α → Behaviour β} (hp : p.Behaves name B)
    (hf : ∀ a, (f a).Behaves name (C a)) : (p >>= f).Behaves name
      fun held closed b log after => ∃ a first mid later,
        B held closed a first mid ∧ C a mid closed b later after ∧ log = first ++ later where
  served := by
    intro w hready
    refine guarded_bind.mpr ⟨hp.served w hready, fun a u hrun => ?_⟩
    obtain ⟨first, mid, -, hcame⟩ := hp.does hready hrun
    exact (hf a).served u (hcame.touches.ready hready)
  may := by
    rintro w b _ after hready ⟨a, first, mid, later, hB, hC, rfl⟩
    obtain ⟨u, hrun, hcame⟩ := hp.may hready hB
    have hready' := hcame.touches.ready hready
    rw [← hcame.holding, ← hcame.touches.closed] at hC
    obtain ⟨t, hrest, hcame'⟩ := (hf a).may hready' hC
    exact ⟨t, runs_bind.mpr ⟨a, u, hrun, hrest⟩, hcame.trans hcame'⟩
  does := by
    intro w t b hready hruns
    obtain ⟨a, u, hrun, hrest⟩ := runs_bind.mp hruns
    obtain ⟨first, mid, hB, hcame⟩ := hp.does hready hrun
    obtain ⟨later, after, hC, hcame'⟩ := (hf a).does (hcame.touches.ready hready) hrest
    rw [hcame.holding, hcame.touches.closed] at hC
    exact ⟨first ++ later, after, ⟨a, first, mid, later, hB, hC, rfl⟩, hcame.trans hcame'⟩

/-- Something is made of the answer of the program, and nothing else done. -/
theorem Behaves.map (h : p.Behaves name B) (f : α → β) :
    (p >>= fun a => (pure (f a) : Detection β)).Behaves name
      fun held closed b log after => ∃ a, b = f a ∧ B held closed a log after := by
  refine (h.bind fun a => behaves_pure (f a)).congr fun held closed b log after => ?_
  constructor
  · rintro ⟨a, first, mid, later, hB, ⟨rfl, rfl, rfl⟩, rfl⟩
    rw [List.append_nil]
    exact ⟨a, rfl, hB⟩
  · rintro ⟨a, rfl, hB⟩
    exact ⟨a, log, after, [], hB, ⟨rfl, rfl, rfl⟩, (List.append_nil _).symm⟩

/-- A question to the outside comes first, and so it is what is heard first. -/
theorem behaves_askOutside_bind {e : OutsideCall α} {f : α → Detection β} {C : Behaviour β}
    (hf : ∀ a, (f a).Behaves name fun held closed b later after =>
      C held closed b (.of e a :: later) after)
    (hheard : ∀ {held closed b log after}, C held closed b log after →
      ∃ a later, log = .of e a :: later) : (Detector.askOutside e >>= f).Behaves name C := by
  refine ((behaves_askOutside e).bind hf).congr fun held closed b log after => ?_
  constructor
  · rintro ⟨a, _, _, later, ⟨rfl, rfl⟩, hC, rfl⟩
    exact hC
  · intro hC
    obtain ⟨a, later, rfl⟩ := hheard hC
    exact ⟨a, _, _, later, ⟨rfl, rfl⟩, hC, rfl⟩

/-- A program that settles wherever the task is ready, and touches no other. -/
theorem behaves_of_settled (effect : Holding → Bool → α × Holding)
    (h : ∀ plane : Plane, plane.Ready [name] → ∃ q : Plane,
      p.settled plane = some ((effect (plane.holding name) plane.queue.closed).1, q) ∧
      q.holding name = (effect (plane.holding name) plane.queue.closed).2 ∧
      plane.Touches [name] q) : p.Behaves name
        fun held closed a log after => log = [] ∧ (a, after) = effect held closed where
  served := by
    intro w hready
    obtain ⟨q, hsettled, -, -⟩ := h w.plane hready
    exact guarded_of_settled watching_hosts (fun hserved => hserved) hsettled
  may := by
    rintro w a _ after hready ⟨rfl, heq⟩
    obtain ⟨q, hsettled, hholding, htouches⟩ := h w.plane hready
    rw [← heq] at hsettled hholding
    exact ⟨_, (runs_of_settled watching_hosts hsettled).mpr ⟨rfl, rfl⟩, (List.append_nil _).symm,
      hholding, htouches⟩
  does := by
    intro w t a hready hrun
    obtain ⟨q, hsettled, hholding, htouches⟩ := h w.plane hready
    obtain ⟨rfl, rfl⟩ := (runs_of_settled watching_hosts hsettled).mp hrun
    exact ⟨[], _, ⟨rfl, rfl⟩, (List.append_nil _).symm, hholding, htouches⟩

end Program

namespace Detector

open Program

variable {spec : TaskSpec} {name : String}

/-! ## The calls of the plane -/

theorem behaves_setStatus (status : TaskStatus) :
    (ask (.updateRegistry (·.setStatus name status))).Behaves name
      fun held _ _ log after => log = [] ∧ after = held.noted status := by
  refine (behaves_of_settled (fun held _ => ((), held.noted status)) fun p hready =>
    ⟨{ p with registry := p.registry.setStatus name status }, settled_ask ?_, ?_, ?_⟩).congr ?_
  · simp only [Plane.serve, Plane.whenFree]
    rw [hready.free, if_neg Bool.false_ne_true]
  · have hentry : (p.registry.setStatus name status).get? name
        = (p.registry.get? name).map ({ · with status }) := by
      rw [Registry.setStatus, Dict.get?_modify, if_pos rfl]
    simp only [Plane.holding, Holding.noted, hentry]
  · refine Plane.touches_of_queue_eq rfl rfl (fun other hother => ?_) (fun _ _ => rfl) rfl
    show (Dict.modify _ _ _).get? other = _
    rw [Dict.get?_modify, if_neg (List.mem_singleton.not.mp hother)]
  · intro held closed a log after
    constructor
    · rintro ⟨rfl, h⟩
      exact ⟨rfl, congrArg Prod.snd h⟩
    · rintro ⟨rfl, rfl⟩
      exact ⟨rfl, rfl⟩

/-- A record is put in front of the history of its task. -/
theorem behaves_appendHistory (record : RecoveryRecord) :
    (ask (.appendHistory name record historyLimit)).Behaves name
      fun held _ a log after => log = [] ∧ a = held.records.map (fun _ => ()) ∧
        after = held.filed record := by
  refine (behaves_of_settled (fun held _ => (held.records.map fun _ => (), held.filed record))
    fun p _ => ?_).congr ?_
  · have hrecords := p.records_holding name
    simp only [Holding.filed]
    rw [hrecords]
    cases hlist : p.store.listHistory name with
    | error cause =>
      have hserve : p.serve (.appendHistory name record historyLimit) = some (.error cause, p) := by
        simp only [Plane.serve]
        rw [Store.appendHistory_eq, hlist]
        rfl
      exact ⟨p, settled_ask hserve, rfl, .refl _ _⟩
    | ok earlier =>
      let text := (Store.historyCodec.write ((record :: earlier).take historyLimit)).compact
      let store : Store := { p.store with history := p.store.history.insert name text }
      have hserve : p.serve (.appendHistory name record historyLimit)
          = some (.ok (), { p with store }) := by
        simp only [Plane.serve]
        rw [Store.appendHistory_eq, hlist]
        rfl
      refine ⟨_, settled_ask hserve, ?_, ?_⟩
      · simp only [Plane.holding]
        rw [Dict.get?_insert_self]
      · refine Plane.touches_of_queue_eq rfl rfl (fun _ _ => rfl) (fun other hother => ?_) rfl
        exact Dict.get?_insert_of_ne _ _ (List.mem_singleton.not.mp hother)
  · intro held closed a log after
    rw [Prod.mk.injEq]

/-! ## The exchange of a spec -/

theorem holding_exchange {p : Plane} {updated : TaskSpec} (hname : updated.name = spec.name) :
    (p.holding spec.name).exchange spec updated p.queue.closed
      = ((p.exchange spec updated).1, (p.exchange spec updated).2.holding spec.name) := by
  obtain ⟨hentry, hwaits⟩ := @Plane.get?_exchanged p spec.name updated hname
  have hmade : (p.exchanged (p.registry.setSpec spec.name updated) updated).holding spec.name
      = { p.holding spec.name with
          entry := (p.registry.get? spec.name).map ({ · with spec := updated })
          waits := some updated } := by
    simp only [Plane.holding]
    rw [hentry, hwaits]
    rfl
  rcases p.exchange_cases spec updated with ⟨hthere, h⟩ | ⟨hthere, ⟨hclosed, h⟩ | ⟨hclosed, h⟩⟩
  · rw [h]
    exact if_neg hthere
  · rw [h]
    exact (if_pos hthere).trans (if_pos hclosed)
  · rw [h, hmade]
    exact (if_pos hthere).trans (if_neg hclosed)

/-- The exchange is decided by the task's entry and by whether the queue takes the spec. -/
theorem behaves_install {updated : TaskSpec} (hname : updated.name = spec.name) :
    (install spec updated).Behaves spec.name fun held closed a log after =>
      log = [] ∧ (a, after) = held.exchange spec updated closed := by
  refine behaves_of_settled (fun held closed => held.exchange spec updated closed) fun p hready =>
    ⟨(p.exchange spec updated).2, ?_, ?_, Plane.touches_exchange hname⟩
  · rw [settled_install hready hname, holding_exchange hname]
  · rw [holding_exchange hname]

end Detector

end ServingPlane
