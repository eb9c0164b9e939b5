import ServingPlane.Proofs.Plane.Agreement

/-! # The turns of one request

    What a request met while it was under way: the answers it heard from
    the outside, and what the plane was before and after each attempt at
    a call.  A program makes such turns and ends with a result; two
    programs in a row make the turns of the first and then those of the
    second.  Whatever others do meanwhile, each attempt is served by the
    plane as it stands, and as long as the request holds the registry it
    finds it as it left it. -/

namespace ServingPlane

/-- One turn of a request. -/
inductive Turn : Type 1 where
  /-- The outside answered a call. -/
  | heard {β : Type} (e : OutsideCall β) (answer : β)
  /-- The plane answered a call, or could not yet. -/
  | asked {β : Type} (e : PlaneCall β) (answer : Option β) (before after : Plane)

namespace Turn

/-- The plane that a call found. -/
def before? : Turn → Option Plane
  | asked _ _ before _ => some before
  | heard .. => none

/-- The plane served the attempt so, and the registry is the one that the
    request holds, if it holds one. -/
def Fits (held : Option Registry) : Turn → Prop
  | heard _ _ => True
  | asked e answer before after =>
    (∀ r, held = some r → before.registry = r) ∧
    ∃ stage : AppendStage, stage.isUnderWay = true ∧
      (before.attempt stage e).answer = answer ∧ (before.attempt stage e).plane = after

/-- The registry that the request holds after a turn, if it holds one. -/
def held (held : Option Registry) : Turn → Option Registry
  | heard _ _ => held
  | asked _ none _ _ => held
  | asked e (some _) _ after => if e.holds held.isSome then some after.registry else none

/-- Each of some turns in a row is as it has to be. -/
def AllFit : Option Registry → List Turn → Prop
  | _, [] => True
  | r, turn :: turns => turn.Fits r ∧ AllFit (turn.held r) turns

theorem allFit_append {r : Option Registry} {first rest : List Turn} :
    AllFit r (first ++ rest) ↔ AllFit r first ∧ AllFit (first.foldl held r) rest := by
  induction first generalizing r with
  | nil => exact ⟨fun h => ⟨trivial, h⟩, fun h => h.2⟩
  | cons turn first ih =>
    show turn.Fits r ∧ AllFit (turn.held r) (first ++ rest) ↔ _
    rw [ih]
    exact and_assoc.symm

end Turn

namespace Program

variable {α β : Type}

/-- A program makes turns, one after the other, and ends with a result.  A
    call may be attempted several times before it is answered. -/
def Makes : Detection α → List Turn → α → Prop
  | .done a, turns, b => turns = [] ∧ b = a
  | .call (.inr e) k, turns, b =>
    ∃ answer rest, turns = .heard e answer :: rest ∧ (k answer).Makes rest b
  | .call (.inl e) k, turns, b =>
    ∃ (stalls : List (Plane × Plane)) (answer : _) (before after : Plane) (rest : List Turn),
      turns = stalls.map (fun s => .asked e none s.1 s.2)
        ++ .asked e (some answer) before after :: rest ∧ (k answer).Makes rest b

theorem makes_bind {p : Detection α} {f : α → Detection β} {turns : List Turn} {b : β} :
    (p >>= f).Makes turns b ↔
      ∃ first rest a, turns = first ++ rest ∧ p.Makes first a ∧ (f a).Makes rest b := by
  show (p.bind f).Makes turns b ↔ _
  induction p generalizing turns with
  | done a =>
    constructor
    · intro h
      exact ⟨[], turns, a, rfl, ⟨rfl, rfl⟩, h⟩
    · rintro ⟨_, rest, _, rfl, ⟨rfl, rfl⟩, h⟩
      exact h
  | call e k ih =>
    cases e with
    | inr e =>
      constructor
      · rintro ⟨answer, rest, rfl, h⟩
        obtain ⟨first, rest, a, rfl, hk, hf⟩ := (ih answer).mp h
        exact ⟨_ :: first, rest, a, rfl, ⟨answer, first, rfl, hk⟩, hf⟩
      · rintro ⟨_, rest, a, rfl, ⟨answer, first, rfl, hk⟩, hf⟩
        exact ⟨answer, first ++ rest, rfl, (ih answer).mpr ⟨first, rest, a, rfl, hk, hf⟩⟩
    | inl e =>
      constructor
      · rintro ⟨stalls, answer, before, after, rest, rfl, h⟩
        obtain ⟨first, rest, a, rfl, hk, hf⟩ := (ih answer).mp h
        refine ⟨_ ++ _ :: first, rest, a, ?_, ⟨stalls, answer, before, after, first, rfl, hk⟩, hf⟩
        rw [List.append_assoc, List.cons_append]
      · rintro ⟨_, rest, a, rfl, ⟨stalls, answer, before, after, first, rfl, hk⟩, hf⟩
        refine ⟨stalls, answer, before, after, first ++ rest, ?_,
          (ih answer).mpr ⟨first, rest, a, rfl, hk, hf⟩⟩
        rw [List.append_assoc, List.cons_append]

/-- What is made of the result of a program takes no further turn. -/
theorem makes_map {p : Detection α} {f : α → β} {turns : List Turn} {b : β} :
    (p >>= fun a => (pure (f a) : Detection β)).Makes turns b ↔
      ∃ a, p.Makes turns a ∧ b = f a := by
  rw [makes_bind]
  constructor
  · rintro ⟨first, _, a, rfl, h, rfl, rfl⟩
    rw [List.append_nil]
    exact ⟨a, h, rfl⟩
  · rintro ⟨a, h, rfl⟩
    exact ⟨turns, [], a, (List.append_nil _).symm, h, rfl, rfl⟩

/-- An attempt in vain may come before. -/
theorem makes_stall {e : PlaneCall β} {k : β → Detection α} {turns : List Turn} {a : α}
    (h : (call (.inl e) k : Detection α).Makes turns a) (before after : Plane) :
    (call (.inl e) k : Detection α).Makes (.asked e none before after :: turns) a := by
  obtain ⟨stalls, answer, p, q, rest, rfl, hk⟩ := h
  exact ⟨(before, after) :: stalls, answer, p, q, rest, rfl, hk⟩

/-- Attempts in vain and the answer that ends them can be told apart. -/
theorem stalls_unique {e : PlaneCall β} {answer answer' : β} {p q p' q' : Plane}
    {stalls stalls' : List (Plane × Plane)} {rest rest' : List Turn}
    (h : stalls.map (fun s => Turn.asked e none s.1 s.2) ++ .asked e (some answer) p q :: rest
      = stalls'.map (fun s => Turn.asked e none s.1 s.2)
        ++ .asked e (some answer') p' q' :: rest') :
    answer = answer' ∧ rest = rest' := by
  induction stalls generalizing stalls' with
  | nil =>
    cases stalls' with
    | nil =>
      cases h
      exact ⟨rfl, rfl⟩
    | cons stall stalls' => cases h
  | cons stall stalls ih =>
    cases stalls' with
    | nil => cases h
    | cons stall' stalls' => exact ih (List.cons.inj h).2

/-- The turns of a program say how it ended. -/
theorem makes_unique {p : Detection α} {turns : List Turn} {a b : α} (ha : p.Makes turns a)
    (hb : p.Makes turns b) : a = b := by
  induction p generalizing turns with
  | done c => exact ha.2.trans hb.2.symm
  | call e k ih =>
    cases e with
    | inr e =>
      obtain ⟨answer, rest, rfl, ha⟩ := ha
      obtain ⟨answer', rest', hturns, hb⟩ := hb
      cases hturns
      exact ih answer ha hb
    | inl e =>
      obtain ⟨stalls, answer, p, q, rest, rfl, ha⟩ := ha
      obtain ⟨stalls', answer', p', q', rest', hturns, hb⟩ := hb
      obtain ⟨rfl, rfl⟩ := stalls_unique hturns
      exact ih answer ha hb

end Program

/-! ## What calls leave alone -/

/-- Registry, queue and store are the same.  Locks are not looked at, nor
    who waits for a slot of the queue. -/
structure Plane.Alike (p q : Plane) : Prop where
  registry : q.registry = p.registry
  pending : q.queue.pending = p.queue.pending
  channel : q.queue.channel = p.queue.channel
  store : q.store = p.store

namespace Plane

variable {p : Plane} {stage : AppendStage} {β : Type} {e : PlaneCall β}

theorem Alike.refl (p : Plane) : p.Alike p := ⟨rfl, rfl, rfl, rfl⟩

/-- An append that is not accepted leaves no trace among what is queued. -/
theorem alike_of_append {spec : TaskSpec} {after : AppendStage} {q : TaskQueue}
    (h : p.queue.AppendStep spec stage after q) (hafter : after ≠ .ended .accepted) :
    p.Alike { p with queue := q } := by
  cases h with
  | replaced => exact absurd rfl hafter
  | recorded => exact absurd rfl hafter
  | _ => exact ⟨rfl, rfl, rfl, rfl⟩

/-- A call that has to wait changes nothing. -/
theorem alike_of_unserved (he : e.isAppend = false) (h : (p.attempt stage e).answer = none) :
    p.Alike (p.attempt stage e).plane := by
  cases hserve : p.serve e with
  | none =>
    rw [attempt_of_serve_eq_none he hserve]
    exact .refl p
  | some served =>
    obtain ⟨answer, plane⟩ := served
    rw [attempt_of_serve_eq_some he hserve] at h
    cases h

/-- An attempt without an answer changes nothing. -/
theorem alike_of_unanswered (h : (p.attempt stage e).answer = none) :
    p.Alike (p.attempt stage e).plane := by
  cases e with
  | enqueue spec =>
    refine alike_of_append (p.queue.advance_step spec stage) fun hafter => ?_
    simp only [attempt] at h
    rw [hafter] at h
    cases h
  | _ => exact alike_of_unserved rfl h

/-- While the registry is locked, a program with nothing in hand leaves it alone. -/
theorem registry_attempt_of_locked {admits : String → Prop} (hallowed : e.Allowed admits .free)
    (hlocked : p.locked = true) : (p.attempt stage e).plane.registry = p.registry := by
  have hwaits : ∀ {e : PlaneCall β} {next : β × Plane}, e.isAppend = false →
      p.serve e = p.whenFree next → (p.attempt stage e).plane.registry = p.registry := by
    intro e next he hserve
    simp only [whenFree] at hserve
    rw [if_pos hlocked] at hserve
    rw [attempt_of_serve_eq_none he hserve]
  cases e with
  | readRegistry => exact hwaits rfl rfl
  | updateRegistry change => exact hwaits rfl rfl
  | lockRegistry => exact hwaits rfl rfl
  | unlockRegistry contents => cases hallowed
  | enqueue spec => rfl
  | queuedCount => rfl
  | appendHistory task record limit =>
    obtain ⟨answer, store, hserve, -⟩ := p.serve_appendHistory task record limit
    rw [attempt_of_serve_eq_some rfl hserve]
  | listHistory task => rfl

end Plane

namespace Schedule

variable {d : Detector} {s : Schedule} {i : Nat} {a : Activity} {actions : List Action}

/-- Whether an action starts or ends the request under an index. -/
def Action.replaces (i : Nat) : Action → Bool
  | .begin j _ => j = i
  | .abandon j => j = i
  | _ => false

/-- Whether an action lets the request under an index go on. -/
def Action.advances (i : Nat) : Action → Bool
  | .advance j _ => j = i
  | _ => false

/-- The turn that a request makes next, if its program makes one. -/
def turn? (s : Schedule) (i : Nat) (outside : ∀ {β : Type}, OutsideCall β → β) : Option Turn :=
  match s.activities i with
  | none => none
  | some a =>
    match a.program with
    | .done _ => none
    | .call (.inr e) _ => some (.heard e (outside e))
    | .call (.inl e) _ =>
      let served := s.plane.attempt a.stage e
      some (.asked e served.answer s.plane served.plane)

/-- The turn that a request makes by an action, if it makes one. -/
def turnBy (s : Schedule) (i : Nat) : Action → Option Turn
  | .advance j outside => if j = i then s.turn? i outside else none
  | _ => none

/-- The turns that a request makes in a run. -/
def turns (d : Detector) (i : Nat) : Schedule → List Action → List Turn
  | _, [] => []
  | s, action :: actions => (s.turnBy i action).toList ++ turns d i (s.step d action) actions

/-! ## What others do meanwhile -/

theorem activities_resume_of_ne {β : Type} {j : Nat} (hj : j ≠ i) (e : PlaneCall β)
    (k : β → Detection Unit) (served : Served β) :
    (s.resume j a e k served).activities i = s.activities i := by
  simp only [resume]
  cases served.answer with
  | none => exact Function.update_of_ne hj.symm ..
  | some b => exact Function.update_of_ne hj.symm ..

theorem activities_advance_of_ne {j : Nat} (hj : j ≠ i)
    (outside : ∀ {β : Type}, OutsideCall β → β) :
    (s.advance j outside).activities i = s.activities i := by
  simp only [advance]
  cases s.activities j with
  | none => rfl
  | some a =>
    dsimp only
    cases a.program with
    | done => exact Function.update_of_ne hj.symm ..
    | call e k =>
      cases e with
      | inl e => exact activities_resume_of_ne hj e k _
      | inr e => exact Function.update_of_ne hj.symm ..

theorem activities_abandon_of_ne {j : Nat} (hj : j ≠ i) :
    (s.abandon j).activities i = s.activities i := by
  simp only [abandon]
  cases s.activities j with
  | none => rfl
  | some a =>
    dsimp only
    cases a.awaits with
    | false => rfl
    | true => exact Function.update_of_ne hj.symm ..

theorem step_take (s : Schedule) (d : Detector) (waits : Bool) :
    ∃ consumer, s.step d (.take waits) = { s with consumer } := by
  simp only [step]
  cases s.consumer with
  | idle =>
    dsimp only
    by_cases hclosed : s.plane.queue.closed = true
    · rw [if_pos hclosed]
      exact ⟨s.consumer, rfl⟩
    · rw [if_neg hclosed]
      exact ⟨_, rfl⟩
  | _ => exact ⟨s.consumer, rfl⟩

/-- Only its own actions touch a request. -/
theorem activities_step (d : Detector) {action : Action} (hreplaces : action.replaces i = false)
    (hadvances : action.advances i = false) :
    (s.step d action).activities i = s.activities i := by
  cases action with
  | begin j request =>
    have hj : j ≠ i := of_decide_eq_false hreplaces
    simp only [step]
    cases s.activities j with
    | none => exact Function.update_of_ne hj.symm ..
    | some b => rfl
  | advance j outside => exact activities_advance_of_ne (of_decide_eq_false hadvances) outside
  | abandon j => exact activities_abandon_of_ne (of_decide_eq_false hreplaces)
  | take waits =>
    obtain ⟨consumer, hstep⟩ := s.step_take d waits
    rw [hstep]
  | _ => rfl

/-- While a request holds the registry, a step of another leaves it alone. -/
theorem Sound.registry_advance (h : s.Sound) (hi : s.activities i = some a)
    (hholds : a.holds = true) {j : Nat} (hj : j ≠ i)
    (outside : ∀ {β : Type}, OutsideCall β → β) :
    (s.advance j outside).plane.registry = s.plane.registry := by
  obtain ⟨hlocked, halone⟩ := h.locked i a hi hholds
  simp only [Schedule.advance]
  cases hb : s.activities j with
  | none => rfl
  | some b =>
    -- the other has nothing in hand, so it may not release what it does not hold
    obtain ⟨-, c, horderly, hfits⟩ := h.orderly j b hb
    rw [halone j b hj hb] at hfits
    obtain rfl := hfits.eq_free
    dsimp only
    cases hprogram : b.program with
    | done => rfl
    | call e k =>
      cases e with
      | inr e => rfl
      | inl e =>
        rw [hprogram] at horderly
        dsimp only
        rw [plane_resume]
        exact Plane.registry_attempt_of_locked horderly.1 hlocked

/-- While a request holds the registry, nobody else changes it. -/
theorem Sound.registry_step (h : s.Sound) (d : Detector) (hi : s.activities i = some a)
    (hholds : a.holds = true) {action : Action} (hadvances : action.advances i = false) :
    (s.step d action).plane.registry = s.plane.registry := by
  cases action with
  | begin j request =>
    simp only [Schedule.step]
    cases s.activities j with
    | none => rfl
    | some b => rfl
  | advance j outside => exact h.registry_advance hi hholds (of_decide_eq_false hadvances) outside
  | abandon j => exact registry_abandon s j
  | take waits =>
    obtain ⟨consumer, hstep⟩ := s.step_take d waits
    rw [hstep]
  | _ => rfl

/-! ## The steps of a request -/

section Steps

variable {β : Type} (outside : ∀ {β : Type}, OutsideCall β → β)

theorem advance_of_none (hi : s.activities i = none) : s.advance i outside = s := by
  simp only [advance]
  rw [hi]

/-- A program that has ended makes no turn; its request is over. -/
theorem advance_of_done (hi : s.activities i = some a) (hprogram : a.program = .done ()) :
    s.turn? i outside = none ∧ s.advance i outside = s.put i none := by
  simp only [turn?, advance]
  rw [hi]
  dsimp only
  rw [hprogram]
  exact ⟨rfl, rfl⟩

/-- A program hears an answer from the outside. -/
theorem advance_of_hear (hi : s.activities i = some a) {e : OutsideCall β} {k : β → Detection Unit}
    (hprogram : a.program = .call (.inr e) k) :
    s.turn? i outside = some (.heard e (outside e)) ∧
    s.advance i outside
      = s.put i (some { a with program := k (outside e), stage := .arrived }) := by
  simp only [turn?, advance]
  rw [hi]
  dsimp only
  rw [hprogram]
  exact ⟨rfl, rfl⟩

/-- A program asks the plane. -/
theorem advance_of_ask (hi : s.activities i = some a) {e : PlaneCall β} {k : β → Detection Unit}
    (hprogram : a.program = .call (.inl e) k) :
    s.turn? i outside = some (.asked e (s.plane.attempt a.stage e).answer s.plane
      (s.plane.attempt a.stage e).plane) ∧
    s.advance i outside = s.resume i a e k (s.plane.attempt a.stage e) := by
  simp only [turn?, advance]
  rw [hi]
  dsimp only
  rw [hprogram]
  exact ⟨rfl, rfl⟩

/-- An action lets a request go on, or it does not. -/
theorem Action.advances_cases (i : Nat) (action : Action) : action.advances i = false ∨
    ∃ outside : ∀ {β : Type}, OutsideCall β → β, action = .advance i outside := by
  cases action with
  | advance j outside =>
    by_cases hj : j = i
    · subst hj
      exact .inr ⟨outside, rfl⟩
    · exact .inl (decide_eq_false hj)
  | _ => exact .inl rfl

theorem turns_advance (actions : List Action) :
    s.turns d i (.advance i outside :: actions)
      = (s.turn? i outside).toList ++ (s.advance i outside).turns d i actions := by
  have hturn : s.turnBy i (.advance i outside) = s.turn? i outside := if_pos rfl
  simp only [turns]
  rw [hturn]
  rfl

theorem turns_other {action : Action} (h : action.advances i = false) (actions : List Action) :
    s.turns d i (action :: actions) = (s.step d action).turns d i actions := by
  have hturn : s.turnBy i action = none := by
    cases action with
    | advance j outside => exact if_neg (of_decide_eq_false h)
    | _ => rfl
  simp only [turns]
  rw [hturn]
  rfl

end Steps

/-- A request that is over makes no turns. -/
theorem turns_of_over (hi : s.activities i = none)
    (hown : ∀ action ∈ actions, action.replaces i = false) : s.turns d i actions = [] := by
  induction actions generalizing s with
  | nil => rfl
  | cons action actions ih =>
    have hlater : ∀ action ∈ actions, action.replaces i = false :=
      fun action haction => hown action (List.mem_cons_of_mem _ haction)
    rcases action.advances_cases i with hother | ⟨outside, rfl⟩
    · rw [turns_other hother]
      exact ih ((activities_step d (hown action List.mem_cons_self) hother).trans hi) hlater
    · have hturn : s.turn? i outside = none := by
        simp only [turn?]
        rw [hi]
      rw [turns_advance, hturn, advance_of_none outside hi]
      exact ih hi hlater

/-! ## The turns fit the plane -/

/-- A request is under way, and holds a registry or none. -/
def Holds (s : Schedule) (i : Nat) (r : Option Registry) : Prop :=
  ∃ a, s.activities i = some a ∧ a.holds = r.isSome ∧
    ∀ contents, r = some contents → s.plane.registry = contents

/-- Others leave to a request what it holds. -/
theorem Sound.holds_step {r : Option Registry} (h : s.Sound) (d : Detector) (hr : s.Holds i r)
    {action : Action} (hreplaces : action.replaces i = false)
    (hadvances : action.advances i = false) : (s.step d action).Holds i r := by
  obtain ⟨a, hi, hholds, hregistry⟩ := hr
  refine ⟨a, (activities_step d hreplaces hadvances).trans hi, hholds, fun contents hcontents => ?_⟩
  subst hcontents
  rw [h.registry_step d hi hholds hadvances]
  exact hregistry contents rfl

/-- After a call a request holds what its turn says. -/
theorem holds_resume {r : Option Registry} {β : Type} {stage : AppendStage} (e : PlaneCall β)
    (k : β → Detection Unit) (hholds : a.holds = r.isSome)
    (hregistry : ∀ contents, r = some contents → s.plane.registry = contents) :
    (s.resume i a e k (s.plane.attempt stage e)).Holds i
      (Turn.held r (.asked e (s.plane.attempt stage e).answer s.plane
        (s.plane.attempt stage e).plane)) := by
  cases hanswer : (s.plane.attempt stage e).answer with
  | none =>
    refine ⟨{ a with stage := (s.plane.attempt stage e).stage }, ?_, hholds, ?_⟩
    · simp only [resume]
      rw [hanswer]
      exact Function.update_self ..
    · intro contents hcontents
      rw [plane_resume, (Plane.alike_of_unanswered hanswer).registry]
      exact hregistry contents hcontents
  | some b =>
    refine ⟨{ a with program := k b, holds := e.holds a.holds, stage := .arrived }, ?_, ?_, ?_⟩
    · simp only [resume]
      rw [hanswer]
      exact Function.update_self ..
    · show e.holds a.holds = _
      rw [hholds]
      simp only [Turn.held]
      cases e.holds r.isSome with
      | _ => rfl
    · intro contents hcontents
      rw [plane_resume]
      simp only [Turn.held] at hcontents
      cases hlast : e.holds r.isSome with
      | true =>
        rw [hlast] at hcontents
        exact Option.some.inj hcontents
      | false =>
        rw [hlast] at hcontents
        cases hcontents

/-- A step of a request ends it, or is a turn that fits. -/
theorem Sound.holds_advance {r : Option Registry} (h : s.Sound) (hr : s.Holds i r)
    (outside : ∀ {β : Type}, OutsideCall β → β) :
    (s.turn? i outside = none ∧ (s.advance i outside).activities i = none) ∨
    ∃ turn, s.turn? i outside = some turn ∧ turn.Fits r ∧
      (s.advance i outside).Holds i (turn.held r) := by
  obtain ⟨a, hi, hholds, hregistry⟩ := hr
  cases hprogram : a.program with
  | done =>
    obtain ⟨hturn, hnext⟩ := advance_of_done outside hi hprogram
    rw [hnext]
    exact .inl ⟨hturn, Function.update_self ..⟩
  | call e k =>
    cases e with
    | inr e =>
      obtain ⟨hturn, hnext⟩ := advance_of_hear outside hi hprogram
      rw [hnext]
      exact .inr ⟨_, hturn, trivial, _, Function.update_self .., hholds, hregistry⟩
    | inl e =>
      obtain ⟨hturn, hnext⟩ := advance_of_ask outside hi hprogram
      rw [hnext]
      have hstage := (h.orderly i a hi).1
      refine .inr ⟨_, hturn, ⟨hregistry, a.stage, hstage, rfl, rfl⟩, ?_⟩
      exact holds_resume e k hholds hregistry

/-- In any run, whatever others do, the turns of a request fit the plane. -/
theorem Sound.allFit_turns {r : Option Registry} (h : s.Sound) (d : Detector) (hr : s.Holds i r)
    (hown : ∀ action ∈ actions, action.replaces i = false) :
    Turn.AllFit r (s.turns d i actions) := by
  -- along the run, what the request holds changes by its own turns only
  induction actions generalizing s r with
  | nil => trivial
  | cons action actions ih =>
    have hlater : ∀ action ∈ actions, action.replaces i = false :=
      fun action haction => hown action (List.mem_cons_of_mem _ haction)
    rcases action.advances_cases i with hother | ⟨outside, rfl⟩
    · rw [turns_other hother]
      exact ih (h.step d action) (h.holds_step d hr (hown action List.mem_cons_self) hother) hlater
    · rw [turns_advance]
      rcases h.holds_advance hr outside with ⟨hturn, hover⟩ | ⟨turn, hturn, hfits, hnext⟩
      · rw [hturn, turns_of_over hover hlater]
        trivial
      · rw [hturn]
        exact ⟨hfits, ih (h.step d (.advance i outside)) hnext hlater⟩

/-! ## The turns lead to a result -/

/-- A program, whose result nobody waits for, is what is left of a request. -/
def Leaves {α : Type} (s : Schedule) (i : Nat) (p : Detection α) : Prop :=
  ∃ a, s.activities i = some a ∧ a.program = p >>= fun _ => pure ()

/-- A request that arrives leaves the whole of its program to do. -/
theorem leaves_begin {α : Type} {p : Detection α} {request : Request}
    (hfree : s.activities i = none) (hprogram : request.program d = p >>= fun _ => pure ()) :
    (s.step d (.begin i request)).Leaves i p := by
  simp only [step]
  rw [hfree]
  exact ⟨_, Function.update_self .., hprogram⟩

theorem leaves_deploy (spec : TaskSpec) (hfree : s.activities i = none) :
    (s.step d (.begin i (.deploy spec))).Leaves i (d.deploy spec) := leaves_begin hfree rfl

theorem leaves_recover (spec : TaskSpec) (hfree : s.activities i = none) :
    (s.step d (.begin i (.recover spec))).Leaves i (d.recover spec) := leaves_begin hfree rfl

/-- A step of a request ends it if its program has ended, and makes a turn
    of its program if not. -/
theorem leaves_advance {α : Type} {p : Detection α} (h : s.Leaves i p)
    (outside : ∀ {β : Type}, OutsideCall β → β) :
    ((∃ result, p = .done result) ∧ s.turn? i outside = none ∧
      (s.advance i outside).activities i = none) ∨
    ∃ turn q, s.turn? i outside = some turn ∧ (s.advance i outside).Leaves i q ∧
      ∀ turns result, q.Makes turns result → p.Makes (turn :: turns) result := by
  obtain ⟨a, hi, hprogram⟩ := h
  cases p with
  | done result =>
    obtain ⟨hturn, hnext⟩ := advance_of_done outside hi hprogram
    rw [hnext]
    exact .inl ⟨⟨result, rfl⟩, hturn, Function.update_self ..⟩
  | call e k =>
    cases e with
    | inr e =>
      obtain ⟨hturn, hnext⟩ := advance_of_hear outside hi hprogram
      rw [hnext]
      refine .inr ⟨_, k (outside e), hturn, ⟨_, Function.update_self .., rfl⟩, ?_⟩
      intro turns result hresult
      exact ⟨outside e, turns, rfl, hresult⟩
    | inl e =>
      obtain ⟨hturn, hnext⟩ := advance_of_ask outside hi hprogram
      rw [hnext]
      simp only [resume]
      cases hanswer : (s.plane.attempt a.stage e).answer with
      | none =>
        rw [hanswer] at hturn
        refine .inr ⟨_, .call (.inl e) k, hturn, ⟨_, Function.update_self .., hprogram⟩, ?_⟩
        intro turns result hresult
        exact Program.makes_stall hresult _ _
      | some b =>
        rw [hanswer] at hturn
        refine .inr ⟨_, k b, hturn, ⟨_, Function.update_self .., rfl⟩, ?_⟩
        intro turns result hresult
        exact ⟨[], b, _, _, turns, rfl, hresult⟩

/-- Once a request is over, its program has made the turns of the request,
    and ended with a result. -/
theorem makes_turns {α : Type} {p : Detection α} (h : s.Leaves i p)
    (hown : ∀ action ∈ actions, action.replaces i = false)
    (hover : (actions.foldl (step d) s).activities i = none) :
    ∃ result, p.Makes (s.turns d i actions) result := by
  -- along the run, less and less of the program is left
  induction actions generalizing s p with
  | nil =>
    obtain ⟨a, hi, -⟩ := h
    rw [show s.activities i = none from hover] at hi
    cases hi
  | cons action actions ih =>
    have hlater : ∀ action ∈ actions, action.replaces i = false :=
      fun action haction => hown action (List.mem_cons_of_mem _ haction)
    rcases action.advances_cases i with hother | ⟨outside, rfl⟩
    · obtain ⟨a, hi, hprogram⟩ := h
      have hkept : (s.step d action).activities i = s.activities i :=
        activities_step d (hown action List.mem_cons_self) hother
      rw [turns_other hother]
      exact ih ⟨a, hkept.trans hi, hprogram⟩ hlater hover
    · rw [turns_advance]
      rcases leaves_advance h outside with
        ⟨⟨result, rfl⟩, hturn, hgone⟩ | ⟨turn, q, hturn, hnext, hmakes⟩
      · rw [hturn, turns_of_over hgone hlater]
        exact ⟨result, rfl, rfl⟩
      · obtain ⟨result, hresult⟩ := ih hnext hlater hover
        rw [hturn]
        exact ⟨result, hmakes _ _ hresult⟩

end Schedule

end ServingPlane
