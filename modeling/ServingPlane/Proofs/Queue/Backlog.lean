import Mathlib.Data.List.Induction
import ServingPlane.Proofs.Queue.Steps

/-! # The queue as an insertion-ordered map

    What a queue should do, told without channel, slots and tickets: a
    list of tasks with their specs, in which an append replaces the spec of
    a task that is there and otherwise adds the task at the back, and a
    take removes the front.  From a trace of appends that took effect and
    of takes that this list allows, it follows what becomes of each append
    and what each take is given. -/

namespace ServingPlane

/-- What is seen of a queue. -/
inductive QueueEvent where
  | called (call : Nat) (spec : TaskSpec)
  /-- An append took effect. -/
  | effective (call : Nat) (spec : TaskSpec)
  | returned (call : Nat) (result : AppendResult)
  | delivered (spec : TaskSpec)
  /-- A take that does not wait found nothing. -/
  | nothingYet
  /-- A take that waits was told that nothing more comes. -/
  | drained
  | senderAdded
  | senderGone
  deriving DecidableEq

namespace QueueEvent

/-- What a take gets, as an event. -/
def ofPop : PopResult → QueueEvent
  | .spec s => delivered s
  | .nothingYet => nothingYet
  | .drained => drained

/-- The task whose place in the queue changes. -/
def task : QueueEvent → Option String
  | effective _ spec => some spec.name
  | delivered spec => some spec.name
  | _ => none

/-- Whether an event belongs to an append. -/
def ofCall (call : Nat) : QueueEvent → Bool
  | called i _ => i = call
  | effective i _ => i = call
  | returned i _ => i = call
  | _ => false

/-- Number of senders after one more event. -/
def senders (n : Nat) : QueueEvent → Nat
  | senderAdded => n + 1
  | senderGone => n - 1
  | _ => n

end QueueEvent

/-- Tasks with their specs, the front first. -/
abbrev Backlog := List (String × TaskSpec)

namespace Backlog

/-- Replace the spec of a task in its place, or add the task at the back. -/
def append (b : Backlog) (spec : TaskSpec) : Backlog :=
  if b.any (·.1 = spec.name) then b.map fun e => if e.1 = spec.name then (e.1, spec) else e
  else b ++ [(spec.name, spec)]

/-- The backlog after an event, unless it does not allow the event. -/
def observe (b : Backlog) : QueueEvent → Option Backlog
  | .effective _ spec => some (b.append spec)
  | .delivered spec =>
    match b with
    | [] => none
    | (_, front) :: rest => if front = spec then some rest else none
  | .nothingYet => if b = [] then some b else none
  | .drained => if b = [] then some b else none
  | _ => some b

/-- The backlog after a trace, unless it does not allow the trace. -/
def replay (trace : List QueueEvent) : Option Backlog := trace.foldlM observe []

theorem replay_append (trace later : List QueueEvent) :
    replay (trace ++ later) = (replay trace).bind fun b => later.foldlM observe b :=
  List.foldlM_append

theorem replay_concat (trace : List QueueEvent) (event : QueueEvent) :
    replay (trace ++ [event]) = (replay trace).bind fun b => b.observe event := by
  rw [replay_append]
  refine congrArg _ (funext fun b => ?_)
  rw [List.foldlM_cons]
  exact bind_pure _

/-- A backlog names each task once, by the name of its spec. -/
structure Proper (b : Backlog) : Prop where
  distinct : (b.map Prod.fst).Nodup
  named : ∀ e ∈ b, e.1 = e.2.name

theorem mem_append {b : Backlog} {spec : TaskSpec} {e : String × TaskSpec} :
    e ∈ b.append spec ↔ e = (spec.name, spec) ∨ e ∈ b ∧ e.1 ≠ spec.name := by
  simp only [append]
  by_cases hany : b.any (·.1 = spec.name) = true
  · rw [if_pos hany, List.mem_map]
    constructor
    · rintro ⟨old, hold, rfl⟩
      by_cases hname : old.1 = spec.name
      · rw [if_pos hname, hname]
        exact .inl rfl
      · rw [if_neg hname]
        exact .inr ⟨hold, hname⟩
    · rintro (rfl | ⟨hold, hname⟩)
      · obtain ⟨old, hold, hname⟩ := List.any_eq_true.mp hany
        have hname : old.1 = spec.name := of_decide_eq_true hname
        exact ⟨old, hold, by rw [if_pos hname, hname]⟩
      · exact ⟨e, hold, if_neg hname⟩
  · rw [if_neg hany, List.mem_append, List.mem_singleton]
    have hnone : e ∈ b → e.1 ≠ spec.name := fun hold hname =>
      hany (List.any_eq_true.mpr ⟨e, hold, decide_eq_true hname⟩)
    constructor
    · rintro (hold | rfl)
      · exact .inr ⟨hold, hnone hold⟩
      · exact .inl rfl
    · rintro (rfl | ⟨hold, -⟩)
      · exact .inr rfl
      · exact .inl hold

theorem Proper.append {b : Backlog} (h : b.Proper) (spec : TaskSpec) : (b.append spec).Proper where
  distinct := by
    simp only [Backlog.append]
    by_cases hany : b.any (·.1 = spec.name) = true
    · rw [if_pos hany, List.map_map]
      have hsame : (Prod.fst ∘ fun e : String × TaskSpec =>
          if e.1 = spec.name then (e.1, spec) else e) = Prod.fst := by
        funext e
        show (if e.1 = spec.name then (e.1, spec) else e).1 = e.1
        by_cases hname : e.1 = spec.name
        · rw [if_pos hname]
        · rw [if_neg hname]
      rw [hsame]
      exact h.distinct
    · rw [if_neg hany, List.map_append]
      refine h.distinct.append (List.nodup_singleton _) fun name hold hlast => hany ?_
      obtain ⟨e, he, rfl⟩ := List.mem_map.mp hold
      exact List.any_eq_true.mpr ⟨e, he, decide_eq_true (List.mem_singleton.mp hlast)⟩
  named := by
    intro e he
    rcases mem_append.mp he with rfl | ⟨hold, -⟩
    · rfl
    · exact h.named e hold

/-- A delivery takes the front. -/
theorem observe_delivered {b b' : Backlog} {spec : TaskSpec}
    (h : b.observe (.delivered spec) = some b') : ∃ name, b = (name, spec) :: b' := by
  cases b with
  | nil => exact nomatch h
  | cons front rest =>
    obtain ⟨name, front⟩ := front
    replace h : (if front = spec then some rest else none) = some b' := h
    by_cases hfront : front = spec
    · rw [if_pos hfront] at h
      cases h
      exact ⟨name, by rw [hfront]⟩
    · rw [if_neg hfront] at h
      exact nomatch h

/-- An event that is neither an append nor a delivery leaves the backlog. -/
theorem observe_of_task_eq_none {b b' : Backlog} {event : QueueEvent} (hevent : event.task = none)
    (h : b.observe event = some b') : b' = b := by
  have hempty : ∀ {c : Backlog}, (if c = [] then some c else none) = some b' → b' = c := by
    intro c hc
    by_cases hnil : c = []
    · rw [if_pos hnil] at hc
      exact (Option.some.inj hc).symm
    · rw [if_neg hnil] at hc
      exact nomatch hc
  cases event with
  | called => exact (Option.some.inj h).symm
  | effective => exact nomatch hevent
  | returned => exact (Option.some.inj h).symm
  | delivered => exact nomatch hevent
  | nothingYet => exact hempty h
  | drained => exact hempty h
  | senderAdded => exact (Option.some.inj h).symm
  | senderGone => exact (Option.some.inj h).symm

theorem observe_proper {b b' : Backlog} {event : QueueEvent} (h : b.Proper)
    (hevent : b.observe event = some b') : b'.Proper := by
  cases htask : event.task with
  | none => exact observe_of_task_eq_none htask hevent ▸ h
  | some task =>
    cases event with
    | effective call spec =>
      cases hevent
      exact h.append spec
    | delivered spec =>
      obtain ⟨name, rfl⟩ := observe_delivered hevent
      exact ⟨(List.nodup_cons.mp h.distinct).2, fun e he => h.named e (List.mem_cons_of_mem _ he)⟩
    | _ => exact nomatch htask

theorem replay_proper {trace : List QueueEvent} {b : Backlog} (h : replay trace = some b) :
    b.Proper := by
  induction trace using List.reverseRecOn generalizing b with
  | nil =>
    cases h
    exact ⟨List.nodup_nil, fun e he => absurd he List.not_mem_nil⟩
  | append_singleton trace event ih =>
    rw [replay_concat] at h
    obtain ⟨b₀, hb₀, hevent⟩ := Option.bind_eq_some_iff.mp h
    exact observe_proper (ih hb₀) hevent

/-! ## What becomes of appends and what takes are given -/

/-- What waits is what the last effective append of its task carried. -/
theorem newest {trace : List QueueEvent} {b : Backlog} (h : replay trace = some b)
    {e : String × TaskSpec} (he : e ∈ b) :
    ∃ earlier call later, trace = earlier ++ .effective call e.2 :: later ∧
      ∀ event ∈ later, event.task ≠ some e.1 := by
  -- from the back: the last event either carried the entry or left it alone
  induction trace using List.reverseRecOn generalizing b with
  | nil =>
    cases h
    exact absurd he List.not_mem_nil
  | append_singleton trace event ih =>
    rw [replay_concat] at h
    obtain ⟨b₀, hb₀, hevent⟩ := Option.bind_eq_some_iff.mp h
    -- an entry that was there before, and that the event does not touch
    have hkeep : e ∈ b₀ → event.task ≠ some e.1 → ∃ earlier call later,
        trace ++ [event] = earlier ++ .effective call e.2 :: later ∧
        ∀ event ∈ later, event.task ≠ some e.1 := by
      intro hold htask
      obtain ⟨earlier, call, later, rfl, hlater⟩ := ih hb₀ hold
      refine ⟨earlier, call, later ++ [event], by rw [List.append_assoc]; rfl, fun x hx => ?_⟩
      rcases List.mem_append.mp hx with hx | hx
      · exact hlater x hx
      · exact List.mem_singleton.mp hx ▸ htask
    cases htask : event.task with
    | none =>
      rw [observe_of_task_eq_none htask hevent] at he
      exact hkeep he (htask ▸ fun hc => (nomatch hc))
    | some task =>
      cases event with
      | effective call spec =>
        cases hevent
        rcases mem_append.mp he with rfl | ⟨hold, hname⟩
        · exact ⟨trace, call, [], rfl, fun x hx => absurd hx List.not_mem_nil⟩
        · exact hkeep hold fun hc => hname (Option.some.inj hc).symm
      | delivered spec =>
        obtain ⟨name, rfl⟩ := observe_delivered hevent
        -- the delivered task was in front, so it is not the one further back
        refine hkeep (List.mem_cons_of_mem _ he) fun hc => ?_
        have hproper := replay_proper hb₀
        have hname : name = spec.name := hproper.named _ List.mem_cons_self
        refine (List.nodup_cons.mp hproper.distinct).1 (List.mem_map.mpr ⟨e, he, ?_⟩)
        exact (Option.some.inj hc).symm.trans hname.symm
      | _ => exact nomatch htask

/-- A delivered spec is that of the last effective append of its task, and
    the task was not delivered since. -/
theorem newest_of_delivered {before after : List QueueEvent} {spec : TaskSpec} {b : Backlog}
    (h : replay (before ++ .delivered spec :: after) = some b) :
    ∃ earlier call later, before = earlier ++ .effective call spec :: later ∧
      ∀ event ∈ later, event.task ≠ some spec.name := by
  rw [replay_append] at h
  obtain ⟨b₀, hb₀, h⟩ := Option.bind_eq_some_iff.mp h
  rw [List.foldlM_cons] at h
  obtain ⟨b₁, hevent, -⟩ := Option.bind_eq_some_iff.mp h
  obtain ⟨name, rfl⟩ := observe_delivered hevent
  have hname : name = spec.name := (replay_proper hb₀).named _ List.mem_cons_self
  exact hname ▸ newest hb₀ List.mem_cons_self

/-- An effective append is delivered, or replaced by a later one of its
    task, or still waits. -/
theorem fate {before after : List QueueEvent} {call : Nat} {spec : TaskSpec} {b : Backlog}
    (h : replay (before ++ .effective call spec :: after) = some b) :
    (∃ between event rest, after = between ++ event :: rest ∧
      (∀ x ∈ between, x.task ≠ some spec.name) ∧
      (event = .delivered spec ∨
        ∃ later newer, event = .effective later newer ∧ newer.name = spec.name)) ∨
    (∀ x ∈ after, x.task ≠ some spec.name) ∧ (spec.name, spec) ∈ b := by
  -- from the back: once decided, the fate of an append stays what it is
  induction after using List.reverseRecOn generalizing b with
  | nil =>
    rw [replay_concat] at h
    obtain ⟨b₀, hb₀, hevent⟩ := Option.bind_eq_some_iff.mp h
    cases hevent
    exact .inr ⟨fun x hx => absurd hx List.not_mem_nil, mem_append.mpr (.inl rfl)⟩
  | append_singleton after event ih =>
    rw [← List.cons_append, ← List.append_assoc, replay_concat] at h
    obtain ⟨b₀, hb₀, hevent⟩ := Option.bind_eq_some_iff.mp h
    rcases ih hb₀ with ⟨between, first, rest, rfl, hbetween, hfirst⟩ | ⟨hafter, hmem⟩
    · refine .inl ⟨between, first, rest ++ [event], ?_, hbetween, hfirst⟩
      rw [List.append_assoc]
      rfl
    -- the spec waits until now; the event may touch it
    have hkeep : event.task ≠ some spec.name → (spec.name, spec) ∈ b →
        (∀ x ∈ after ++ [event], x.task ≠ some spec.name) ∧ (spec.name, spec) ∈ b := by
      refine fun htask hmem => ⟨fun x hx => ?_, hmem⟩
      rcases List.mem_append.mp hx with hx | hx
      · exact hafter x hx
      · exact List.mem_singleton.mp hx ▸ htask
    cases htask : event.task with
    | none =>
      rw [observe_of_task_eq_none htask hevent] at hkeep ⊢
      exact .inr (hkeep (htask ▸ fun hc => (nomatch hc)) hmem)
    | some task =>
      cases event with
      | effective later newer =>
        cases hevent
        by_cases hname : newer.name = spec.name
        · exact .inl ⟨after, _, [], rfl, hafter, .inr ⟨later, newer, rfl, hname⟩⟩
        · refine .inr (hkeep (fun hc => hname (Option.some.inj hc)) ?_)
          exact mem_append.mpr (.inr ⟨hmem, fun hc => hname hc.symm⟩)
      | delivered given =>
        obtain ⟨name, rfl⟩ := observe_delivered hevent
        rcases List.mem_cons.mp hmem with heq | hmem
        · cases heq
          exact .inl ⟨after, _, [], rfl, hafter, .inl rfl⟩
        -- another task was in front
        · have hproper := replay_proper hb₀
          have hname : name = given.name := hproper.named _ List.mem_cons_self
          refine .inr (hkeep (fun hc => ?_) hmem)
          refine (List.nodup_cons.mp hproper.distinct).1 (List.mem_map.mpr ⟨_, hmem, ?_⟩)
          exact (hname.trans (Option.some.inj hc)).symm
      | _ => exact nomatch htask

/-- A task with an effective append waits until it is delivered. -/
theorem waits_of_undelivered {before after : List QueueEvent} {call : Nat} {spec : TaskSpec}
    {b : Backlog} (h : replay (before ++ .effective call spec :: after) = some b)
    (hafter : ∀ given, .delivered given ∈ after → given.name ≠ spec.name) :
    ∃ e ∈ b, e.1 = spec.name := by
  induction after using List.reverseRecOn generalizing b with
  | nil =>
    rw [replay_concat] at h
    obtain ⟨b₀, -, hevent⟩ := Option.bind_eq_some_iff.mp h
    cases hevent
    exact ⟨_, mem_append.mpr (.inl rfl), rfl⟩
  | append_singleton after event ih =>
    rw [← List.cons_append, ← List.append_assoc, replay_concat] at h
    obtain ⟨b₀, hb₀, hevent⟩ := Option.bind_eq_some_iff.mp h
    obtain ⟨e, he, hname⟩ := ih hb₀ fun given hg => hafter given (List.mem_append_left _ hg)
    cases htask : event.task with
    | none => exact ⟨e, observe_of_task_eq_none htask hevent ▸ he, hname⟩
    | some task =>
      cases event with
      | effective later newer =>
        cases hevent
        by_cases hnewer : e.1 = newer.name
        · exact ⟨_, mem_append.mpr (.inl rfl), hnewer.symm.trans hname⟩
        · exact ⟨e, mem_append.mpr (.inr ⟨he, hnewer⟩), hname⟩
      | delivered given =>
        obtain ⟨front, rfl⟩ := observe_delivered hevent
        rcases List.mem_cons.mp he with rfl | he
        · have hfront : front = given.name := (replay_proper hb₀).named _ List.mem_cons_self
          have hlast : .delivered given ∈ after ++ [.delivered given] :=
            List.mem_append_right _ (List.mem_singleton_self _)
          exact absurd (hfront.symm.trans hname) (hafter given hlast)
        · exact ⟨e, he, hname⟩
      | _ => exact nomatch htask

/-- Nothing waits when a take is told that nothing more comes. -/
theorem replay_of_drained {before after : List QueueEvent} {b : Backlog}
    (h : replay (before ++ .drained :: after) = some b) : replay before = some [] := by
  rw [replay_append] at h
  obtain ⟨b₀, hb₀, h⟩ := Option.bind_eq_some_iff.mp h
  rw [List.foldlM_cons] at h
  obtain ⟨b₁, hevent, -⟩ := Option.bind_eq_some_iff.mp h
  replace hevent : (if b₀ = [] then some b₀ else none) = some b₁ := hevent
  by_cases hnil : b₀ = []
  · exact hnil ▸ hb₀
  · rw [if_neg hnil] at hevent
    exact nomatch hevent

end Backlog

end ServingPlane
