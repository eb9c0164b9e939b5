import ServingPlane.Proofs.Plane.Agreement

/-! # What waits was queued last

    A step that hands the consumer nothing queues at most one spec, and
    leaves the container records alone; so the spec that waits for the
    consumer is, for every task, the last one whose append took effect. -/

namespace ServingPlane.Schedule

/-- What a step may do to what the consumer works on, unless it hands it a spec. -/
structure Effect (s s' : Schedule) : Prop where
  containers : s'.plane.store.containers = s.plane.store.containers
  queued : (s'.plane.queue.pending = s.plane.queue.pending ∧ s'.accepted = s.accepted) ∨
    ∃ spec, s'.plane.queue.pending = s.plane.queue.pending.insert spec.name spec ∧
      s'.accepted = s.accepted ++ [spec]

/-- Each task that waits does so with the spec that was queued last. -/
def Newest (s : Schedule) : Prop :=
  ∀ name spec, s.plane.queue.pending.get? name = some spec →
    spec.name = name ∧ lastOf s.accepted name = some spec

variable {d : Detector} {s s' : Schedule} {i : Nat} {a : Activity} {β : Type}

theorem newest_start (capacity : Nat) : (start capacity).Newest := fun _ _ h => (nomatch h)

theorem Newest.of_effect (h : s.Newest) (heffect : Effect s s') : s'.Newest := by
  intro name spec hspec
  rcases heffect.queued with ⟨hpending, haccepted⟩ | ⟨new, hpending, haccepted⟩
  · rw [hpending] at hspec
    rw [haccepted]
    exact h name spec hspec
  · rw [hpending, Dict.get?_insert] at hspec
    rw [haccepted, lastOf_concat]
    by_cases hname : name = new.name
    · rw [if_pos hname] at hspec ⊢
      cases hspec
      exact ⟨hname.symm, rfl⟩
    · rw [if_neg hname] at hspec ⊢
      exact h name spec hspec

theorem Effect.refl (s : Schedule) : Effect s s := ⟨rfl, .inl ⟨rfl, rfl⟩⟩

theorem Effect.put (h : Effect s s') (i : Nat) (activity : Option Activity) :
    Effect s (s'.put i activity) :=
  ⟨h.containers, h.queued⟩

/-- A request goes on with what its call came to. -/
theorem Effect.resume (e : PlaneCall β) (k : β → Detection Unit) (served : Served β)
    (hcontainers : served.plane.store.containers = s.plane.store.containers)
    (hqueued : (served.plane.queue.pending = s.plane.queue.pending ∧ served.accepted = []) ∨
      ∃ spec, served.plane.queue.pending = s.plane.queue.pending.insert spec.name spec ∧
        served.accepted = [spec]) :
    Effect s (s.resume i a e k served) := by
  have hnext : Effect s { s with
      plane := served.plane, accepted := s.accepted ++ served.accepted } := by
    refine ⟨hcontainers, ?_⟩
    rcases hqueued with ⟨hpending, haccepted⟩ | ⟨spec, hpending, haccepted⟩
    · exact .inl ⟨hpending, (congrArg (s.accepted ++ ·) haccepted).trans (List.append_nil _)⟩
    · exact .inr ⟨spec, hpending, congrArg (s.accepted ++ ·) haccepted⟩
  simp only [Schedule.resume]
  cases served.answer with
  | none => exact hnext.put ..
  | some b => exact hnext.put ..

/-- A call that is no append leaves the queue alone, and the container
    records with it. -/
theorem Effect.of_serve {e : PlaneCall β} {k : β → Detection Unit} (he : e.isAppend = false)
    (hserve : s.plane.serve e = none ∨ ∃ answer plane, s.plane.serve e = some (answer, plane) ∧
      plane.store.containers = s.plane.store.containers ∧ plane.queue = s.plane.queue) :
    Effect s (s.resume i a e k (s.plane.attempt a.stage e)) := by
  rcases hserve with hnone | ⟨answer, plane, hsome, hcontainers, hqueue⟩
  · rw [Plane.attempt_of_serve_eq_none he hnone]
    exact Effect.resume e k _ rfl (.inl ⟨rfl, rfl⟩)
  · rw [Plane.attempt_of_serve_eq_some he hsome]
    exact Effect.resume e k _ hcontainers (.inl ⟨congrArg TaskQueue.pending hqueue, rfl⟩)

theorem Effect.of_whenFree {e : PlaneCall β} {k : β → Detection Unit} (he : e.isAppend = false)
    {next : β × Plane} (hserve : s.plane.serve e = s.plane.whenFree next)
    (hcontainers : next.2.store.containers = s.plane.store.containers)
    (hqueue : next.2.queue = s.plane.queue) :
    Effect s (s.resume i a e k (s.plane.attempt a.stage e)) := by
  refine .of_serve he ?_
  simp only [Plane.whenFree] at hserve
  by_cases hlocked : s.plane.locked = true
  · rw [if_pos hlocked] at hserve
    exact .inl hserve
  · rw [if_neg hlocked] at hserve
    exact .inr ⟨next.1, next.2, hserve, hcontainers, hqueue⟩

/-- A request goes one step on with a call to the plane. -/
theorem effect_call (s : Schedule) (i : Nat) (a : Activity) (e : PlaneCall β)
    (k : β → Detection Unit) : Effect s (s.resume i a e k (s.plane.attempt a.stage e)) := by
  cases e with
  | readRegistry => exact .of_whenFree rfl rfl rfl rfl
  | updateRegistry change => exact .of_whenFree rfl rfl rfl rfl
  | lockRegistry => exact .of_whenFree rfl rfl rfl rfl
  | unlockRegistry contents => exact .of_serve rfl (.inr ⟨_, _, rfl, rfl, rfl⟩)
  | enqueue spec =>
    have hpending := (s.plane.queue.advance_step spec a.stage).pending
    refine Effect.resume _ k _ rfl ?_
    simp only [Plane.attempt]
    -- only the step that takes effect writes the spec
    by_cases heffect : a.stage.takesEffect (s.plane.queue.advance spec a.stage).1 = true
    · rw [if_pos heffect] at hpending ⊢
      exact .inr ⟨spec, hpending, rfl⟩
    · rw [if_neg heffect] at hpending ⊢
      exact .inl ⟨hpending, rfl⟩
  | queuedCount => exact .of_serve rfl (.inr ⟨_, _, rfl, rfl, rfl⟩)
  | appendHistory task record limit =>
    obtain ⟨answer, store, hserve, hcontainers⟩ := s.plane.serve_appendHistory task record limit
    exact .of_serve rfl (.inr ⟨answer, _, hserve, hcontainers, rfl⟩)
  | listHistory task => exact .of_serve rfl (.inr ⟨_, _, rfl, rfl, rfl⟩)

theorem effect_advance (s : Schedule) (i : Nat) (outside : ∀ {β : Type}, OutsideCall β → β) :
    Effect s (s.advance i outside) := by
  simp only [Schedule.advance]
  cases s.activities i with
  | none => exact .refl s
  | some a =>
    dsimp only
    cases a.program with
    | done => exact (Effect.refl s).put ..
    | call e k =>
      cases e with
      | inl e => exact effect_call s i a e k
      | inr e => exact (Effect.refl s).put ..

theorem effect_abandon (s : Schedule) (i : Nat) : Effect s (s.abandon i) := by
  simp only [Schedule.abandon]
  cases s.activities i with
  | none => exact .refl s
  | some a =>
    dsimp only
    cases a.awaits with
    | false => exact .refl s
    | true =>
      rw [if_pos rfl]
      have hgiveUp : ∀ stage, (s.plane.queue.giveUp stage).pending = s.plane.queue.pending := by
        intro stage
        cases stage with
        | _ => rfl
      have hleave : Effect s { s with plane := a.leave s.plane } := by
        simp only [Activity.leave]
        cases a.append with
        | none =>
          cases a.holds with
          | _ => exact ⟨rfl, .inl ⟨rfl, rfl⟩⟩
        | some call =>
          cases a.holds with
          | _ => exact ⟨rfl, .inl ⟨hgiveUp call.2, rfl⟩⟩
      exact hleave.put ..

/-- A step of the consumer hands it nothing, or the spec of a task that
    waits, which waits no longer. -/
theorem consume_cases (s : Schedule) :
    (Effect s s.consume.2 ∧ ∀ spec, s.consume.1 ≠ some (.spec spec)) ∨
    ∃ name spec, s.plane.queue.pending.get? name = some spec ∧ s.consume.1 = some (.spec spec) ∧
      s.consume.2.plane.queue.pending = s.plane.queue.pending.erase name := by
  simp only [Schedule.consume, TaskQueue.consume]
  cases s.consumer with
  | idle => exact .inl ⟨⟨rfl, .inl ⟨rfl, rfl⟩⟩, by rintro _ ⟨⟩⟩
  | receiving waits =>
    dsimp only
    cases s.plane.queue.channel with
    | cons name rest => exact .inl ⟨⟨rfl, .inl ⟨rfl, rfl⟩⟩, by rintro _ ⟨⟩⟩
    | nil =>
      dsimp only
      split
      · exact .inl ⟨⟨rfl, .inl ⟨rfl, rfl⟩⟩, by rintro _ ⟨⟩⟩
      · split
        · exact .inl ⟨⟨rfl, .inl ⟨rfl, rfl⟩⟩, by rintro _ ⟨⟩⟩
        · exact .inl ⟨⟨rfl, .inl ⟨rfl, rfl⟩⟩, by rintro _ ⟨⟩⟩
  | received waits name =>
    dsimp only
    cases hspec : s.plane.queue.pending.get? name with
    | none => exact .inl ⟨⟨rfl, .inl ⟨rfl, rfl⟩⟩, by rintro _ ⟨⟩⟩
    | some spec => exact .inr ⟨name, spec, hspec, rfl, rfl⟩

theorem Newest.of_erase (h : s.Newest) {taken : String}
    (hpending : s'.plane.queue.pending = s.plane.queue.pending.erase taken)
    (haccepted : s'.accepted = s.accepted) : s'.Newest := by
  intro name spec hspec
  rw [hpending] at hspec
  rw [haccepted]
  exact h name spec (Dict.get?_of_get?_erase hspec)

/-- No other step hands the consumer anything, unless somebody else writes
    the store. -/
theorem effect_step (s : Schedule) (d : Detector) {action : Action}
    (hconsume : action ≠ .consume) (hwrite : ∀ store, action ≠ .write store) :
    Effect s (s.step d action) := by
  simp only [Schedule.step]
  cases action with
  | begin i request =>
    dsimp only
    cases s.activities i with
    | none => exact (Effect.refl s).put ..
    | some a => exact .refl s
  | advance i outside => exact effect_advance s i outside
  | abandon i => exact effect_abandon s i
  | take waits =>
    dsimp only
    cases s.consumer with
    | idle =>
      dsimp only
      by_cases hclosed : s.plane.queue.closed = true
      · rw [if_pos hclosed]
        exact .refl s
      · rw [if_neg hclosed]
        exact ⟨rfl, .inl ⟨rfl, rfl⟩⟩
    | receiving => exact .refl s
    | received => exact .refl s
  | consume => exact absurd rfl hconsume
  | abandonTake => exact ⟨rfl, .inl ⟨rfl, rfl⟩⟩
  | close => exact ⟨rfl, .inl ⟨rfl, rfl⟩⟩
  | write store => exact absurd rfl (hwrite store)

end ServingPlane.Schedule
