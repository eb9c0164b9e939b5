import ServingPlane.Proofs.Plane.Share

/-! # The exchange of a spec

    A program that asks the plane alone, and never has to wait, comes to
    one answer and one plane, whatever else its environment keeps: that can
    be worked out on the plane, call by call.  The exchange of a spec is
    such a program while its task is ready.  It is decided by the task's
    entry and by whether the queue takes the spec. -/

namespace ServingPlane

/-! ## Programs that ask the plane alone -/

/-- The states of the environment hold a plane that serves its own calls. -/
structure Environment.Hosts {σ : Type} (env : Environment σ DetectorCall) (plane : σ → Plane)
    (put : σ → Plane → σ) : Prop where
  serves : ∀ {β : Type} {s t : σ} {e : PlaneCall β} {answer : β},
    env s (.inl e) answer t ↔ ∃ q, (plane s).serve e = some (answer, q) ∧ t = put s q
  plane_put : ∀ s q, plane (put s q) = q
  put_put : ∀ s q r, put (put s q) r = put s r
  put_plane : ∀ s, put s (plane s) = s

namespace Program

variable {α β σ : Type} {program : Detection α} {p q : Plane} {a b : α}

/-- What a program comes to on a plane, if it asks nobody else and no call has to wait. -/
def settled : Detection α → Plane → Option (α × Plane)
  | .done a, p => some (a, p)
  | .call (.inl e) next, p => (p.serve e).bind fun served => (next served.1).settled served.2
  | .call (.inr _) _, _ => none

theorem settled_ask {e : PlaneCall α} (h : p.serve e = some (a, q)) :
    (Detector.ask e).settled p = some (a, q) := by
  show (p.serve e).bind _ = _
  rw [h]
  rfl

/-- What follows finds the plane that was left. -/
theorem settled_bind {f : α → Detection β} (h : program.settled p = some (a, q)) :
    (program >>= f).settled p = (f a).settled q := by
  show (program.bind f).settled p = _
  induction program generalizing p with
  | done b =>
    cases h
    rfl
  | call e next ih =>
    cases e with
    | inr e => cases h
    | inl e =>
      obtain ⟨⟨answer, r⟩, hserve, hrest⟩ := Option.bind_eq_some_iff.mp h
      simp only [Program.bind, settled]
      rw [hserve, Option.bind_some]
      exact ih answer hrest

section Hosted

variable {env : Environment σ DetectorCall} {plane : σ → Plane} {put : σ → Plane → σ} {s t : σ}

/-- Such a program has one run, which changes nothing but the plane. -/
theorem runs_of_settled (hosts : env.Hosts plane put) (h : program.settled (plane s) = some (a, q)) :
    program.Runs env s b t ↔ b = a ∧ t = put s q := by
  induction program generalizing s with
  | done c =>
    cases h
    rw [hosts.put_plane]
    exact Iff.rfl
  | call e next ih =>
    cases e with
    | inr e => cases h
    | inl e =>
      obtain ⟨⟨answer, r⟩, hserve, hrest⟩ := Option.bind_eq_some_iff.mp h
      have hnext : (next answer).Runs env (put s r) b t ↔ b = a ∧ t = put s q := by
        rw [← hosts.put_put s r q]
        exact ih answer ((hosts.plane_put s r).symm ▸ hrest)
      constructor
      · rintro ⟨_, _, hasked, hrun⟩
        obtain ⟨_, hserved, rfl⟩ := hosts.serves.mp hasked
        cases hserve.symm.trans hserved
        exact hnext.mp hrun
      · intro heq
        exact ⟨answer, _, hosts.serves.mpr ⟨r, hserve, rfl⟩, hnext.mpr heq⟩

/-- What follows runs from where it ended. -/
theorem runs_bind_of_settled {f : α → Detection β} {c : β} (hosts : env.Hosts plane put)
    (h : program.settled (plane s) = some (a, q)) :
    (program >>= f).Runs env s c t ↔ (f a).Runs env (put s q) c t := by
  rw [runs_bind]
  constructor
  · rintro ⟨_, _, hrun, hrest⟩
    obtain ⟨rfl, rfl⟩ := (runs_of_settled hosts h).mp hrun
    exact hrest
  · intro hrest
    exact ⟨_, _, (runs_of_settled hosts h).mpr ⟨rfl, rfl⟩, hrest⟩

/-- And no call of it gets stuck. -/
theorem guarded_of_settled {allowed : ∀ {β : Type}, σ → DetectorCall β → Prop}
    (hosts : env.Hosts plane put)
    (hallowed : ∀ {β : Type} {s : σ} {e : PlaneCall β},
      ((plane s).serve e).isSome = true → allowed s (.inl e))
    (h : program.settled (plane s) = some (a, q)) : program.Guarded env allowed s := by
  induction program generalizing s with
  | done c => trivial
  | call e next ih =>
    cases e with
    | inr e => cases h
    | inl e =>
      obtain ⟨⟨answer, r⟩, hserve, hrest⟩ := Option.bind_eq_some_iff.mp h
      refine ⟨hallowed (Option.isSome_iff_exists.mpr ⟨_, hserve⟩), fun _ _ hasked => ?_⟩
      obtain ⟨_, hserved, rfl⟩ := hosts.serves.mp hasked
      cases hserve.symm.trans hserved
      exact ih answer ((hosts.plane_put s r).symm ▸ hrest)

end Hosted

end Program

/-- The world holds a plane. -/
theorem Outside.hosts (o : Outside) :
    Environment.Hosts o.answering World.plane fun w plane => { w with plane } where
  serves := Iff.rfl
  plane_put _ _ := rfl
  put_put _ _ _ := rfl
  put_plane _ := rfl

/-! ## What an exchange makes of the plane -/

namespace Plane

variable {p : Plane} {name : String} {spec updated : TaskSpec}

/-- The plane with a spec in the queue and another registry. -/
def exchanged (p : Plane) (contents : Registry) (spec : TaskSpec) : Plane :=
  { p with registry := contents, queue := p.queue.record spec }

@[simp] theorem pending_exchanged {contents : Registry} :
    (p.exchanged contents spec).queue.pending = p.queue.pending.insert spec.name spec := by
  rw [exchanged, TaskQueue.record_eq]

/-- What an exchange answers, and what it makes of the plane. -/
def exchange (p : Plane) (spec updated : TaskSpec) : Except DetectorError Bool × Plane :=
  if (p.registry.get? spec.name).any (·.spec.eqv spec) then
    if !p.queue.pending.contains spec.name && p.queue.closed then (.error .queueClosed, p)
    else (.ok true, p.exchanged (p.registry.setSpec spec.name updated) updated)
  else (.ok false, p)

/-- The task has another spec by now or none, or the queue turns the new one
    away, or the exchange is made. -/
theorem exchange_cases (p : Plane) (spec updated : TaskSpec) :
    (¬ (p.registry.get? spec.name).any (·.spec.eqv spec) = true ∧
      p.exchange spec updated = (.ok false, p)) ∨
    (p.registry.get? spec.name).any (·.spec.eqv spec) = true ∧
      ((!p.queue.pending.contains spec.name && p.queue.closed) = true ∧
          p.exchange spec updated = (.error .queueClosed, p) ∨
        ¬ (!p.queue.pending.contains spec.name && p.queue.closed) = true ∧
          p.exchange spec updated
            = (.ok true, p.exchanged (p.registry.setSpec spec.name updated) updated)) := by
  simp only [exchange]
  by_cases hthere : (p.registry.get? spec.name).any (·.spec.eqv spec) = true
  · rw [if_pos hthere]
    refine .inr ⟨hthere, ?_⟩
    by_cases hclosed : (!p.queue.pending.contains spec.name && p.queue.closed) = true
    · exact .inl ⟨hclosed, if_pos hclosed⟩
    · exact .inr ⟨hclosed, if_neg hclosed⟩
  · exact .inl ⟨hthere, if_neg hthere⟩

/-- The entry of the task has the new spec, which waits in the queue. -/
theorem get?_exchanged (hname : updated.name = name) :
    (p.exchanged (p.registry.setSpec name updated) updated).registry.get? name
        = (p.registry.get? name).map ({ · with spec := updated }) ∧
      (p.exchanged (p.registry.setSpec name updated) updated).queue.pending.get? name
        = some updated := by
  constructor
  · show (Dict.modify _ _ _).get? name = _
    rw [Dict.get?_modify, if_pos rfl]
  · rw [pending_exchanged, hname]
    exact Dict.get?_insert_self ..

theorem touches_exchanged (hname : updated.name = name) :
    p.Touches [name] (p.exchanged (p.registry.setSpec name updated) updated) where
  entry other hother := by
    show (Dict.modify _ _ _).get? other = _
    rw [Dict.get?_modify, if_neg (List.mem_singleton.not.mp hother)]
  locked := rfl
  waits other hother := by
    rw [pending_exchanged, hname]
    exact Dict.get?_insert_of_ne _ _ (List.mem_singleton.not.mp hother)
  kept other hother := by
    rw [pending_exchanged, Dict.contains, Dict.get?_insert]
    split
    · rfl
    · exact hother
  queue := by
    have hwaits : (p.exchanged (p.registry.setSpec name updated) updated).queue.pending.contains name
        = true := by
      rw [Dict.contains, (get?_exchanged hname).2]
      rfl
    rw [entered_singleton, hwaits, Bool.and_true]
    simp only [exchanged]
    rw [TaskQueue.record_eq, hname]
    cases p.queue.pending.contains name <;> simp
  history _ _ := rfl
  containers := rfl

theorem touches_exchange (hname : updated.name = spec.name) :
    p.Touches [spec.name] (p.exchange spec updated).2 := by
  rcases p.exchange_cases spec updated with ⟨-, h⟩ | ⟨-, ⟨-, h⟩ | ⟨-, h⟩⟩
  · rw [h]
    exact .refl _ _
  · rw [h]
    exact .refl _ _
  · rw [h]
    exact touches_exchanged hname

/-- With a slot for its task at hand, an append takes effect at once, or
    fails because nobody will take the spec. -/
theorem append_of_ready (h : p.Ready [spec.name]) :
    p.queue.append spec =
      if !p.queue.pending.contains spec.name && p.queue.closed then (.finished .closed, p.queue)
      else (.finished .accepted, p.queue.record spec) := by
  have hroom := h.room
  rw [List.filter_cons, List.filter_nil] at hroom
  simp only [TaskQueue.append]
  cases hwaits : p.queue.pending.contains spec.name with
  | true => rfl
  | false =>
    cases hclosed : p.queue.closed with
    | true => rfl
    | false =>
      rw [hwaits] at hroom
      exact if_pos (hroom hclosed)

end Plane

namespace Detector

open Program

/-- Where its task is ready, an exchange goes through at once. -/
theorem settled_install {p : Plane} {spec updated : TaskSpec} (hready : p.Ready [spec.name])
    (hname : updated.name = spec.name) :
    (install spec updated).settled p = some (p.exchange spec updated) := by
  have hlock : p.serve .lockRegistry = some (p.registry, { p with locked := true }) := by
    simp only [Plane.serve, Plane.whenFree]
    rw [hready.free, if_neg Bool.false_ne_true]
  have happend := Plane.append_of_ready (show p.Ready [updated.name] from hname ▸ hready)
  rw [hname] at happend
  have hunlocked : { p with locked := false } = p := by rw [← hready.free]
  simp only [install]
  rw [settled_bind (settled_ask hlock)]
  rcases p.exchange_cases spec updated with
    ⟨hthere, hexchange⟩ | ⟨hthere, ⟨hclosed, hexchange⟩ | ⟨hclosed, hexchange⟩⟩
  · -- the registry is given back as it was
    rw [hexchange, if_neg hthere, settled_bind (settled_ask rfl)]
    exact congrArg (fun q => some (_, q)) hunlocked
  · rw [if_pos hclosed] at happend
    have henqueue : { p with locked := true }.serve (.enqueue updated)
        = some (.closed, { p with locked := true }) := by
      simp only [Plane.serve, happend]
    rw [hexchange, if_pos hthere, settled_bind (settled_ask henqueue), settled_bind (settled_ask rfl)]
    exact congrArg (fun q => some (_, q)) hunlocked
  · -- the spec waits in the queue and stands in the registry
    rw [if_neg hclosed] at happend
    have henqueue : { p with locked := true }.serve (.enqueue updated) = some (.accepted,
        { p with locked := true, queue := p.queue.record updated }) := by
      simp only [Plane.serve, happend]
    rw [hexchange, if_pos hthere, settled_bind (settled_ask henqueue), settled_bind (settled_ask rfl)]
    simp only [Plane.exchanged]
    rw [← hready.free]
    rfl

end Detector

end ServingPlane
