import ServingPlane.Program

/-! # Runs of programs

    What a program can do against an environment that may answer each
    call in several ways.  An environment is a relation: in a state, a
    call may be answered so and leave that state.  A run of two programs
    in a row is a run of the first and a run of the second from where the
    first ended, and a run that stands before a call goes on after each
    answer the environment may give. -/

namespace ServingPlane

/-- The answers that an environment with states `σ` may give to a call,
    and the states it may be in afterwards. -/
abbrev Environment (σ : Type) (E : Type → Type) : Type 1 :=
  ∀ {β : Type}, σ → E β → β → σ → Prop

namespace Program

variable {E F : Type → Type} {σ α β : Type}

/-- Against an environment, a program started in one state may end with a
    result in another. -/
def Runs (env : Environment σ E) : Program E α → σ → α → σ → Prop
  | done a, s, b, t => b = a ∧ t = s
  | call e k, s, b, t => ∃ answer u, env s e answer u ∧ (k answer).Runs env u b t

/-- Whatever it is answered, a program ends with a result of this kind. -/
def Always (post : α → Prop) : Program E α → Prop
  | done a => post a
  | call _ k => ∀ b, (k b).Always post

theorem always_bind {p : Program E α} {f : α → Program E β} {post : β → Prop}
    (hf : ∀ a, (f a).Always post) : (p >>= f).Always post := by
  show (p.bind f).Always post
  induction p with
  | done a => exact hf a
  | call e k ih => exact ih

/-- Whatever it is answered, a program makes calls of this kind only. -/
def EveryCall (ofKind : ∀ {β : Type}, E β → Prop) : Program E α → Prop
  | done _ => True
  | call e k => ofKind e ∧ ∀ b, (k b).EveryCall ofKind

theorem everyCall_ask {ofKind : ∀ {β : Type}, E β → Prop} {e : E α} (h : ofKind e) :
    (ask e).EveryCall ofKind :=
  ⟨h, fun _ => trivial⟩

theorem everyCall_bind {ofKind : ∀ {β : Type}, E β → Prop} {p : Program E α}
    {f : α → Program E β} (hp : p.EveryCall ofKind) (hf : ∀ a, (f a).EveryCall ofKind) :
    (p >>= f).EveryCall ofKind := by
  show (p.bind f).EveryCall ofKind
  induction p with
  | done a => exact hf a
  | call e k ih => exact ⟨hp.1, fun b => ih b (hp.2 b)⟩

/-- Programs over another interface, each of whose calls makes calls of this kind only. -/
theorem everyCall_interpret {ofKind : ∀ {β : Type}, F β → Prop}
    {answer : ∀ {δ : Type}, E δ → Program F δ}
    (hanswer : ∀ {δ : Type} (e : E δ), (answer e).EveryCall ofKind) (p : Program E α) :
    (p.interpret answer).EveryCall ofKind := by
  induction p with
  | done a => trivial
  | call e k ih => exact everyCall_bind (hanswer e) ih

variable {env : Environment σ E}

/-- A single call ends with an answer to it. -/
theorem runs_ask {e : E α} {s t : σ} {a : α} : (ask e).Runs env s a t ↔ env s e a t := by
  constructor
  · rintro ⟨answer, u, h, rfl, rfl⟩
    exact h
  · intro h
    exact ⟨a, t, h, rfl, rfl⟩

theorem Always.of_runs {post : α → Prop} {p : Program E α} {s t : σ} {a : α}
    (h : p.Always post) (hrun : p.Runs env s a t) : post a := by
  induction p generalizing s with
  | done b =>
    obtain ⟨rfl, -⟩ := hrun
    exact h
  | call e k ih =>
    obtain ⟨answer, u, -, hk⟩ := hrun
    exact ih answer (h answer) hk

/-- A run of two programs in a row meets a state between them. -/
theorem runs_bind {p : Program E α} {f : α → Program E β} {s t : σ} {b : β} :
    (p >>= f).Runs env s b t ↔ ∃ a u, p.Runs env s a u ∧ (f a).Runs env u b t := by
  show (p.bind f).Runs env s b t ↔ _
  induction p generalizing s with
  | done a =>
    constructor
    · intro h
      exact ⟨a, s, ⟨rfl, rfl⟩, h⟩
    · rintro ⟨_, _, ⟨rfl, rfl⟩, h⟩
      exact h
  | call e k ih =>
    constructor
    · rintro ⟨answer, u, he, h⟩
      obtain ⟨a, v, hk, hf⟩ := (ih answer).mp h
      exact ⟨a, v, ⟨answer, u, he, hk⟩, hf⟩
    · rintro ⟨a, v, ⟨answer, u, he, hk⟩, hf⟩
      exact ⟨answer, u, he, (ih answer).mpr ⟨a, v, hk, hf⟩⟩

/-- What is made of the result of a program changes nothing about its run. -/
theorem runs_map {p : Program E α} {f : α → β} {s t : σ} {b : β} :
    (p >>= fun a => (pure (f a) : Program E β)).Runs env s b t ↔
      ∃ a, p.Runs env s a t ∧ b = f a := by
  rw [runs_bind]
  constructor
  · rintro ⟨a, _, h, rfl, rfl⟩
    exact ⟨a, h, rfl⟩
  · rintro ⟨a, h, rfl⟩
    exact ⟨a, t, h, rfl, rfl⟩

/-- A program over another interface runs as its own calls are answered by
    what each of them is interpreted as. -/
theorem runs_interpret {env : Environment σ F} {env' : Environment σ E}
    {answer : ∀ {δ : Type}, E δ → Program F δ}
    (h : ∀ {δ : Type} {s t : σ} {e : E δ} {b : δ}, (answer e).Runs env s b t ↔ env' s e b t)
    {p : Program E α} {s t : σ} {a : α} :
    (p.interpret answer).Runs env s a t ↔ p.Runs env' s a t := by
  induction p generalizing s with
  | done b => exact Iff.rfl
  | call e k ih =>
    refine runs_bind.trans (exists_congr fun b => exists_congr fun u => ?_)
    rw [h, ih b]

/-- Every call that a run of the program comes to is allowed in the state
    where it is made. -/
def Guarded (env : Environment σ E) (allowed : ∀ {β : Type}, σ → E β → Prop) :
    Program E α → σ → Prop
  | done _, _ => True
  | call e k, s => allowed s e ∧ ∀ answer t, env s e answer t → (k answer).Guarded env allowed t

variable {allowed : ∀ {β : Type}, σ → E β → Prop}

theorem guarded_ask {e : E α} {s : σ} : (ask e).Guarded env allowed s ↔ allowed s e :=
  ⟨fun h => h.1, fun h => ⟨h, fun _ _ _ => trivial⟩⟩

/-- Of two programs in a row, the second is looked at where the first may end. -/
theorem guarded_bind {p : Program E α} {f : α → Program E β} {s : σ} :
    (p >>= f).Guarded env allowed s ↔
      p.Guarded env allowed s ∧ ∀ a t, p.Runs env s a t → (f a).Guarded env allowed t := by
  show (p.bind f).Guarded env allowed s ↔ _
  induction p generalizing s with
  | done a =>
    constructor
    · intro h
      refine ⟨trivial, ?_⟩
      rintro _ _ ⟨rfl, rfl⟩
      exact h
    · rintro ⟨-, h⟩
      exact h a s ⟨rfl, rfl⟩
  | call e k ih =>
    constructor
    · rintro ⟨he, hk⟩
      refine ⟨⟨he, fun answer t ht => ((ih answer).mp (hk answer t ht)).1⟩, ?_⟩
      rintro a u ⟨answer, t, ht, hrun⟩
      exact ((ih answer).mp (hk answer t ht)).2 a u hrun
    · rintro ⟨⟨he, hk⟩, hf⟩
      refine ⟨he, fun answer t ht => (ih answer).mpr ⟨hk answer t ht, fun a u hrun => ?_⟩⟩
      exact hf a u ⟨answer, t, ht, hrun⟩

/-- A program of allowed calls only. -/
theorem EveryCall.guarded {ofKind : ∀ {β : Type}, E β → Prop} {p : Program E α} {s : σ}
    (h : p.EveryCall ofKind) : p.Guarded env (fun _ e => ofKind e) s := by
  induction p generalizing s with
  | done a => trivial
  | call e k ih => exact ⟨h.1, fun answer t _ => ih answer (h.2 answer)⟩

/-- What every allowed call keeps, a run of allowed calls keeps. -/
theorem Guarded.keeps {p : Program E α} {P : σ → Prop} {s t : σ} {a : α}
    (hstep : ∀ {β : Type} {e : E β} {u v : σ} {answer : β},
      allowed u e → env u e answer v → P u → P v)
    (hguarded : p.Guarded env allowed s) (hrun : p.Runs env s a t) (hs : P s) : P t := by
  induction p generalizing s with
  | done b =>
    obtain ⟨-, rfl⟩ := hrun
    exact hs
  | call e k ih =>
    obtain ⟨answer, u, he, hk⟩ := hrun
    exact ih answer (hguarded.2 answer u he) hk (hstep hguarded.1 he hs)

end Program

end ServingPlane
