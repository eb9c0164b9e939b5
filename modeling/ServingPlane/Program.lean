/-! # Programs that ask the outside

    A program is a value: it is done, or it makes one call of an
    interface and goes on with the answer.  Everything between two calls
    is one atomic step, so a schedule of several programs is a choice of
    whose call comes next. -/

namespace ServingPlane

/-- A program over an interface `E`, ending in an `α`. -/
inductive Program (E : Type → Type) (α : Type) : Type 1 where
  | done (a : α)
  | call {β : Type} (request : E β) (next : β → Program E α)

/-- The calls of two interfaces together. -/
abbrev OneOf (E F : Type → Type) (α : Type) : Type := E α ⊕ F α

namespace Program

variable {E F : Type → Type} {α β γ : Type}

/-- Go on with a second program. -/
def bind : Program E α → (α → Program E β) → Program E β
  | done a, f => f a
  | call e k, f => call e fun b => (k b).bind f

instance : Monad (Program E) where
  pure := done
  bind := bind

/-- Make one call. -/
def ask (request : E α) : Program E α := call request done

/-- Make a call of the first of two interfaces. -/
def askFirst (request : E α) : Program (OneOf E F) α := ask (.inl request)

/-- Make a call of the second of two interfaces. -/
def askSecond (request : F α) : Program (OneOf E F) α := ask (.inr request)

@[simp] theorem pure_bind_eq (a : α) (f : α → Program E β) : (pure a >>= f) = f a := rfl

theorem bind_pure_eq (p : Program E α) : (p >>= pure) = p := by
  induction p with
  | done a => rfl
  | call e k ih => exact congrArg (call e) (funext ih)

theorem bind_bind (p : Program E α) (f : α → Program E β) (g : β → Program E γ) :
    (p >>= f) >>= g = p >>= fun a => f a >>= g := by
  induction p with
  | done a => rfl
  | call e k ih => exact congrArg (call e) (funext ih)

instance : LawfulMonad (Program E) :=
  LawfulMonad.mk' _ bind_pure_eq pure_bind_eq bind_bind

/-- Answer every call by a computation of a monad. -/
def run {m : Type → Type} [Monad m] (answer : ∀ {δ : Type}, E δ → m δ) : Program E α → m α
  | done a => pure a
  | call e k => do
    let b ← answer e
    (k b).run answer

/-- Answer every call by a program over another interface. -/
def interpret (answer : ∀ {δ : Type}, E δ → Program F δ) : Program E α → Program F α
  | done a => done a
  | call e k => (answer e).bind fun b => (k b).interpret answer

end Program

end ServingPlane
