import LoxSyntax.Token.Error

/-!
What takes in the errors of a scan. A handler receives the errors one by one, as they are found, and
its state is all that they change.
-/

namespace LoxSyntax.Token

/-- A way to take in errors, with the state that they change. -/
structure Handler (σ : Type) where
  receive : σ → LexicalError → σ

namespace Handler

variable {σ : Type} (handler : Handler σ) (state : σ) (errors later : List LexicalError)

/-- Keeps every error. -/
def collecting : Handler (Array LexicalError) :=
  ⟨Array.push⟩

/-- Keeps nothing. -/
def discarding : Handler Unit :=
  ⟨fun _ _ => ()⟩

def receiveAll : σ :=
  errors.foldl handler.receive state

@[simp] theorem receiveAll_nil : handler.receiveAll state [] = state := rfl

@[simp] theorem receiveAll_cons (error : LexicalError) :
    handler.receiveAll state (error :: errors) =
      handler.receiveAll (handler.receive state error) errors := rfl

theorem receiveAll_append :
    handler.receiveAll state (errors ++ later) =
      handler.receiveAll (handler.receiveAll state errors) later :=
  List.foldl_append

theorem receiveAll_collecting (kept : Array LexicalError) :
    collecting.receiveAll kept errors = kept ++ errors.toArray := by
  induction errors generalizing kept with
  | nil => simp
  | cons error errors ih =>
      rw [receiveAll_cons, ih]
      simp [collecting]

end Handler

end LoxSyntax.Token
