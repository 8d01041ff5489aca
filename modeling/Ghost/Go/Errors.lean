import Mathlib.Logic.Function.Basic

/-!
# Go error values

An error is a sentinel made by `errors.New`, or a text around another error as
`fmt.Errorf` with a `%w` verb makes it. A `%v` verb only copies the text of its
operand, so that operand is not part of the chain.
-/

namespace Go

/-- An error value. `errors.New` returns a new pointer each time, so two
sentinels are the same error only if they are the same variable: `var` is the
name of that variable. -/
inductive Error where
  | new (var : String) (text : String)
  | wrap (text : String) (inner : Error)
  deriving DecidableEq, Repr

namespace Error

/-- The `Error()` method. -/
def error : Error → String
  | .new _ text => text
  | .wrap text _ => text

/-- `errors.Is` for a comparable target: the target occurs in the chain. -/
def is : Error → Error → Bool
  | .new v t, target => decide (.new v t = target)
  | .wrap t e, target => decide (.wrap t e = target) || e.is target

/-- `fmt.Errorf("%w: %v", e, cause)`: only `e` stays in the chain. -/
def wrapf (e cause : Error) : Error := .wrap (e.error ++ ": " ++ cause.error) e

/-- `fmt.Errorf(text + ": %w", e)`. -/
def annotate (text : String) (e : Error) : Error := .wrap (text ++ ": " ++ e.error) e

end Error

-- A check that returns early has passed.
theorem of_check_eq_ok {α : Type} {p : Prop} [Decidable p] {e : Error} {rest : Except Error α} {a : α}
    (h : (if p then .error e else rest) = .ok a) : ¬ p ∧ rest = .ok a := by
  by_cases hp : p
  · rw [if_pos hp] at h
    cases h
  · rw [if_neg hp] at h
    exact ⟨hp, h⟩

end Go
