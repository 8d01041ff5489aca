import Mathlib.Algebra.Group.Int.Defs

/-!
# Panics and memory

A Go expression has a value or panics. Making a slice panics for a negative
length and for one beyond what the runtime can allocate.
-/

namespace Go

structure Panic where
  text : String
  deriving DecidableEq, Repr

def Panic.nilDereference : Panic := ⟨"runtime error: invalid memory address or nil pointer dereference"⟩

abbrev Eval (α : Type) := Except Panic α

/-- The lengths `n` for which `make([]byte, n)` gives a slice. On a 64-bit machine the
runtime allocates no more than `2^48` bytes. -/
structure Memory where
  fits : Int → Prop
  nonneg : ∀ n, fits n → 0 ≤ n
  limit : ∀ n, fits n → n ≤ 2 ^ 48

end Go
