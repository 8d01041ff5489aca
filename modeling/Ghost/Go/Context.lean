import Ghost.Go.Errors
import Mathlib.Order.Lattice

/-!
# Go contexts

A context by its lifetime: its deadline, and when it is cancelled, by whomever.
The first of the two ends it, and what ended it is its error ever after.
-/

namespace Go

structure Ctx where
  deadline : Option Int
  canceledAt : Option Int
  deriving DecidableEq, Repr

namespace Ctx

def background : Ctx := ⟨none, none⟩

def canceled : Error := .new "context.Canceled" "context canceled"

def deadlineExceeded : Error := .new "context.DeadlineExceeded" "context deadline exceeded"

/-- `Err()` at a time. -/
def err (c : Ctx) (t : Int) : Option Error :=
  match c.canceledAt, c.deadline with
  | none, none => none
  | some at_, none => if at_ ≤ t then some canceled else none
  | none, some d => if d ≤ t then some deadlineExceeded else none
  | some at_, some d =>
    if at_ < d then if at_ ≤ t then some canceled else none
    else if d ≤ t then some deadlineExceeded else none

def earlier : Option Int → Int → Int
  | none, t => t
  | some u, t => if u ≤ t then u else t

/-- `context.WithTimeout` at a time. -/
def withTimeout (c : Ctx) (timeout now : Int) : Ctx :=
  { c with deadline := some (earlier c.deadline (now + timeout)) }

/-- The effect of its cancel function, called at a time. -/
def cancel (c : Ctx) (t : Int) : Ctx := { c with canceledAt := some (earlier c.canceledAt t) }

variable {c : Ctx} {t u : Int} {e : Error}

theorem err_sticky (h : c.err t = some e) (htu : t ≤ u) : c.err u = some e := by
  obtain ⟨deadline, canceledAt⟩ := c
  cases deadline <;> cases canceledAt <;> simp only [err] at h ⊢ <;> grind

-- A context that has ended already is not changed by a cancel.
theorem err_cancel_of_done (h : c.err t = some e) (htu : t ≤ u) : (c.cancel t).err u = some e := by
  obtain ⟨deadline, canceledAt⟩ := c
  cases deadline <;> cases canceledAt <;> simp only [err, cancel, earlier] at h ⊢ <;> grind

theorem err_cancel_of_live (h : c.err t = none) (htu : t ≤ u) : (c.cancel t).err u = some canceled := by
  obtain ⟨deadline, canceledAt⟩ := c
  cases deadline <;> cases canceledAt <;> simp only [err, cancel, earlier] at h ⊢ <;> grind

theorem err_withTimeout {timeout now : Int} (h : 0 < timeout) : (c.withTimeout timeout now).err now = c.err now := by
  obtain ⟨deadline, canceledAt⟩ := c
  cases deadline <;> cases canceledAt <;> simp only [err, withTimeout, earlier] <;> grind

end Ctx

end Go
