import Ghost.Go.Errors
import Mathlib.Data.List.Basic

/-!
# Go errors with more than one operand

An error value as the `errors` package sees it: which value it is, its text, what
its own `Is` method accepts, what `errors.As` finds in it, and what it unwraps to.
`errors.Is` and `errors.As` search the tree in pre-order.
-/

namespace Go

/- A package variable, or what a call allocated. -/
inductive ErrId where
  | var (name : String)
  | ptr (n : Nat)
  deriving DecidableEq, Repr

structure ErrValue (P : Type*) where
  id : ErrId
  text : String
  is : ErrId → Bool := fun _ => false
  as : Option P := none

inductive Err (P : Type*) where
  | node (value : ErrValue P) (unwrap : List (Err P))

namespace Err

variable {P : Type*}

def value : Err P → ErrValue P
  | .node v _ => v

/-- The `Error()` method. -/
def error (e : Err P) : String := e.value.text

mutual

def walk : Err P → List (ErrValue P)
  | .node v es => v :: walkAll es

def walkAll : List (Err P) → List (ErrValue P)
  | [] => []
  | e :: es => walk e ++ walkAll es

end

/-- `errors.Is`. -/
def is (e : Err P) (target : ErrId) : Bool := e.walk.any fun v => v.id == target || v.is target

/-- `errors.As`, for a target of the one type `P`. -/
def as (e : Err P) : Option P := e.walk.findSome? ErrValue.as

/-- `fmt.Errorf` with the operands of its `%w` verbs. -/
def errorf (n : Nat) (text : String) (operands : List (Err P)) : Err P := .node ⟨.ptr n, text, fun _ => false, none⟩ operands

/-- A chain of single operands as a tree. What `fmt.Errorf` allocated along the
chain is not told apart. -/
def ofChain : Error → Err P
  | .new var text => .node { id := .var var, text := text } []
  | .wrap text e => .errorf 0 text [ofChain e]

variable {e : Err P} {n : Nat} {text : String} {target : ErrId}

theorem walk_errorf_single : (errorf n text [e]).walk = ⟨.ptr n, text, fun _ => false, none⟩ :: e.walk := by
  simp [errorf, walk, walkAll]

@[simp] theorem error_errorf (es : List (Err P)) : (errorf n text es).error = text := rfl

theorem is_errorf_single : (errorf n text [e]).is target = (decide (ErrId.ptr n = target) || e.is target) := by
  simp [is, walk_errorf_single, beq_eq_decide]

theorem as_errorf_single : (errorf n text [e]).as = e.as := by
  simp [as, walk_errorf_single]

theorem is_errorf_var {v : String} : (errorf n text [e]).is (.var v) = e.is (.var v) := by
  simp [is_errorf_single]

@[simp] theorem error_ofChain (e : Error) : (ofChain e : Err P).error = e.error := by
  cases e <;> rfl

theorem is_ofChain_new {v u : String} : (ofChain (.new v text) : Err P).is (.var u) = decide (v = u) := by
  simp [is, ofChain, walk, walkAll, beq_eq_decide]

end Err

end Go
