import Mathlib.Logic.Function.Basic

/-!
# AMQP field tables

Headers of a message and arguments of a declaration are tables from names to
values. A table is an association list read from the front, so writing a field
replaces it.
-/

namespace Amqp

-- one entry of an `x-death` array
structure XDeath where
  queue : String
  reason : String
  count : Nat
  deriving DecidableEq, Repr

-- The only arrays that occur in the modelled headers are `x-death` lists.
inductive Value where
  | str (s : String)
  | int (n : Int)
  | bool (b : Bool)
  | array (xs : List XDeath)
  deriving DecidableEq, Repr

def Value.encoded : Value → Value
  | .int n => .int (n.bmod 4294967296)
  | v => v

abbrev Table := List (String × Value)

namespace Table

def get (t : Table) (k : String) : Option Value := t.lookup k

def set (t : Table) (k : String) (v : Value) : Table := (k, v) :: t.filter fun p => p.1 != k

/-- Equality as maps: both tables agree on every key of either. -/
def same (a b : Table) : Bool := (a ++ b).all fun p => a.get p.1 == b.get p.1

/- As it arrives at the other end: a Go `int` is sent as 32 bits. -/
def encoded (t : Table) : Table := t.map fun p => (p.1, p.2.encoded)

theorem get_encoded (t : Table) (k : String) : t.encoded.get k = (t.get k).map Value.encoded := by
  induction t with
  | nil => rfl
  | cons p t ih =>
    obtain ⟨name, value⟩ := p
    simp only [get, encoded, List.map_cons, List.lookup_cons] at ih ⊢
    cases k == name with
    | true => rfl
    | false => exact ih

theorem get_set_other (t : Table) {k other : String} (v : Value) (h : other ≠ k) :
    (t.set k v).get other = t.get other := by
  have hk : (other == k) = false := beq_false_of_ne h
  simp only [get, set, List.lookup_cons, hk]
  induction t with
  | nil => rfl
  | cons p t ih =>
    obtain ⟨name, value⟩ := p
    by_cases hp : name = k
    · have ho : (other == name) = false := by rw [hp]; exact hk
      rw [List.filter_cons_of_neg (by simp [hp]), ih, List.lookup_cons, ho]
    · rw [List.filter_cons_of_pos (by simp [hp]), List.lookup_cons, List.lookup_cons, ih]

theorem set_set (t : Table) (k : String) (v : Value) : (t.set k v).set k v = t.set k v := by
  simp [set, List.filter_filter]

theorem get_eq_none_of_forall {t : Table} {k : String} (h : ∀ p ∈ t, p.1 ≠ k) : t.get k = none := by
  induction t with
  | nil => rfl
  | cons p t ih =>
    obtain ⟨name, value⟩ := p
    have hp : (k == name) = false := by
      simpa using Ne.symm (h (name, value) (List.mem_cons_self ..))
    simp only [get, List.lookup_cons, hp]
    exact ih fun q hq => h q (List.mem_cons_of_mem _ hq)

theorem same_get {a b : Table} (h : a.same b = true) (k : String) : a.get k = b.get k := by
  simp only [same, List.all_eq_true, List.mem_append, beq_iff_eq] at h
  by_cases hk : ∃ p, (p ∈ a ∨ p ∈ b) ∧ p.1 = k
  · obtain ⟨p, hp, rfl⟩ := hk
    exact h p hp
  · have ha : a.get k = none := get_eq_none_of_forall fun p hp hpk => hk ⟨p, .inl hp, hpk⟩
    have hb : b.get k = none := get_eq_none_of_forall fun p hp hpk => hk ⟨p, .inr hp, hpk⟩
    rw [ha, hb]

end Table

end Amqp
