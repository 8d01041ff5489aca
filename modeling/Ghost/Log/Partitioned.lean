import Mathlib.Data.List.Pairwise
import Mathlib.Logic.Function.Basic

/-!
# Reading a partitioned log

Records carry a partition and an offset. A reader has one position per
partition; a batch it reads lies at or above the positions and ascends within
each partition, and reading it moves every position past the batch.
-/

namespace PartitionedLog

variable {K R : Type*} [DecidableEq K] (key : R → K) (offset : R → Nat)

def Ascending (rs : List R) : Prop := rs.Pairwise fun a b => key a = key b → offset a < offset b

def From (pos : K → Nat) (rs : List R) : Prop := ∀ r ∈ rs, pos (key r) ≤ offset r

def advance (pos : K → Nat) : List R → K → Nat
  | [] => pos
  | r :: rs => advance (Function.update pos (key r) (offset r + 1)) rs

instance (rs : List R) : Decidable (Ascending key offset rs) :=
  inferInstanceAs (Decidable (rs.Pairwise _))

instance (pos : K → Nat) (rs : List R) : Decidable (From key offset pos rs) :=
  inferInstanceAs (Decidable (∀ r ∈ rs, _))

variable {key offset} {pos : K → Nat} {r : R} {rs : List R}

-- After the first record the rest of the batch still lies above the positions.
theorem From.tail (hf : From key offset pos (r :: rs)) (ha : Ascending key offset (r :: rs)) :
    From key offset (Function.update pos (key r) (offset r + 1)) rs := by
  intro q hq
  have hlt := List.rel_of_pairwise_cons ha hq
  by_cases hk : key q = key r
  · rw [hk, Function.update_self]
    exact hlt hk.symm
  · rw [Function.update_of_ne hk]
    exact hf q (List.mem_cons_of_mem _ hq)

theorem le_advance (hf : From key offset pos rs) (ha : Ascending key offset rs) (k : K) :
    pos k ≤ advance key offset pos rs k := by
  induction rs generalizing pos with
  | nil => exact Nat.le_refl _
  | cons r rs ih =>
    have hrest := ih (hf.tail ha) (List.Pairwise.of_cons ha)
    have hr := hf r (List.mem_cons_self ..)
    by_cases hk : k = key r
    · subst hk
      rw [Function.update_self] at hrest
      show pos (key r) ≤ advance key offset _ rs (key r)
      omega
    · rw [Function.update_of_ne hk] at hrest
      exact hrest

theorem lt_advance (hf : From key offset pos rs) (ha : Ascending key offset rs) (hr : r ∈ rs) :
    offset r < advance key offset pos rs (key r) := by
  induction rs generalizing pos with
  | nil => cases hr
  | cons q rs ih =>
    have ha' := List.Pairwise.of_cons ha
    rcases List.mem_cons.mp hr with rfl | hr
    · have hle := le_advance (hf.tail ha) ha' (key r)
      rw [Function.update_self] at hle
      exact hle
    · exact ih (hf.tail ha) ha' hr

theorem advance_other {k : K} (h : ∀ r ∈ rs, key r ≠ k) : advance key offset pos rs k = pos k := by
  induction rs generalizing pos with
  | nil => rfl
  | cons r rs ih =>
    show advance key offset (Function.update pos (key r) (offset r + 1)) rs k = pos k
    rw [ih fun q hq => h q (List.mem_cons_of_mem _ hq), Function.update_of_ne (h r List.mem_cons_self).symm]

-- A batch that stays below a bound leaves the positions below it.
theorem advance_le {bound : K → Nat} (hpos : ∀ k, pos k ≤ bound k) (hrs : ∀ r ∈ rs, offset r < bound (key r)) (k : K) :
    advance key offset pos rs k ≤ bound k := by
  induction rs generalizing pos with
  | nil => exact hpos k
  | cons r rs ih =>
    refine ih ?_ (fun q hq => hrs q (List.mem_cons_of_mem _ hq))
    intro j
    by_cases hj : j = key r
    · rw [hj, Function.update_self]
      exact hrs r List.mem_cons_self
    · rw [Function.update_of_ne hj]
      exact hpos j

end PartitionedLog
