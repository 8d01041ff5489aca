import Mathlib.Data.List.Basic

/-!
# Lists of threads

A pool of threads is a list; a step of one thread replaces its entry and appends
the threads it starts. A quantity that is the sum of one number per thread then
changes by what the step does to that one entry. What a thread has beside its entry
is in a table by number, and its work may be a list that it goes through in order.
-/

namespace Threads

variable {G : Type*} (f : G → Nat)

def total : List G → Nat
  | [] => 0
  | g :: gs => f g + total gs

def advance (gs : List G) (i : Nat) (next : G) (spawned : List G) : List G := gs.set i next ++ spawned

variable {f} {gs spawned : List G} {g next : G} {i : Nat}

@[simp] theorem total_nil : total f [] = 0 := rfl

@[simp] theorem total_cons : total f (g :: gs) = f g + total f gs := rfl

@[simp] theorem total_append (hs : List G) : total f (gs ++ hs) = total f gs + total f hs := by
  induction gs with
  | nil => simp
  | cons g gs ih =>
    simp only [List.cons_append, total_cons]
    omega

theorem total_set (next : G) (h : gs[i]? = some g) :
    total f (gs.set i next) + f g = total f gs + f next := by
  induction gs generalizing i with
  | nil => simp at h
  | cons x gs ih =>
    cases i with
    | zero =>
      simp only [List.getElem?_cons_zero, Option.some.injEq] at h
      simp only [List.set_cons_zero, total_cons, h]
      omega
    | succ i =>
      have hrest := ih (i := i) (by simpa using h)
      simp only [List.set_cons_succ, total_cons]
      omega

theorem total_advance (next : G) (spawned : List G) (h : gs[i]? = some g) :
    total f (advance gs i next spawned) + f g = total f gs + f next + total f spawned := by
  have hset := total_set (f := f) next h
  simp only [advance, total_append]
  omega

theorem le_total (h : g ∈ gs) : f g ≤ total f gs := by
  induction gs with
  | nil => cases h
  | cons x gs ih =>
    rw [total_cons]
    rcases List.mem_cons.mp h with rfl | h
    · omega
    · have hrest := ih h
      omega

theorem total_map_le {H : Type*} {view : G → H} {w : H → Nat} (gs : List G)
    (h : ∀ g, w (view g) ≤ f g) : total w (gs.map view) ≤ total f gs := by
  induction gs with
  | nil => exact Nat.le_refl _
  | cons g gs ih =>
    have hg := h g
    simp only [List.map_cons, total_cons]
    omega

-- Two different threads count twice.
theorem add_le_total {a b : G} {j : Nat} (hi : gs[i]? = some a) (hj : gs[j]? = some b) (hij : i ≠ j) :
    f a + f b ≤ total f gs := by
  induction gs generalizing i j with
  | nil => simp at hi
  | cons x gs ih =>
    rw [total_cons]
    cases i with
    | zero =>
      cases j with
      | zero => exact absurd rfl hij
      | succ j =>
        simp only [List.getElem?_cons_zero, Option.some.injEq] at hi
        have hb := le_total (f := f) (List.mem_of_getElem? (by simpa using hj : gs[j]? = some b))
        rw [hi]
        omega
    | succ i =>
      cases j with
      | zero =>
        simp only [List.getElem?_cons_zero, Option.some.injEq] at hj
        have ha := le_total (f := f) (List.mem_of_getElem? (by simpa using hi : gs[i]? = some a))
        rw [hj]
        omega
      | succ j =>
        have hrest := ih (i := i) (j := j) (by simpa using hi) (by simpa using hj) (by omega)
        omega

theorem countP_flatMap {α : Type*} (held : G → List α) (p : α → Bool) (gs : List G) :
    (gs.flatMap held).countP p = total (fun g => (held g).countP p) gs := by
  induction gs with
  | nil => rfl
  | cons g gs ih => rw [List.flatMap_cons, List.countP_append, ih, total_cons]

/-- What all threads hold changes by what the one thread holds. -/
theorem countP_advance {α : Type*} (held : G → List α) (p : α → Bool) (next : G) (spawned : List G)
    (h : gs[i]? = some g) :
    ((advance gs i next spawned).flatMap held).countP p + (held g).countP p =
      (gs.flatMap held).countP p + (held next).countP p + (spawned.flatMap held).countP p := by
  simp only [countP_flatMap]
  exact total_advance next spawned h

theorem map_advance {H : Type*} (view : G → H) :
    (advance gs i next spawned).map view = advance (gs.map view) i (view next) (spawned.map view) := by
  simp only [advance, List.map_append, List.map_set]

theorem getElem?_advance_self (h : gs[i]? = some g) : (advance gs i next spawned)[i]? = some next := by
  have hlt : i < gs.length := (List.getElem?_eq_some_iff.mp h).1
  rw [advance, List.getElem?_append_left (by simpa using hlt), List.getElem?_set_self hlt]

theorem getElem?_advance_ne {j : Nat} (h : gs[j]? = some g) (hij : i ≠ j) :
    (advance gs i next spawned)[j]? = some g := by
  have hlt : j < gs.length := (List.getElem?_eq_some_iff.mp h).1
  rw [advance, List.getElem?_append_left (by simpa using hlt), List.getElem?_set_ne hij, h]

theorem getElem?_advance_spawned {x : G} : (advance gs i next (x :: spawned))[gs.length]? = some x := by
  simp [advance]

theorem getElem?_set_cases {x : G} {j : Nat} (h : (gs.set i next)[j]? = some x) :
    (j = i ∧ x = next) ∨ (j ≠ i ∧ gs[j]? = some x) := by
  by_cases hij : i = j
  · subst hij
    have hlt : i < gs.length := by simpa using (List.getElem?_eq_some_iff.mp h).1
    rw [List.getElem?_set_self hlt] at h
    exact .inl ⟨rfl, (Option.some.inj h).symm⟩
  · rw [List.getElem?_set_ne hij] at h
    exact .inr ⟨Ne.symm hij, h⟩

-- A thread after the step is the one that moved, one of the others, or a new one.
theorem getElem?_advance_cases {x : G} {j : Nat} (h : (advance gs i next spawned)[j]? = some x) :
    (j = i ∧ x = next) ∨ (j ≠ i ∧ gs[j]? = some x) ∨
      (gs.length ≤ j ∧ spawned[j - gs.length]? = some x) := by
  by_cases hlt : j < gs.length
  · rw [advance, List.getElem?_append_left (by simpa using hlt)] at h
    exact (getElem?_set_cases h).imp_right .inl
  · have hle : gs.length ≤ j := Nat.le_of_not_lt hlt
    rw [advance, List.getElem?_append_right (by simpa using hle)] at h
    exact .inr (.inr ⟨hle, by simpa using h⟩)

theorem mem_advance {x : G} (h : x ∈ advance gs i next spawned) :
    (∃ j, j ≠ i ∧ gs[j]? = some x) ∨ x = next ∨ x ∈ spawned := by
  obtain ⟨j, hj⟩ := List.mem_iff_getElem?.mp h
  rcases getElem?_advance_cases hj with ⟨-, hx⟩ | hold | ⟨-, hnew⟩
  · exact .inr (.inl hx)
  · exact .inl ⟨j, hold⟩
  · exact .inr (.inr (List.mem_of_getElem? hnew))

-- A thread started from outside comes last.
theorem getElem?_append_cases {x : G} {j : Nat} (h : (gs ++ [g])[j]? = some x) : gs[j]? = some x ∨ x = g := by
  by_cases hlt : j < gs.length
  · rw [List.getElem?_append_left hlt] at h
    exact .inl h
  · rw [List.getElem?_append_right (Nat.le_of_not_lt hlt)] at h
    exact .inr (List.mem_singleton.mp (List.mem_of_getElem? h))

-- A thread with some property is left, unless it was the one that moved.
theorem exists_mem_advance {p : G → Prop} (hg : gs[i]? = some g) (h : ∃ x ∈ gs, p x)
    (hnext : p g → p next ∨ ∃ x ∈ spawned, p x) : ∃ x ∈ advance gs i next spawned, p x := by
  obtain ⟨x, hx, hp⟩ := h
  obtain ⟨j, hj⟩ := List.mem_iff_getElem?.mp hx
  by_cases hij : i = j
  · subst hij
    rw [hg] at hj
    cases hj
    rcases hnext hp with hp | ⟨y, hy, hp⟩
    · exact ⟨next, List.mem_of_getElem? (getElem?_advance_self hg), hp⟩
    · exact ⟨y, List.mem_append_right _ hy, hp⟩
  · exact ⟨x, List.mem_of_getElem? (getElem?_advance_ne hj hij), hp⟩

theorem update_some_cases {α : Type*} {table : Nat → Option α} {j : Nat} {a x : α}
    (h : Function.update table i (some a) j = some x) : (j = i ∧ x = a) ∨ (j ≠ i ∧ table j = some x) := by
  by_cases hij : j = i
  · left
    rw [hij, Function.update_self] at h
    exact ⟨hij, (Option.some.inj h).symm⟩
  · right
    rw [Function.update_of_ne hij] at h
    exact ⟨hij, h⟩

-- Of a list of which all but one item is done, the item not done is the last.
theorem concat_front {α : Type*} {front l : List α} {a : α} (hfront : front <+: l)
    (hlen : l.length ≤ front.length + 1) (ha : a ∈ l) (hnew : a ∉ front) : front ++ [a] = l := by
  obtain ⟨rest, rfl⟩ := hfront
  have hrest : rest.length ≤ 1 := by
    rw [List.length_append] at hlen
    omega
  have hmem : a ∈ rest := (List.mem_append.mp ha).resolve_left hnew
  cases rest with
  | nil => cases hmem
  | cons b rest =>
    have hnil : rest = [] := List.length_eq_zero_iff.mp (by simp only [List.length_cons] at hrest; omega)
    subst hnil
    rw [List.mem_singleton.mp hmem]

end Threads
