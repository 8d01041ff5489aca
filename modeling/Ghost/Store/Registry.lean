import Mathlib.Logic.Function.Basic
import Mathlib.Data.List.Basic

/-!
# Registries

A registry holds at most one entry under a key. Registering an entry that is
there already changes nothing, a different one under its key is refused, and a
new one is made if it may be made. What a history has registered can be
registered again from nothing.
-/

namespace Registry

variable {K P : Type*} [DecidableEq K] (fresh : K → P → Prop)

def Takes (reg : K → Option P) (k : K) (p : P) : Prop :=
  match reg k with
  | some old => old = p
  | none => fresh k p

def Accepts : (K → Option P) → List (K × P) → Prop
  | _, [] => True
  | reg, (k, p) :: items => Takes fresh reg k p ∧ Accepts (Function.update reg k (some p)) items

def register (reg : K → Option P) : List (K × P) → K → Option P
  | [] => reg
  | (k, p) :: items => register (Function.update reg k (some p)) items

/-- `replayed` has what `after` has under the declared keys and nothing else; and
nothing else has changed since `before`. -/
structure Reproduces (declared : K → Prop) (before after replayed : K → Option P) : Prop where
  same : ∀ k, declared k → replayed k = after k
  only : ∀ k, ¬ declared k → replayed k = none ∧ after k = before k

variable {fresh} {reg sub : K → Option P} {items : List (K × P)} {k : K} {p : P}

omit [DecidableEq K] in
theorem Takes.isFresh (h : Takes fresh reg k p) (hreg : ∀ k p, reg k = some p → fresh k p) : fresh k p := by
  unfold Takes at h
  cases hk : reg k with
  | none =>
    rw [hk] at h
    exact h
  | some old =>
    rw [hk] at h
    subst h
    exact hreg k old hk

omit [DecidableEq K] in
theorem Reproduces.congr {declared declared' : K → Prop} {before after replayed : K → Option P}
    (h : Reproduces declared before after replayed) (hiff : ∀ k, declared k ↔ declared' k) :
    Reproduces declared' before after replayed :=
  ⟨fun k hk => h.same k ((hiff k).mpr hk), fun k hk => h.only k fun hd => hk ((hiff k).mp hd)⟩

/- A registry with fewer entries accepts what the larger one does, as far as all
entries may be made anew. -/
theorem Accepts.of_sub (h : Accepts fresh reg items) (hreg : ∀ k p, reg k = some p → fresh k p)
    (hsub : ∀ k p, sub k = some p → reg k = some p) : Accepts fresh sub items := by
  induction items generalizing reg sub with
  | nil => trivial
  | cons item items ih =>
    obtain ⟨k, p⟩ := item
    obtain ⟨htakes, hrest⟩ := h
    have hfresh := htakes.isFresh hreg
    refine ⟨?_, ih hrest ?_ ?_⟩
    · unfold Takes at htakes ⊢
      cases hk : sub k with
      | none => exact hfresh
      | some old =>
        rw [hsub k old hk] at htakes
        exact htakes
    · intro k' p' hk'
      by_cases hkk : k' = k
      · subst hkk
        rw [Function.update_self] at hk'
        cases hk'
        exact hfresh
      · rw [Function.update_of_ne hkk] at hk'
        exact hreg k' p' hk'
    · intro k' p' hk'
      by_cases hkk : k' = k
      · subst hkk
        rw [Function.update_self] at hk' ⊢
        exact hk'
      · rw [Function.update_of_ne hkk] at hk' ⊢
        exact hsub k' p' hk'

theorem register_of_not_mem (h : ∀ p, (k, p) ∉ items) : register reg items k = reg k := by
  induction items generalizing reg with
  | nil => rfl
  | cons item items ih =>
    obtain ⟨k', p'⟩ := item
    have hk : k ≠ k' := by
      rintro rfl
      exact h p' List.mem_cons_self
    rw [register, ih fun p hp => h p (List.mem_cons_of_mem _ hp), Function.update_of_ne hk]

theorem register_congr (h : reg k = sub k) : register reg items k = register sub items k := by
  induction items generalizing reg sub with
  | nil => exact h
  | cons item items ih =>
    obtain ⟨k', p'⟩ := item
    apply ih
    by_cases hk : k = k'
    · subst hk
      rw [Function.update_self, Function.update_self]
    · rw [Function.update_of_ne hk, Function.update_of_ne hk]
      exact h

-- Under a key that was registered the start does not matter.
theorem register_of_mem (h : (k, p) ∈ items) : register reg items k = register sub items k := by
  induction items generalizing reg sub with
  | nil => cases h
  | cons item items ih =>
    obtain ⟨k', p'⟩ := item
    by_cases hk : k = k'
    · subst hk
      have hself : Function.update reg k (some p') k = Function.update sub k (some p') k := by
        rw [Function.update_self, Function.update_self]
      exact show register _ items k = register _ items k from register_congr hself
    · have hmem : (k, p) ∈ items := by
        rcases List.mem_cons.mp h with h | h
        · cases h
          exact absurd rfl hk
        · exact h
      exact ih hmem

-- An accepted history never changes an entry.
theorem Accepts.keeps (h : Accepts fresh reg items) (hk : reg k = some p) : register reg items k = some p := by
  induction items generalizing reg with
  | nil => exact hk
  | cons item items ih =>
    obtain ⟨k', p'⟩ := item
    obtain ⟨htakes, hrest⟩ := h
    apply ih hrest
    by_cases hkk : k = k'
    · subst hkk
      simp only [Takes, hk] at htakes
      rw [Function.update_self, htakes]
    · rw [Function.update_of_ne hkk]
      exact hk

/-- So what it has registered under a key is all it has registered there. -/
theorem Accepts.register_eq (h : Accepts fresh reg items) (hmem : (k, p) ∈ items) :
    register reg items k = some p := by
  induction items generalizing reg with
  | nil => cases hmem
  | cons item items ih =>
    obtain ⟨-, hrest⟩ := h
    rcases List.mem_cons.mp hmem with rfl | hmem
    · exact hrest.keeps (Function.update_self ..)
    · exact ih hrest hmem

theorem register_ne_none (h : reg k ≠ none ∨ ∃ p, (k, p) ∈ items) : register reg items k ≠ none := by
  induction items generalizing reg with
  | nil =>
    rcases h with h | ⟨p, hp⟩
    · exact h
    · cases hp
  | cons item items ih =>
    obtain ⟨k', p'⟩ := item
    apply ih
    by_cases hk : k = k'
    · left
      rw [hk, Function.update_self]
      exact Option.some_ne_none p'
    · rw [Function.update_of_ne hk]
      refine h.imp_right fun ⟨p, hmem⟩ => ⟨p, ?_⟩
      rcases List.mem_cons.mp hmem with hmem | hmem
      · cases hmem
        exact absurd rfl hk
      · exact hmem

theorem register_reproduces (before : K → Option P) (items : List (K × P)) :
    Reproduces (fun k => ∃ p, (k, p) ∈ items) before (register before items) (register (fun _ => none) items) := by
  refine ⟨?_, ?_⟩
  · rintro k ⟨p, hp⟩
    exact register_of_mem hp
  · intro k hk
    have hnot : ∀ p, (k, p) ∉ items := fun p hp => hk ⟨p, hp⟩
    exact ⟨register_of_not_mem hnot, register_of_not_mem hnot⟩

end Registry
