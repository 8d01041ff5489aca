import Mathlib.Data.List.Basic

/-!
# Runs of an action system

A system is a partial step function `step : S → A → Option S`. An action names
the component that moves together with every outcome the environment chooses
for that move, so a list of actions is one interleaving of all components and
`exec` is the state it leads to. Quantifying over lists of actions quantifies
over every interleaving of every length; since each initial segment of a run is
a run, a property of all end states is a property of all states passed through.
-/

namespace Transition

variable {S A : Type*} {step : S → A → Option S} {ok : S → A → Prop}

/-- The state after a list of actions; `none` as soon as one is not enabled. -/
def exec (step : S → A → Option S) : S → List A → Option S
  | s, [] => some s
  | s, a :: as => (step s a).bind fun t => exec step t as

@[simp] theorem exec_nil (s : S) : exec step s [] = some s := rfl

theorem exec_cons_eq_some {s u : S} {a : A} {as : List A} :
    exec step s (a :: as) = some u ↔ ∃ t, step s a = some t ∧ exec step t as = some u := by
  simp only [exec, Option.bind_eq_some_iff]

theorem exec_append_eq_some {s u : S} {as bs : List A} :
    exec step s (as ++ bs) = some u ↔
      ∃ t, exec step s as = some t ∧ exec step t bs = some u := by
  induction as generalizing s with
  | nil => simp
  | cons a as ih =>
    simp only [List.cons_append, exec_cons_eq_some, ih]
    constructor
    · rintro ⟨t, ht, v, hv, hu⟩
      exact ⟨v, ⟨t, ht, hv⟩, hu⟩
    · rintro ⟨v, ⟨t, ht, hv⟩, hu⟩
      exact ⟨t, ht, v, hv, hu⟩

theorem exec_trans {s t u : S} {as bs : List A} (hs : exec step s as = some t)
    (ht : exec step t bs = some u) : exec step s (as ++ bs) = some u :=
  exec_append_eq_some.mpr ⟨t, hs, ht⟩

theorem exec_single {s t : S} {a : A} (h : step s a = some t) : exec step s [a] = some t :=
  exec_cons_eq_some.mpr ⟨t, h, rfl⟩

/-- `ok` holds of every action of the list in the state that action is taken from. -/
def Meets (step : S → A → Option S) (ok : S → A → Prop) : S → List A → Prop
  | _, [] => True
  | s, a :: as => ok s a ∧ ∀ t, step s a = some t → Meets step ok t as

theorem meets_cons {s t : S} {a : A} {as : List A} (h : step s a = some t) (ha : ok s a)
    (has : Meets step ok t as) : Meets step ok s (a :: as) := by
  refine ⟨ha, fun u hu => ?_⟩
  rw [← Option.some.inj (h.symm.trans hu)]
  exact has

theorem meets_append {s t : S} {as bs : List A} (hs : Meets step ok s as)
    (h : exec step s as = some t) (ht : Meets step ok t bs) : Meets step ok s (as ++ bs) := by
  induction as generalizing s with
  | nil => cases h; exact ht
  | cons a as ih =>
    obtain ⟨u, hu, hrest⟩ := exec_cons_eq_some.mp h
    refine ⟨hs.1, fun v hv => ?_⟩
    have huv : u = v := Option.some.inj (hu.symm.trans hv)
    subst huv
    exact ih (hs.2 u hu) hrest

theorem meets_true (s : S) (as : List A) : Meets step (fun _ _ => True) s as := by
  induction as generalizing s with
  | nil => trivial
  | cons a as ih => exact ⟨trivial, fun t _ => ih t⟩

theorem Meets.mono {ok' : S → A → Prop} {s : S} {as : List A} (h : Meets step ok s as)
    (himp : ∀ s a, ok s a → ok' s a) : Meets step ok' s as := by
  induction as generalizing s with
  | nil => trivial
  | cons a as ih => exact ⟨himp s a h.1, fun t ht => ih (h.2 t ht)⟩

-- A guard that does not look at the state.
theorem meets_of_forall {s : S} {as : List A} (h : ∀ a ∈ as, ∀ s, ok s a) : Meets step ok s as := by
  induction as generalizing s with
  | nil => trivial
  | cons a as ih =>
    exact ⟨h a List.mem_cons_self s, fun t _ => ih fun b hb => h b (List.mem_cons_of_mem a hb)⟩

/-- A guard that is only assumed under `P` is met by every run if `P` fails. -/
theorem meets_imp {P : Prop} {s : S} {as : List A} (h : P → Meets step ok s as) :
    Meets step (fun s a => P → ok s a) s as := by
  induction as generalizing s with
  | nil => trivial
  | cons a as ih => exact ⟨fun hp => (h hp).1, fun t ht => ih fun hp => (h hp).2 t ht⟩

/-- Invariant rule: what every step keeps holds at the end of every run. -/
theorem exec_invariant {I : S → Prop} (hstep : ∀ s a t, I s → step s a = some t → I t)
    {s t : S} {as : List A} (hs : I s) (h : exec step s as = some t) : I t := by
  induction as generalizing s with
  | nil => cases h; exact hs
  | cons a as ih =>
    obtain ⟨u, hu, hrest⟩ := exec_cons_eq_some.mp h
    exact ih (hstep s a u hs hu) hrest

/-- Invariant rule for guarded runs: a step need only keep `I` where it meets `ok`. -/
theorem exec_invariant_meets {I : S → Prop}
    (hstep : ∀ s a t, I s → ok s a → step s a = some t → I t)
    {s t : S} {as : List A} (hs : I s) (hm : Meets step ok s as)
    (h : exec step s as = some t) : I t := by
  induction as generalizing s with
  | nil => cases h; exact hs
  | cons a as ih =>
    obtain ⟨u, hu, hrest⟩ := exec_cons_eq_some.mp h
    exact ih (hstep s a u hs hm.1 hu) (hm.2 u hu) hrest

/-- `Meets` by evaluation, for a guard that can be decided. -/
def checks (step : S → A → Option S) (ok : S → A → Prop) [∀ s a, Decidable (ok s a)] : S → List A → Bool
  | _, [] => true
  | s, a :: as => decide (ok s a) && (step s a).all fun t => checks step ok t as

theorem meets_of_checks [∀ s a, Decidable (ok s a)] {s : S} {as : List A}
    (h : checks step ok s as = true) : Meets step ok s as := by
  induction as generalizing s with
  | nil => trivial
  | cons a as ih =>
    simp only [checks, Bool.and_eq_true, decide_eq_true_eq] at h
    refine ⟨h.1, fun t ht => ih ?_⟩
    rw [ht] at h
    exact h.2

/-- `ok` is the exact guard of `P` on the runs from `init`: a run all of whose
steps meet `ok` satisfies `P` in the state it reaches, and a single step that
does not meet `ok` leaves a state from which `P` can be broken. -/
structure ExactGuard (step : S → A → Option S) (init : S) (ok : S → A → Prop)
    (P : S → Prop) : Prop where
  holds : ∀ as s, exec step init as = some s → Meets step ok init as → P s
  fails : ∀ as s a t, exec step init as = some s → step s a = some t → ¬ ok s a →
    ∃ more u, exec step t more = some u ∧ ¬ P u

end Transition
