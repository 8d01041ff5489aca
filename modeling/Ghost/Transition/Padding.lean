import Ghost.Transition.Run
import Mathlib.Data.Option.Basic

/-!
# Runs with and without padding

Some actions of a run are padding: dropping them leaves a run that can do what
the padded one can. `R s u` relates a state of the padded run to the state of the
run without padding; a padding step keeps it on the left alone, any other step on
both sides, where it is enabled on both or on neither.
-/

namespace Transition

variable {S A : Type*}

theorem rel_bind {R : S → S → Prop} {x y : Option S} {f g : S → Option S} (h : Option.Rel R x y)
    (hfg : ∀ s t, x = some s → R s t → Option.Rel R (f s) (g t)) : Option.Rel R (x.bind f) (y.bind g) := by
  cases h with
  | none => exact .none
  | some hst => exact hfg _ _ rfl hst

theorem rel_meet {R Q : S → S → Prop} (hmeet : ∀ s t u, R s u → R t u → Q s t) {x y z : Option S}
    (hx : Option.Rel R x z) (hy : Option.Rel R y z) : Option.Rel Q x y := by
  cases hx with
  | none =>
    cases hy
    exact .none
  | some hsu =>
    cases hy with
    | some htu => exact .some (hmeet _ _ _ hsu htu)

section Padding

variable {step : S → A → Option S} {ok : S → A → Prop} {R Q : S → S → Prop} {pad : A → Bool}

theorem exec_padded (hpad : ∀ s u a, R s u → pad a = true → ok s a → ∃ t, step s a = some t ∧ R t u)
    (hstep : ∀ s u a, R s u → pad a = false → Option.Rel R (step s a) (step u a)) {s u : S} {as : List A}
    (hs : R s u) (hm : Meets step ok s as) :
    Option.Rel R (exec step s as) (exec step u (as.filter fun a => !pad a)) := by
  induction as generalizing s u with
  | nil => exact .some hs
  | cons a as ih =>
    cases ha : pad a with
    | true =>
      obtain ⟨t, ht, htu⟩ := hpad s u a hs ha hm.1
      have hrest := ih htu (hm.2 t ht)
      simpa [exec, ht, ha] using hrest
    | false =>
      have hfilter : (a :: as).filter (fun a => !pad a) = a :: as.filter fun a => !pad a := by simp [ha]
      rw [hfilter, exec, exec]
      exact rel_bind (hstep s u a hs ha) fun t v ht htv => ih htv (hm.2 t ht)

/-- Two runs that differ in their padding only. -/
theorem exec_repadded (hpad : ∀ s u a, R s u → pad a = true → ok s a → ∃ t, step s a = some t ∧ R t u)
    (hstep : ∀ s u a, R s u → pad a = false → Option.Rel R (step s a) (step u a))
    (hmeet : ∀ s t u, R s u → R t u → Q s t) {s u : S} {as bs : List A} (hs : R s u) (has : Meets step ok s as)
    (hbs : Meets step ok s bs) (hsame : (as.filter fun a => !pad a) = bs.filter fun a => !pad a) :
    Option.Rel Q (exec step s as) (exec step s bs) := by
  have ha := exec_padded hpad hstep hs has
  have hb := exec_padded hpad hstep hs hbs
  rw [← hsame] at hb
  exact rel_meet hmeet ha hb

end Padding

end Transition
