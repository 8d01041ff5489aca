import Ghost.Transition.Run

/-!
# A run seen through a projection

A system is looked at through a function of its state. When each step is at most
one step of a second system there, each run is a run of that system.
-/

namespace Transition

variable {S T A B : Type*} {step : S → A → Option S} {step' : T → B → Option T} {f : S → T}

def Projects (step : S → A → Option S) (step' : T → B → Option T) (f : S → T) : Prop :=
  ∀ s a t, step s a = some t → f t = f s ∨ ∃ b, step' (f s) b = some (f t)

theorem Projects.exec (h : Projects step step' f) {as : List A} {s t : S} (hrun : exec step s as = some t) :
    ∃ bs, Transition.exec step' (f s) bs = some (f t) := by
  induction as generalizing s with
  | nil =>
    cases hrun
    exact ⟨[], rfl⟩
  | cons a as ih =>
    obtain ⟨u, hu, hrest⟩ := exec_cons_eq_some.mp hrun
    obtain ⟨bs, hbs⟩ := ih hrest
    rcases h s a u hu with hsame | ⟨b, hb⟩
    · rw [hsame] at hbs
      exact ⟨bs, hbs⟩
    · exact ⟨b :: bs, exec_cons_eq_some.mpr ⟨f u, hb, hbs⟩⟩

end Transition
