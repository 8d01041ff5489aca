import Ghost.Transition.Run

/-!
# States that can be reached

Some run of admitted actions leads to a state with a property. Such a run is
built one step at a time, each step from the state that the last one left.
-/

namespace Transition

variable {S A : Type*} {step : S → A → Option S} {ok : A → Prop} {P Q : S → Prop} {s t : S}

def CanReach (step : S → A → Option S) (ok : A → Prop) (P : S → Prop) (s : S) : Prop :=
  ∃ as t, exec step s as = some t ∧ (∀ a ∈ as, ok a) ∧ P t

theorem CanReach.now (h : P s) : CanReach step ok P s := ⟨[], s, rfl, by simp, h⟩

theorem CanReach.after {a : A} (h : step s a = some t) (ha : ok a) (ht : CanReach step ok P t) :
    CanReach step ok P s := by
  obtain ⟨as, u, hexec, hok, hP⟩ := ht
  refine ⟨a :: as, u, exec_cons_eq_some.mpr ⟨t, h, hexec⟩, ?_, hP⟩
  intro b hb
  rcases List.mem_cons.mp hb with rfl | hb
  · exact ha
  · exact hok b hb

theorem CanReach.then (h : CanReach step ok P s) (hPQ : ∀ t, P t → CanReach step ok Q t) :
    CanReach step ok Q s := by
  obtain ⟨as, t, hexec, hok, hP⟩ := h
  obtain ⟨bs, u, hmore, hok', hQ⟩ := hPQ t hP
  refine ⟨as ++ bs, u, exec_trans hexec hmore, ?_, hQ⟩
  intro a ha
  rcases List.mem_append.mp ha with ha | ha
  · exact hok a ha
  · exact hok' a ha

theorem CanReach.mono (h : CanReach step ok P s) (hPQ : ∀ t, P t → Q t) : CanReach step ok Q s :=
  h.then fun t ht => .now (hPQ t ht)

end Transition
