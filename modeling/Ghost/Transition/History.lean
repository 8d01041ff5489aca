import Ghost.Transition.Run

/-!
# History variables

A property may speak of what happened before and not only of where a run
stands. A note beside the state records it: the note is computed from the run
and never read by a step, so a system with a note has the runs of the system.
-/

namespace Transition

variable {S A H : Type*} {step : S → A → Option S} {note : S → A → H → H} {ok : S → A → Prop}

def noted (step : S → A → Option S) (note : S → A → H → H) (p : S × H) (a : A) : Option (S × H) :=
  (step p.1 a).map fun t => (t, note p.1 a p.2)

theorem noted_eq_some {p q : S × H} {a : A} :
    noted step note p a = some q ↔ step p.1 a = some q.1 ∧ q.2 = note p.1 a p.2 := by
  obtain ⟨t, k⟩ := q
  simp only [noted, Option.map_eq_some_iff, Prod.mk.injEq]
  constructor
  · rintro ⟨u, hu, rfl, rfl⟩
    exact ⟨hu, rfl⟩
  · rintro ⟨ht, rfl⟩
    exact ⟨t, ht, rfl, rfl⟩

-- Every run of the system is a run of the system with a note.
theorem exec_noted (note : S → A → H → H) {as : List A} {s t : S} (h : exec step s as = some t) (k : H) :
    ∃ l, exec (noted step note) (s, k) as = some (t, l) := by
  induction as generalizing s k with
  | nil =>
    cases h
    exact ⟨k, rfl⟩
  | cons a as ih =>
    obtain ⟨u, hu, hrest⟩ := exec_cons_eq_some.mp h
    obtain ⟨l, hl⟩ := ih hrest (note s a k)
    exact ⟨l, exec_cons_eq_some.mpr ⟨(u, note s a k), noted_eq_some.mpr ⟨hu, rfl⟩, hl⟩⟩

/-- Invariant rule for a system with a note, over an invariant `I` of the system
itself; steps need only keep either where they meet `ok`. -/
theorem noted_invariant {I : S → Prop} {J : S → H → Prop}
    (hI : ∀ s a t, I s → ok s a → step s a = some t → I t)
    (hJ : ∀ s h a t, I s → J s h → ok s a → step s a = some t → J t (note s a h))
    {as : List A} {p q : S × H} (hs : I p.1) (hj : J p.1 p.2) (hok : Meets step ok p.1 as)
    (h : exec (noted step note) p as = some q) : I q.1 ∧ J q.1 q.2 := by
  induction as generalizing p with
  | nil =>
    cases h
    exact ⟨hs, hj⟩
  | cons a as ih =>
    obtain ⟨r, hr, hrest⟩ := exec_cons_eq_some.mp h
    obtain ⟨hstep, hnote⟩ := noted_eq_some.mp hr
    refine ih (hI _ _ _ hs hok.1 hstep) ?_ (hok.2 r.1 hstep) hrest
    rw [hnote]
    exact hJ _ _ _ _ hs hj hok.1 hstep

end Transition
