import Ghost.Cache.Stampede

/-!
# The lock after the return (cache/cache_aside.go)

Every return from the locked section runs the deferred `Del(ctx, lockKey)` and
drops its error. The context is the caller's own: where it has been cancelled the
`Del` has no effect, and the lock stays behind for the rest of its time to live.
-/

namespace Ghost.Cache
open Go Transition

/- `Del` succeeds with a live context and fails without effect with a cancelled
one. The other operations may fail at any time. -/
def Obeys (s : Sys) : Action → Prop
  | .del i fail => fail.isSome = (s.callers i).ctxDone
  | _ => True

instance (s : Sys) : (a : Action) → Decidable (Obeys s a)
  | .del i fail => inferInstanceAs (Decidable (fail.isSome = (s.callers i).ctxDone))
  | .tick _ | .call _ _ | .cancel _ | .crash _ | .get _ _ | .setNX _ _ | .set _ _ | .fn _ _ | .clock _
  | .select _ _ => .isTrue trivial

def ctxStep (s : Sys) (a : Action) : Option Sys := if Obeys s a then step s a else none

theorem ctxStep_eq_some {s t : Sys} {a : Action} : ctxStep s a = some t ↔ Obeys s a ∧ step s a = some t := by
  simp only [ctxStep, Option.ite_none_right_eq_some]

-- A cache that no call has locked yet, whatever else it holds.
def unlocked (entries : String → Option (Expiring.Entry String)) : Store := fun key =>
  (entries key).map fun e => ⟨⟨e.value, none⟩, e.expires⟩

/-- No call that has returned has left a lock entry of its own in the cache. -/
def LockReleased (s : Sys) : Prop :=
  ∀ i ret, (s.callers i).pc = .done ret →
    ∀ key x, Expiring.lookup s.store s.now key = some x → x.owner ≠ some i

-- The context is cancelled at the deferred `Del` only if the lock is gone already.
def LiveRelease (s : Sys) : Action → Prop
  | .del i _ => (s.callers i).ctxDone = true → ¬ HoldsLock s i
  | _ => True

/- A lock entry is found under its maker's lock key, and the maker is on its way
to the deferred `Del` or has crashed. -/
def Held (s : Sys) : Prop :=
  ∀ key x i, Expiring.lookup s.store s.now key = some x → x.owner = some i →
    key = (s.callers i).args.lockKey ∧ ((s.callers i).pc.holding = true ∨ (s.callers i).pc = .crashed)

theorem Held.released {s : Sys} (h : Held s) : LockReleased s := by
  intro i ret hpc key x hx howner
  obtain ⟨-, hholding⟩ := h key x i hx howner
  rw [hpc] at hholding
  rcases hholding with hholding | hholding <;> cases hholding

theorem Goes.holding {s : Sys} {i : Nat} {a : Action} {old new : Pc} (h : Goes s i a old new)
    (hold : old.holding = true) :
    new.holding = true ∨ new = .crashed ∨ ∃ e ret, a = .del i (some e) ∧ new = .done ret := by
  cases h with
  | recheckHit | recheckMiss | fnFailed | computed | setFailed => exact .inl rfl
  | crashed => exact .inr (.inl rfl)
  | delFailed e ret => exact .inr (.inr ⟨e, ret, rfl, rfl⟩)
  | _ => cases hold

theorem Held.go {s : Sys} (hs : Held s) {i : Nat} {a : Action} {old new : Pc} (hpc : (s.callers i).pc = old)
    (h : Goes s i a old new) (hobeys : Obeys s a) (hok : LiveRelease s a) : Held (s.setPc i new) := by
  intro key x j hx howner
  obtain ⟨hkey, hj⟩ := hs key x j hx howner
  rw [setPc_args]
  refine ⟨hkey, ?_⟩
  by_cases hji : j = i
  · subst hji
    rw [setPc_self]
    rcases hj with hj | hj
    · rw [hpc] at hj
      rcases h.holding hj with hnew | hnew | ⟨e, ret, rfl, -⟩
      · exact .inl hnew
      · exact .inr hnew
      · -- the `Del` failed, so the context is cancelled and the lock would have to be gone
        subst hkey
        exact absurd ⟨x, hx, howner⟩ (hok hobeys.symm)
    · rw [hpc] at hj
      subst hj
      cases h
      exact .inr rfl
  · rw [setPc_other s new hji]
    exact hj

/- The cache changes under one key only, and what is new there is nobody's or is
the lock of a caller in the locked section. -/
theorem Held.update {s t : Sys} (hs : Held s) {k : String} {i : Nat}
    (hstore : ∀ key, key ≠ k → Expiring.lookup t.store t.now key = Expiring.lookup s.store s.now key)
    (hnew : ∀ x j, Expiring.lookup t.store t.now k = some x → x.owner = some j →
      k = (t.callers j).args.lockKey ∧ (t.callers j).pc.holding = true)
    (hargs : ∀ j, (t.callers j).args = (s.callers j).args)
    (hothers : ∀ j, j ≠ i → (t.callers j).pc = (s.callers j).pc)
    (hself : (t.callers i).pc.holding = true ∨ k = (s.callers i).args.lockKey) : Held t := by
  intro key x j hx howner
  by_cases hkey : key = k
  · subst hkey
    obtain ⟨hlock, hholding⟩ := hnew x j hx howner
    exact ⟨hlock, .inl hholding⟩
  · rw [hstore key hkey] at hx
    obtain ⟨hlock, hj⟩ := hs key x j hx howner
    rw [hargs]
    refine ⟨hlock, ?_⟩
    by_cases hji : j = i
    · subst hji
      rcases hself with hself | hself
      · exact .inl hself
      · exact absurd (hlock.trans hself.symm) hkey
    · rw [hothers j hji]
      exact hj

theorem step_held {s t : Sys} {a : Action} (hs : Held s) (hobeys : Obeys s a) (hok : LiveRelease s a)
    (h : step s a = some t) : Held t := by
  cases step_sysStep h with
  | tick d =>
    intro key x i hx
    exact hs key x i (Expiring.lookup_mono (Int.le_add_of_nonneg_right (Int.natCast_nonneg d)) hx)
  | call i args hpc =>
    intro key x j hx howner
    have hj := hs key x j hx howner
    have hji : j ≠ i := by
      rintro rfl
      rw [hpc] at hj
      rcases hj.2 with hj | hj <;> cases hj
    simp only [Function.update_of_ne hji]
    exact hj
  | cancel i =>
    intro key x j hx howner
    have hj := hs key x j hx howner
    by_cases hji : j = i
    · subst hji
      simp only [Function.update_self]
      exact hj
    · simp only [Function.update_of_ne hji]
      exact hj
  | go a i old new hpc hgo => exact hs.go hpc hgo hobeys hok
  | acquired i hpc hfree =>
    refine hs.update (k := (s.callers i).args.lockKey) (i := i) ?_ ?_ ?_ ?_ (.inl ?_)
    · intro key hkey
      exact Expiring.lookup_put_other hkey
    · intro x j hx howner
      rw [Expiring.lookup_put_eq hx] at howner
      cases howner
      rw [setPc_args, setPc_self]
      exact ⟨rfl, rfl⟩
    · intro j
      rw [setPc_args]
    · intro j hji
      rw [setPc_other _ _ hji]
    · rw [setPc_self]
      rfl
  | stored i result hpc =>
    refine hs.update (k := (s.callers i).args.key) (i := i) ?_ ?_ ?_ ?_ (.inl ?_)
    · intro key hkey
      exact Expiring.lookup_put_other hkey
    · intro x j hx howner
      rw [Expiring.lookup_put_eq hx] at howner
      cases howner
    · intro j
      rw [setPc_args]
    · intro j hji
      rw [setPc_other _ _ hji]
    · rw [setPc_self]
      rfl
  | released i ret hpc =>
    refine hs.update (k := (s.callers i).args.lockKey) (i := i) ?_ ?_ ?_ ?_ (.inr rfl)
    · intro key hkey
      exact Expiring.lookup_remove_other hkey
    · intro x j hx
      exact absurd (Expiring.lookup_remove_self.symm.trans hx) (by simp)
    · intro j
      rw [setPc_args]
    · intro j hji
      rw [setPc_other _ _ hji]

theorem start_held (entries : String → Option (Expiring.Entry String)) (now : Int) :
    Held (.start (unlocked entries) now) := by
  intro key x i hx howner
  obtain ⟨e, he, hlive⟩ := Option.bind_eq_some_iff.mp hx
  obtain ⟨e, -, rfl⟩ := Option.map_eq_some_iff.mp he
  split at hlive
  · cases hlive
    cases howner
  · cases hlive

/-- For any cache content and any callers over it: every call that returns has its
lock removed in a run in which no context is cancelled at the deferred `Del`
while the lock is still there; one such `Del` leaves the lock behind. -/
theorem lockReleased_exactGuard (entries : String → Option (Expiring.Entry String)) (now : Int) :
    ExactGuard ctxStep (.start (unlocked entries) now) LiveRelease LockReleased where
  holds := by
    intro as s h hok
    have hstep : ∀ s a t, Held s → LiveRelease s a → ctxStep s a = some t → Held t := by
      intro s a t hs hlive ht
      obtain ⟨hobeys, ht⟩ := ctxStep_eq_some.mp ht
      exact step_held hs hobeys hlive ht
    exact (exec_invariant_meets hstep (start_held entries now) hok h).released
  fails := by
    intro as s a t _ ha hbad
    cases a with
    | del i fail =>
      simp only [LiveRelease, Classical.not_imp, not_not] at hbad
      obtain ⟨hctx, hlock⟩ := hbad
      obtain ⟨hobeys, ht⟩ := ctxStep_eq_some.mp ha
      obtain ⟨e, rfl⟩ := Option.isSome_iff_exists.mp (hobeys.trans hctx)
      cases step_sysStep ht with
      | go a i old new hpc hgo =>
        cases hgo with
        | delFailed e ret =>
          refine ⟨[], _, rfl, fun hreleased => ?_⟩
          obtain ⟨x, hx, howner⟩ := hlock
          exact hreleased i ret (setPc_self ..) _ x hx howner
    | _ => exact absurd trivial hbad

/- The request is cancelled while `fn` runs: `Set` fails, `Del` fails, and the caller
returns with the lock still there for ten seconds. -/
def cancelDuringFn : List Action :=
  [.call 0 profile, .get 0 none, .setNX 0 none, .get 0 none, .cancel 0, .fn 0 (.ok "v"),
    .set 0 (some canceled), .del 0 (some canceled)]

theorem cancelDuringFn_leaves_lock :
    ∃ s, exec ctxStep (.start (unlocked fun _ => none) 0) cancelDuringFn = some s ∧
      (s.callers 0).pc = .done (.error canceled) ∧
      Expiring.lookup s.store (s.now + 9 * second) "user:1:lock" = some ⟨"user:1:lock", some 0⟩ ∧
      ¬ LockReleased s :=
  ⟨_, rfl, rfl, rfl, fun h => h 0 _ rfl "user:1:lock" _ rfl rfl⟩

end Ghost.Cache
