import Ghost.Cache.Stampede

/-!
# Who releases the lock (cache/cache_aside.go)

The deferred `Del(lockKey)` does not look at what it deletes, and the entry does
not say who made it. A lock that expires under its holder and is taken again is
then deleted by the first holder.
-/

namespace Ghost.Cache
open Go Transition

/-- No deferred `Del` has removed an entry of another caller's `SetNX`. -/
def ReleasesOwn (s : Sys) : Prop := ∀ p ∈ s.dels, ∀ j, p.2 = some j → p.1 = j

-- `SetNX` succeeds only when no other caller of the key has still to run its `Del`.
def OneHolder (s : Sys) : Action → Prop
  | .setNX i none => (s.callers i).pc = .acquire →
      Expiring.lookup s.store s.now (s.callers i).args.lockKey = none →
      ∀ j, j ≠ i → SameKey s i j → (s.callers j).pc.holding = false
  | _ => True

-- A holder finds under its lock key no entry of anyone else.
def OwnsLock (s : Sys) (i : Nat) : Prop :=
  ∀ x, Expiring.lookup s.store s.now (s.callers i).args.lockKey = some x →
    ∀ j, x.owner = some j → i = j

structure Owned (s : Sys) : Prop where
  holders : ∀ i, (s.callers i).pc.holding = true → OwnsLock s i
  dels : ReleasesOwn s

theorem lockKey_injective {a b : Args} (h : a.lockKey = b.lockKey) : a.key = b.key := by
  have hl := congrArg String.toList h
  simp only [Args.lockKey, String.toList_append] at hl
  exact String.toList_inj.mp (List.append_cancel_right hl)

theorem ownsLock_setPc {s : Sys} {i j : Nat} {pc : Pc} : OwnsLock (s.setPc i pc) j ↔ OwnsLock s j := by
  simp only [OwnsLock, setPc_store, setPc_now, setPc_args]

theorem Owned.setPc {s : Sys} (hs : Owned s) {i : Nat} {pc : Pc}
    (h : pc.holding = true → (s.callers i).pc.holding = true) : Owned (s.setPc i pc) := by
  refine ⟨?_, hs.dels⟩
  intro j hj
  rw [ownsLock_setPc]
  apply hs.holders j
  by_cases hji : j = i
  · subst hji
    rw [setPc_self] at hj
    exact h hj
  · rw [setPc_other s _ hji] at hj
    exact hj

theorem Owned.of_store {s t : Sys} (hs : Owned s) (hcallers : t.callers = s.callers)
    (hlock : ∀ i, OwnsLock s i → OwnsLock t i) (hdels : ReleasesOwn t) : Owned t := by
  refine ⟨?_, hdels⟩
  intro i hi
  rw [hcallers] at hi
  exact hlock i (hs.holders i hi)

theorem ownsLock_put {s : Sys} {key : String} {x : Stored} {e : Option Int} {i : Nat}
    (h : OwnsLock s i) (hx : (s.callers i).args.lockKey = key → ∀ j, x.owner = some j → i = j) :
    OwnsLock { s with store := Expiring.put s.store key x e } i := by
  intro y hy
  change Expiring.lookup (Expiring.put s.store key x e) s.now (s.callers i).args.lockKey = some y at hy
  by_cases hk : (s.callers i).args.lockKey = key
  · rw [hk] at hy
    rw [Expiring.lookup_put_eq hy]
    exact hx hk
  · rw [Expiring.lookup_put_other hk] at hy
    exact h y hy

theorem ownsLock_del {s : Sys} {key : String} {i : Nat} (h : OwnsLock s i) (d : List (Nat × Option Nat)) :
    OwnsLock { s with store := del s.store key, dels := d } i := by
  intro y hy
  change Expiring.lookup (Expiring.remove s.store key) s.now (s.callers i).args.lockKey = some y at hy
  by_cases hk : (s.callers i).args.lockKey = key
  · rw [hk, Expiring.lookup_remove_self] at hy
    cases hy
  · rw [Expiring.lookup_remove_other hk] at hy
    exact h y hy

theorem Owned.acquired {s : Sys} (hs : Owned s) {i : Nat} {x : Stored} {e : Option Int}
    (howner : x.owner = some i)
    (hok : ∀ j, j ≠ i → SameKey s i j → (s.callers j).pc.holding = false) :
    Owned ({ s with store := Expiring.put s.store (s.callers i).args.lockKey x e }.setPc i .doubleCheck) := by
  refine ⟨?_, hs.dels⟩
  intro j hj
  rw [ownsLock_setPc]
  by_cases hji : j = i
  · subst hji
    intro y hy k hk
    rw [Expiring.lookup_put_eq hy, howner] at hk
    exact Option.some.inj hk
  · rw [setPc_other _ _ hji] at hj
    apply ownsLock_put (hs.holders j hj)
    intro hkey
    have hno := hok j hji (lockKey_injective hkey).symm
    exact absurd hj (by rw [show (s.callers j).pc.holding = false from hno]; simp)

theorem Owned.released {s : Sys} (hs : Owned s) {i : Nat} {ret : Except Error String}
    (hpc : (s.callers i).pc = .releasing ret) :
    Owned ({ s with
      store := del s.store (s.callers i).args.lockKey
      dels := s.dels ++ ((Expiring.lookup s.store s.now (s.callers i).args.lockKey).map
        fun x : Stored => (i, x.owner)).toList }.setPc i (.done ret)) := by
  have hown := hs.holders i (by rw [hpc]; rfl)
  have hdels : ∀ p ∈ s.dels ++ ((Expiring.lookup s.store s.now (s.callers i).args.lockKey).map
      fun x : Stored => (i, x.owner)).toList, ∀ j, p.2 = some j → p.1 = j := by
    intro p hp j hj
    rcases List.mem_append.mp hp with hp | hp
    · exact hs.dels p hp j hj
    · obtain ⟨x, hx, rfl⟩ := Option.map_eq_some_iff.mp (Option.mem_toList.mp hp)
      exact hown x hx j hj
  apply Owned.setPc
  · refine Owned.of_store hs ?_ ?_ hdels
    · rfl
    · exact fun j hj => ownsLock_del hj _
  · intro h
    cases h

theorem step_owned (s : Sys) (a : Action) (t : Sys) (hs : Owned s) (hok : OneHolder s a)
    (h : step s a = some t) : Owned t := by
  cases step_sysStep h with
  | tick d =>
    have hlock : ∀ i, OwnsLock s i → OwnsLock { s with now := s.now + d } i := by
      intro i hi x hx
      exact hi x (Expiring.lookup_mono (by show s.now ≤ s.now + d; omega) hx)
    exact Owned.of_store hs rfl hlock hs.dels
  | call i args hpc =>
    refine ⟨?_, hs.dels⟩
    intro j hj
    simp only [OwnsLock] at hj ⊢
    by_cases hji : j = i
    · subst hji
      rw [Function.update_self] at hj
      cases hj
    · rw [Function.update_of_ne hji] at hj ⊢
      exact hs.holders j hj
  | cancel i =>
    refine ⟨?_, hs.dels⟩
    intro j hj
    simp only [OwnsLock] at hj ⊢
    by_cases hji : j = i
    · subst hji
      rw [Function.update_self] at hj ⊢
      exact hs.holders j hj
    · rw [Function.update_of_ne hji] at hj ⊢
      exact hs.holders j hj
  | go a i old new hpc hgo =>
    apply hs.setPc
    rw [hpc]
    rcases hgo.narrows_or_gaveUp with hn | ⟨deadline, backoff, rfl, rfl, rfl, hnow⟩
    · exact hn.holding
    · intro h
      cases h
  | acquired i hpc hfree => exact hs.acquired rfl (hok hpc hfree)
  | stored i result hpc =>
    apply Owned.setPc
    · exact hs.of_store rfl (fun j hj => ownsLock_put hj (by simp)) hs.dels
    · intro _
      show (s.callers i).pc.holding = true
      rw [hpc]
      rfl
  | released i ret hpc => exact hs.released hpc

theorem start_owned (store : Store) (now : Int) : Owned (.start store now) := by
  refine ⟨?_, fun p hp => absurd hp List.not_mem_nil⟩
  intro i hi
  cases hi

/-! ### Deleting another caller's lock -/

theorem setPc_setPc (s : Sys) (i : Nat) (pc pc' : Pc) : (s.setPc i pc).setPc i pc' = s.setPc i pc' := by
  simp [Sys.setPc]

-- A holder can run to its deferred `Del` without touching the store.
theorem holding_releases {s : Sys} {i : Nat} (h : (s.callers i).pc.holding = true) :
    ∃ more ret, exec step s more = some (s.setPc i (.releasing ret)) := by
  cases hpc : (s.callers i).pc with
  | doubleCheck =>
    refine ⟨[.get i (some canceled), .fn i (.error canceled)], .error canceled, ?_⟩
    have hget : step s (.get i (some canceled)) = some (s.setPc i .leading) := by
      simp [step, stepGet, hpc, Sys.read]
    apply exec_cons_eq_some.mpr
    refine ⟨_, hget, exec_single ?_⟩
    simp [step, stepFn, setPc_setPc]
  | leading =>
    refine ⟨[.fn i (.error canceled)], .error canceled, exec_single ?_⟩
    simp [step, stepFn, hpc]
  | storing result =>
    refine ⟨[.set i (some canceled)], .error canceled, exec_single ?_⟩
    simp [step, stepSet, hpc]
  | releasing ret =>
    refine ⟨[], ret, ?_⟩
    have hsame : { s.callers i with pc := .releasing ret } = s.callers i := by
      rw [← hpc]
    rw [Sys.setPc, hsame, Function.update_eq_self]
    rfl
  | _ =>
    rw [hpc] at h
    cases h

theorem holder_deletes_other {s : Sys} {i j : Nat} (hji : j ≠ i) (hkey : SameKey s i j)
    (hlock : HoldsLock s i) (hj : (s.callers j).pc.holding = true) :
    ∃ more u, exec step s more = some u ∧ ¬ ReleasesOwn u := by
  obtain ⟨more, ret, hmore⟩ := holding_releases hj
  obtain ⟨x, hx, howner⟩ := hlock
  have hkeys : (s.callers j).args.lockKey = (s.callers i).args.lockKey :=
    congrArg (· ++ lockSuffix) hkey.symm
  have hdel : step (s.setPc j (.releasing ret)) (.del j none) = some ({ s.setPc j (.releasing ret) with
      store := del s.store (s.callers i).args.lockKey
      dels := s.dels ++ [(j, x.owner)] }.setPc j (.done ret)) := by
    simp only [step, stepDel, setPc_self, setPc_args, setPc_store, setPc_now, setPc_dels, hkeys, hx]
    rfl
  refine ⟨more ++ [.del j none], _, exec_trans hmore (exec_single hdel), ?_⟩
  intro h
  have hmem : (j, some i) ∈ s.dels ++ [(j, x.owner)] := by
    rw [howner]
    exact List.mem_append_right _ (List.mem_singleton.mpr rfl)
  exact hji (h (j, some i) hmem i rfl)

/-- Every caller releases only its own lock in every run in which `SetNX`
succeeds only with no other caller of the key between its own `SetNX` and its
deferred `Del`; after one success outside that, the other's `Del` can remove the new lock. -/
theorem releasesOwn_exactGuard (store : Store) (now : Int) :
    ExactGuard step (.start store now) OneHolder ReleasesOwn where
  holds as s h hok := (exec_invariant_meets step_owned (start_owned store now) hok h).dels
  fails := by
    intro as s a t h ha hbad
    cases a with
    | setNX i fail =>
      cases fail with
      | some e => exact absurd trivial hbad
      | none =>
        simp only [OneHolder, not_forall, Bool.not_eq_false] at hbad
        obtain ⟨hpc, hfree, j, hji, hkey, hj⟩ := hbad
        simp only [step, stepSetNX, hpc, setNX, hfree, Option.some.injEq] at ha
        subst ha
        apply holder_deletes_other hji
        · exact sameKey_setPc.mpr hkey
        · exact holdsLock_setPc.mpr (acquired_holds s i)
        · rw [setPc_other _ _ hji]
          exact hj
    | _ => exact absurd trivial hbad

/-! ### A lock that expires under its holder -/

def shortLock : Args := ⟨"user:1", 60 * second, [⟨1 * second, false⟩]⟩

/- Caller 0 takes a lock of one second and computes for 1.5 s; caller 1 arrives at
the expiry and takes the lock; caller 0 finishes and deletes it. -/
def lateRelease : List Action :=
  [.call 0 shortLock, .get 0 none, .setNX 0 none, .get 0 none, .tick 1000000000,
    .call 1 shortLock, .get 1 none, .setNX 1 none, .get 1 none, .tick 500000000,
    .fn 0 (.ok "v"), .set 0 none, .del 0 none]

theorem lateRelease_removes_other_lock :
    ∃ s, exec step (.start (fun _ => none) 0) lateRelease = some s ∧ s.dels = [(0, some 1)] ∧
      (s.callers 1).pc = .leading :=
  ⟨_, rfl, rfl, rfl⟩

end Ghost.Cache
