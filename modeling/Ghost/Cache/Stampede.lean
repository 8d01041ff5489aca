import Ghost.Cache.Steps

/-!
# Stampede protection (cache/cache_aside.go)

The lock keeps a second caller out of the locked section, but a waiter that has
spun for 500 ms runs `fn` whether or not the lock is still held, and the default
lock lives for ten seconds.
-/

namespace Ghost.Cache
open Go Transition

-- The entry that `i`'s own `SetNX` made is still there.
def HoldsLock (s : Sys) (i : Nat) : Prop :=
  ∃ x, Expiring.lookup s.store s.now (s.callers i).args.lockKey = some x ∧ x.owner = some i

def SameKey (s : Sys) (i j : Nat) : Prop := (s.callers i).args.key = (s.callers j).args.key

/-- While a caller that holds the lock runs `fn`, no other caller of its key does. -/
def Exclusive (s : Sys) : Prop :=
  ∀ i j, i ≠ j → SameKey s i j → (s.callers i).pc = .leading → HoldsLock s i →
    (s.callers j).pc.inFn = false

-- in `fn`, or in the locked section before it
def Pc.busy (pc : Pc) : Bool := pc.ahead || pc.inFn

/- `SetNX` succeeds only when no other caller of the key is on its way through `fn`,
and a waiter gives up only when no other caller that is still computing holds the lock. -/
def NoOverlap (s : Sys) : Action → Prop
  | .setNX i none => (s.callers i).pc = .acquire →
      Expiring.lookup s.store s.now (s.callers i).args.lockKey = none →
      ∀ j, j ≠ i → SameKey s i j → (s.callers j).pc.busy = false
  | .clock i => ∀ deadline backoff, (s.callers i).pc = .spin deadline backoff → deadline ≤ s.now →
      ∀ j, j ≠ i → SameKey s i j → (s.callers j).pc.ahead = true → ¬ HoldsLock s j
  | _ => True

def Alone (s : Sys) : Prop :=
  ∀ i j, i ≠ j → SameKey s i j → (s.callers i).pc.ahead = true → HoldsLock s i →
    (s.callers j).pc.busy = false

theorem Alone.exclusive {s : Sys} (h : Alone s) : Exclusive s := by
  intro i j hij hkey hpc hlock
  have hbusy := h i j hij hkey (by rw [hpc]; rfl) hlock
  exact (Bool.or_eq_false_iff.mp hbusy).2

-- Reading back a lock that was not just written.
theorem holdsLock_put {s : Sys} {key : String} {x : Stored} {e : Option Int} {i : Nat}
    (hx : x.owner ≠ some i) (h : HoldsLock { s with store := Expiring.put s.store key x e } i) :
    HoldsLock s i := by
  obtain ⟨y, hy, howner⟩ := h
  by_cases hk : (s.callers i).args.lockKey = key
  · have hy' : Expiring.lookup (Expiring.put s.store key x e) s.now key = some y := by
      rw [← hk] at hy ⊢
      exact hy
    rw [Expiring.lookup_put_eq hy'] at howner
    exact absurd howner hx
  · refine ⟨y, ?_, howner⟩
    rw [← Expiring.lookup_put_other hk]
    exact hy

theorem holdsLock_del {s : Sys} {key : String} {i : Nat}
    (h : HoldsLock { s with store := del s.store key } i) : HoldsLock s i := by
  obtain ⟨y, hy, howner⟩ := h
  by_cases hk : (s.callers i).args.lockKey = key
  · have hy' : Expiring.lookup (Expiring.remove s.store key) s.now key = some y := by
      rw [← hk] at hy ⊢
      exact hy
    rw [Expiring.lookup_remove_self] at hy'
    cases hy'
  · refine ⟨y, ?_, howner⟩
    rw [← Expiring.lookup_remove_other hk]
    exact hy

theorem holdsLock_setPc {s : Sys} {i j : Nat} {pc : Pc} : HoldsLock (s.setPc i pc) j ↔ HoldsLock s j := by
  simp only [HoldsLock, setPc_store, setPc_now, setPc_args]

theorem sameKey_setPc {s : Sys} {i j k : Nat} {pc : Pc} : SameKey (s.setPc i pc) j k ↔ SameKey s j k := by
  simp only [SameKey, setPc_args]

-- A move that gets nobody closer to `fn`.
theorem Alone.setPc {s : Sys} (hs : Alone s) {i : Nat} {pc : Pc} (h : Narrows (s.callers i).pc pc) :
    Alone (s.setPc i pc) := by
  have hahead : ∀ j, ((s.setPc i pc).callers j).pc.ahead = true → (s.callers j).pc.ahead = true := by
    intro j hj
    by_cases hji : j = i
    · subst hji
      rw [setPc_self] at hj
      exact h.ahead hj
    · rw [setPc_other s pc hji] at hj
      exact hj
  have hbusy : ∀ j, (s.callers j).pc.busy = false → ((s.setPc i pc).callers j).pc.busy = false := by
    intro j hj
    by_cases hji : j = i
    · subst hji
      rw [setPc_self]
      obtain ⟨ha, hf⟩ := Bool.or_eq_false_iff.mp hj
      apply Bool.or_eq_false_iff.mpr
      constructor
      · apply Bool.eq_false_iff.mpr
        intro hnew
        exact absurd (h.ahead hnew) (by rw [ha]; simp)
      · apply Bool.eq_false_iff.mpr
        intro hnew
        rcases h.inFn hnew with hold | hold
        · exact absurd hold (by rw [hf]; simp)
        · exact absurd hold (by rw [ha]; simp)
    · rw [setPc_other s pc hji]
      exact hj
  intro j k hjk hkey hj hlock
  exact hbusy k (hs j k hjk (sameKey_setPc.mp hkey) (hahead j hj) (holdsLock_setPc.mp hlock))

-- Losing locks, by expiry or removal, keeps the rest alone.
theorem Alone.of_store {s t : Sys} (hs : Alone s) (hcallers : t.callers = s.callers)
    (hlock : ∀ i, HoldsLock t i → HoldsLock s i) : Alone t := by
  intro i j hij hkey hi hl
  unfold SameKey at hkey
  rw [hcallers] at hkey hi ⊢
  exact hs i j hij hkey hi (hlock i hl)

theorem Alone.call {s : Sys} (hs : Alone s) (i : Nat) (args : Args) (ctxDone : Bool) :
    Alone { s with callers := Function.update s.callers i ⟨args, .lookup, ctxDone⟩ } := by
  intro j k hjk hkey hj hlock
  simp only [SameKey, HoldsLock] at hkey hj hlock ⊢
  by_cases hji : j = i
  · subst hji
    rw [Function.update_self] at hj
    cases hj
  · rw [Function.update_of_ne hji] at hkey hj hlock
    by_cases hki : k = i
    · subst hki
      rw [Function.update_self]
      rfl
    · rw [Function.update_of_ne hki] at hkey ⊢
      exact hs j k hjk hkey hj hlock

theorem Alone.cancel {s : Sys} (hs : Alone s) (i : Nat) :
    Alone { s with callers := Function.update s.callers i { s.callers i with ctxDone := true } } := by
  have hsame : ∀ j, (Function.update s.callers i { s.callers i with ctxDone := true } j).args =
      (s.callers j).args ∧ (Function.update s.callers i { s.callers i with ctxDone := true } j).pc =
      (s.callers j).pc := by
    intro j
    by_cases hji : j = i
    · subst hji
      rw [Function.update_self]
      exact ⟨rfl, rfl⟩
    · rw [Function.update_of_ne hji]
      exact ⟨rfl, rfl⟩
  intro j k hjk hkey hj hlock
  simp only [SameKey, HoldsLock, (hsame j).1, (hsame k).1, (hsame j).2, (hsame k).2] at hkey hj hlock ⊢
  exact hs j k hjk hkey hj hlock

theorem Alone.fallback {s : Sys} (hs : Alone s) {i : Nat}
    (hok : ∀ j, j ≠ i → SameKey s i j → (s.callers j).pc.ahead = true → ¬ HoldsLock s j) :
    Alone (s.setPc i .fallback) := by
  intro j k hjk hkey hj hlock
  rw [holdsLock_setPc] at hlock
  rw [sameKey_setPc] at hkey
  by_cases hji : j = i
  · subst hji
    rw [setPc_self] at hj
    cases hj
  · rw [setPc_other s _ hji] at hj
    by_cases hki : k = i
    · subst hki
      exact absurd hlock (hok j hji hkey.symm hj)
    · rw [setPc_other s _ hki]
      exact hs j k hjk hkey hj hlock

theorem Alone.acquired {s : Sys} (hs : Alone s) {i : Nat} {x : Stored} {e : Option Int}
    (howner : x.owner = some i)
    (hfree : Expiring.lookup s.store s.now (s.callers i).args.lockKey = none)
    (hok : ∀ j, j ≠ i → SameKey s i j → (s.callers j).pc.busy = false) :
    Alone ({ s with store := Expiring.put s.store (s.callers i).args.lockKey x e }.setPc i .doubleCheck) := by
  intro j k hjk hkey hj hlock
  rw [holdsLock_setPc] at hlock
  rw [sameKey_setPc] at hkey
  by_cases hji : j = i
  · subst hji
    rw [setPc_other _ _ (Ne.symm hjk)]
    exact hok k (Ne.symm hjk) hkey
  · rw [setPc_other _ _ hji] at hj
    -- the lock of `j` is not the one just taken
    have hold : HoldsLock s j := by
      apply holdsLock_put _ hlock
      rw [howner]
      exact fun heq => hji (Option.some.inj heq).symm
    by_cases hki : k = i
    · subst hki
      obtain ⟨y, hy, -⟩ := hold
      have hkeys : (s.callers j).args.lockKey = (s.callers k).args.lockKey :=
        congrArg (· ++ lockSuffix) hkey
      rw [hkeys, hfree] at hy
      cases hy
    · rw [setPc_other _ _ hki]
      exact hs j k hjk hkey hj hold

theorem step_alone (s : Sys) (a : Action) (t : Sys) (hs : Alone s) (hok : NoOverlap s a)
    (h : step s a = some t) : Alone t := by
  cases step_sysStep h with
  | tick d =>
    have hlock : ∀ i, HoldsLock { s with now := s.now + d } i → HoldsLock s i := by
      intro i ⟨x, hx, howner⟩
      exact ⟨x, Expiring.lookup_mono (by show s.now ≤ s.now + d; omega) hx, howner⟩
    exact Alone.of_store hs rfl hlock
  | call i args hpc => exact hs.call i args _
  | cancel i => exact hs.cancel i
  | go a i old new hpc hgo =>
    rcases hgo.narrows_or_gaveUp with hn | ⟨deadline, backoff, rfl, rfl, rfl, hnow⟩
    · exact hs.setPc (by rw [hpc]; exact hn)
    · exact hs.fallback (hok deadline backoff hpc hnow)
  | acquired i hpc hfree => exact hs.acquired rfl hfree (hok hpc hfree)
  | stored i result hpc =>
    apply Alone.setPc
    · exact hs.of_store rfl fun j hj => holdsLock_put (by simp) hj
    · show Narrows (s.callers i).pc _
      rw [hpc]
      exact ⟨fun _ => rfl, by simp [Pc.ahead], by simp [Pc.inFn]⟩
  | released i ret hpc =>
    apply Alone.setPc
    · exact hs.of_store rfl fun j hj => holdsLock_del hj
    · exact narrows_out rfl rfl

theorem start_alone (store : Store) (now : Int) : Alone (.start store now) := by
  intro i j _ _ hi _
  cases hi

/-! ### Breaking exclusion -/

theorem lockTTL_pos (a : Args) : 0 < a.lockTTL := by
  simp only [Args.lockTTL]
  split
  · decide
  · omega

theorem expiry_future (now : Int) {ttl : Int} (h : 0 < ttl) {t : Int} (ht : expiry now ttl = some t) :
    now < t := by
  simp only [expiry, if_pos h, Option.some.injEq] at ht
  have hmax : (1 : Int) ≤ max 1 (ttl / millisecond) := by omega
  have hms : (0 : Int) < max 1 (ttl / millisecond) * millisecond := Int.mul_pos (by omega) (by decide)
  omega

-- A lock just taken is held.
theorem acquired_holds (s : Sys) (i : Nat) :
    HoldsLock { s with
      store := Expiring.put s.store (s.callers i).args.lockKey ⟨(s.callers i).args.lockKey, some i⟩
        (expiry s.now (s.callers i).args.lockTTL) } i :=
  ⟨_, Expiring.lookup_put_self fun _ ht => expiry_future s.now (lockTTL_pos _) ht, rfl⟩

-- A caller in the locked section can go on into `fn`.
theorem ahead_leads {s : Sys} {i : Nat} (h : (s.callers i).pc.ahead = true) :
    ∃ more, exec step s more = some (s.setPc i .leading) := by
  cases hpc : (s.callers i).pc with
  | doubleCheck =>
    refine ⟨[.get i (some canceled)], exec_single ?_⟩
    simp [step, stepGet, hpc, Sys.read]
  | leading =>
    refine ⟨[], ?_⟩
    have hsame : { s.callers i with pc := .leading } = s.callers i := by
      rw [← hpc]
    rw [Sys.setPc, hsame, Function.update_eq_self]
    rfl
  | _ =>
    rw [hpc] at h
    cases h

theorem leads_not_exclusive {s : Sys} {i j : Nat} (hij : i ≠ j) (hkey : SameKey s i j)
    (hlock : HoldsLock s i) (hi : (s.callers i).pc.ahead = true) (hj : (s.callers j).pc.inFn = true) :
    ∃ more u, exec step s more = some u ∧ ¬ Exclusive u := by
  obtain ⟨more, hmore⟩ := ahead_leads hi
  refine ⟨more, _, hmore, fun h => ?_⟩
  have hfalse := h i j hij (sameKey_setPc.mpr hkey) (setPc_self ..) (holdsLock_setPc.mpr hlock)
  rw [setPc_other s _ (Ne.symm hij), hj] at hfalse
  cases hfalse

-- With a second caller on its way, both can be brought into `fn`.
theorem busy_not_exclusive {s : Sys} {i j : Nat} (hij : i ≠ j) (hkey : SameKey s i j)
    (hlock : HoldsLock s i) (hi : (s.callers i).pc.ahead = true) (hj : (s.callers j).pc.busy = true) :
    ∃ more u, exec step s more = some u ∧ ¬ Exclusive u := by
  rcases Bool.or_eq_true_iff.mp hj with hahead | hfn
  · obtain ⟨more, hmore⟩ := ahead_leads hahead
    have hi' : ((s.setPc j .leading).callers i).pc.ahead = true := by
      rw [setPc_other s _ hij]
      exact hi
    have hj' : ((s.setPc j .leading).callers j).pc.inFn = true := by
      rw [setPc_self]
      rfl
    obtain ⟨more', u, hu, hne⟩ := leads_not_exclusive hij (sameKey_setPc.mpr hkey)
      (holdsLock_setPc.mpr hlock) hi' hj'
    exact ⟨more ++ more', u, exec_trans hmore hu, hne⟩
  · exact leads_not_exclusive hij hkey hlock hi hfn

theorem acquire_overlaps {s t : Sys} {i j : Nat} (ht : step s (.setNX i none) = some t)
    (hpc : (s.callers i).pc = .acquire)
    (hfree : Expiring.lookup s.store s.now (s.callers i).args.lockKey = none) (hji : j ≠ i)
    (hkey : SameKey s i j) (hj : (s.callers j).pc.busy = true) :
    ∃ more u, exec step t more = some u ∧ ¬ Exclusive u := by
  simp only [step, stepSetNX, hpc, setNX, hfree, Option.some.injEq] at ht
  subst ht
  apply busy_not_exclusive (Ne.symm hji)
  · exact sameKey_setPc.mpr hkey
  · exact holdsLock_setPc.mpr (acquired_holds s i)
  · rw [setPc_self]
    rfl
  · rw [setPc_other _ _ hji]
    exact hj

theorem fallback_overlaps {s t : Sys} {i j : Nat} {deadline backoff : Int}
    (ht : step s (.clock i) = some t) (hpc : (s.callers i).pc = .spin deadline backoff)
    (hnow : deadline ≤ s.now) (hji : j ≠ i) (hkey : SameKey s i j)
    (hj : (s.callers j).pc.ahead = true) (hlock : HoldsLock s j) :
    ∃ more u, exec step t more = some u ∧ ¬ Exclusive u := by
  simp only [step, stepClock, hpc, if_neg (Int.not_lt.mpr hnow), Option.some.injEq] at ht
  subst ht
  apply busy_not_exclusive hji
  · exact sameKey_setPc.mpr (Eq.symm hkey)
  · exact holdsLock_setPc.mpr hlock
  · rw [setPc_other _ _ hji]
    exact hj
  · rw [setPc_self]
    rfl

/-- A caller that holds the lock in `fn` is alone there in every run in which
`SetNX` succeeds only with no other caller of the key on its way through `fn`,
and a waiter gives up only with no other caller computing under a live lock.
One step outside that leads to two callers in `fn` under a live lock. -/
theorem exclusive_exactGuard (store : Store) (now : Int) :
    ExactGuard step (.start store now) NoOverlap Exclusive where
  holds as s h hok := (exec_invariant_meets step_alone (start_alone store now) hok h).exclusive
  fails := by
    intro as s a t h ha hbad
    cases a with
    | setNX i fail =>
      cases fail with
      | some e => exact absurd trivial hbad
      | none =>
        simp only [NoOverlap, not_forall, Bool.not_eq_false] at hbad
        obtain ⟨hpc, hfree, j, hji, hkey, hj⟩ := hbad
        exact acquire_overlaps ha hpc hfree hji hkey hj
    | clock i =>
      simp only [NoOverlap, not_forall, not_not] at hbad
      obtain ⟨deadline, backoff, hpc, hnow, j, hji, hkey, hj, hlock⟩ := hbad
      exact fallback_overlaps ha hpc hnow hji hkey hj hlock
    | _ => exact absurd trivial hbad

/-! ### A waiter that gives up -/

def profile : Args := ⟨"user:1", 60 * second, []⟩

-- Both miss; caller 0 takes the lock and starts `fn`, caller 1 finds the lock taken.
def contend : List Action :=
  [.call 0 profile, .call 1 profile, .get 0 none, .get 1 none, .setNX 0 none, .setNX 1 none,
    .get 0 none, .clock 1]

-- Half a second later the lock has still 9.5 s to live, and `fn` has not returned.
def giveUp : List Action := contend ++ [.tick 500000000, .clock 1]

theorem giveUp_two_in_fn :
    ∃ s, exec step (.start (fun _ => none) 0) giveUp = some s ∧ (s.callers 0).pc = .leading ∧ HoldsLock s 0 ∧
      SameKey s 0 1 ∧ (s.callers 1).pc = .fallback :=
  ⟨_, rfl, rfl, ⟨_, rfl, rfl⟩, rfl, rfl⟩

end Ghost.Cache
