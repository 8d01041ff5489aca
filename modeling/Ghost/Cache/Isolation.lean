import Ghost.Cache.RoundTrip

/-!
# One cache for all keys (cache/cache_aside.go)

The lock of a key is an entry of the same cache, named by the key and a suffix
that nothing escapes. A call on the name of another key's lock reads the lock as
its value, and the other call's release deletes what it has stored.
-/

namespace Ghost.Cache
open Go Transition

/-! ### What the calls on a key get and lose -/

structure Traffic where
  -- the results of `fn` in calls on the key
  results : List String
  -- for each `Del` that removed the entry of the key: the key of the call
  deleted : List String

def traffic (key : String) (s : Sys) (a : Action) (tr : Traffic) : Traffic :=
  match a with
  | .fn i (.ok r) =>
    if (s.callers i).args.key = key then { tr with results := tr.results ++ [r] } else tr
  | .del i none =>
    if (s.callers i).args.lockKey = key ∧ (Expiring.lookup s.store s.now key).isSome = true then
      { tr with deleted := tr.deleted ++ [(s.callers i).args.key] }
    else tr
  | _ => tr

/- All calls are on the two keys, and the results of `fn` in calls on the second
are in `range`. -/
def OnKeys (k₁ k₂ : String) (range : String → Prop) (s : Sys) : Action → Prop
  | .call _ args => args.key = k₁ ∨ args.key = k₂
  | .fn i (.ok r) => (s.callers i).args.key = k₂ → range r
  | _ => True

/-- From an empty cache, whatever the calls on the two keys do: a value that a call on
`k₂` returns is a result of `fn` in a call on `k₂`, and no call on `k₁` deletes
the entry of `k₂`. -/
def Isolated (k₁ k₂ : String) (range : String → Prop) : Prop :=
  ∀ now as s tr, exec (noted step (traffic k₂)) (.start (fun _ => none) now, ⟨[], []⟩) as = some (s, tr) →
    Meets step (OnKeys k₁ k₂ range) (.start (fun _ => none) now) as →
    (∀ i v, (s.callers i).args.key = k₂ → (s.callers i).pc = .done (.ok v) → v ∈ tr.results) ∧
      k₁ ∉ tr.deleted

theorem traffic_results {key : String} {s : Sys} {a : Action} {tr : Traffic} {v : String}
    (h : v ∈ tr.results) : v ∈ (traffic key s a tr).results := by
  unfold traffic
  split
  · split
    · exact List.mem_append_left _ h
    · exact h
  · split <;> exact h
  · exact h

theorem results_in_range {k₁ k₂ : String} {range : String → Prop} {s : Sys} {tr : Traffic} {a : Action}
    (h : ∀ v ∈ tr.results, range v) (hok : OnKeys k₁ k₂ range s a) :
    ∀ v ∈ (traffic k₂ s a tr).results, range v := by
  unfold traffic
  split
  · split
    · rename_i hkey
      intro v hv
      rcases List.mem_append.mp hv with hv | hv
      · exact h v hv
      · rw [List.mem_singleton.mp hv]
        exact hok hkey
    · exact h
  · split <;> exact h
  · exact h

/-! ### Keys of which neither is the other's lock -/

-- what a call has to return, or is about to store
def Pc.Yields (good : String → Prop) : Pc → Prop
  | .storing v => good v ∧ v ≠ nilSentinel
  | .releasing (.ok v) | .done (.ok v) => good v
  | _ => True

structure Apart (k₁ k₂ : String) (s : Sys) (tr : Traffic) : Prop where
  keys : ∀ i, (s.callers i).pc.active = true → (s.callers i).args.key = k₁ ∨ (s.callers i).args.key = k₂
  entry : ∀ x, Expiring.lookup s.store s.now k₂ = some x → fromStore x.value ∈ tr.results
  yields : ∀ i, (s.callers i).args.key = k₂ → (s.callers i).pc.Yields (· ∈ tr.results)
  deleted : tr.deleted = []

section Apart

variable {k₁ k₂ : String} {range : String → Prop} {s t : Sys} {tr tr' : Traffic} {i : Nat} {pc : Pc}

theorem Pc.Yields.mono {p q : String → Prop} (h : pc.Yields p) (hpq : ∀ v, p v → q v) : pc.Yields q := by
  cases pc with
  | storing v => exact ⟨hpq v h.1, h.2⟩
  | releasing ret | done ret =>
    cases ret with
    | ok v => exact hpq v h
    | error e => trivial
  | _ => trivial

-- The lock key of a call is not `k₂`.
theorem Apart.lockKey_ne (hs : Apart k₁ k₂ s tr) (hne : k₂ ≠ k₁ ++ lockSuffix)
    (hactive : (s.callers i).pc.active = true) : (s.callers i).args.lockKey ≠ k₂ := by
  intro h
  rcases hs.keys i hactive with hkey | hkey
  · rw [Args.lockKey, hkey] at h
    exact hne h.symm
  · rw [Args.lockKey, hkey] at h
    exact lockKey_ne_key k₂ h

/- Caller `i` moves to `pc`, and what is new under `k₂` is a result. -/
theorem Apart.moved (hs : Apart k₁ k₂ s tr) (hcallers : t.callers = (s.setPc i pc).callers)
    (hactive : pc.active = true → (s.callers i).pc.active = true)
    (hentry : ∀ x, Expiring.lookup t.store t.now k₂ = some x → fromStore x.value ∈ tr'.results)
    (hresults : ∀ v ∈ tr.results, v ∈ tr'.results) (hdeleted : tr'.deleted = [])
    (hyields : (s.callers i).args.key = k₂ → pc.Yields (· ∈ tr'.results)) : Apart k₁ k₂ t tr' := by
  refine ⟨?_, hentry, ?_, hdeleted⟩
  · intro j hj
    rw [hcallers] at hj ⊢
    rw [setPc_args]
    by_cases hji : j = i
    · subst hji
      rw [setPc_self] at hj
      exact hs.keys j (hactive hj)
    · rw [setPc_other s pc hji] at hj
      exact hs.keys j hj
  · intro j hj
    rw [hcallers] at hj ⊢
    rw [setPc_args] at hj
    by_cases hji : j = i
    · subst hji
      rw [setPc_self]
      exact hyields hj
    · rw [setPc_other s pc hji]
      exact (hs.yields j hj).mono hresults

theorem Apart.read (hs : Apart k₁ k₂ s tr) {key val : String} {fail : Option Error} (hkey : key = k₂)
    (hread : s.read key fail = .ok val) : fromStore val ∈ tr.results := by
  subst hkey
  obtain ⟨x, hx, rfl⟩ := read_eq_ok hread
  exact hs.entry x hx

theorem Goes.yields {a : Action} {old new : Pc} (hs : Apart k₁ k₂ s tr) (hrange : ¬ range nilSentinel)
    (hok : OnKeys k₁ k₂ range s a) (hkey : (s.callers i).args.key = k₂) (hold : old.Yields (· ∈ tr.results))
    (h : Goes s i a old new) : new.Yields (· ∈ (traffic k₂ s a tr).results) := by
  cases h with
  | hit fail val hread | recheckHit fail val hread | spinHit fail val _ _ hread =>
    exact hs.read hkey hread
  | computed result =>
    refine ⟨?_, ?_⟩
    · simp [traffic, hkey]
    · rintro rfl
      exact hrange (hok hkey)
  | fellBack ret =>
    cases ret with
    | ok v => simp [Pc.Yields, traffic, hkey]
    | error e => trivial
  | delFailed e ret =>
    cases ret with
    | ok v => exact hold
    | error e => trivial
  | _ => trivial

-- The `Del` that removes an entry is not among these branches.
theorem Goes.deleted {a : Action} {old new : Pc} {key : String} (h : Goes s i a old new) :
    (traffic key s a tr).deleted = tr.deleted := by
  cases h with
  | computed result =>
    simp only [traffic]
    split <;> rfl
  | fellBack ret =>
    cases ret with
    | ok v =>
      simp only [traffic]
      split <;> rfl
    | error e => rfl
  | _ => rfl

theorem apart_step (hne : k₂ ≠ k₁ ++ lockSuffix) (hrange : ¬ range nilSentinel) (s : Sys) (tr : Traffic)
    (a : Action) (t : Sys) (hs : Apart k₁ k₂ s tr) (hok : OnKeys k₁ k₂ range s a) (h : step s a = some t) :
    Apart k₁ k₂ t (traffic k₂ s a tr) := by
  cases step_sysStep h with
  | tick d =>
    refine ⟨hs.keys, ?_, hs.yields, hs.deleted⟩
    intro x hx
    exact hs.entry x (Expiring.lookup_mono (show s.now ≤ s.now + d by omega) hx)
  | call i args hpc =>
    refine ⟨?_, hs.entry, ?_, hs.deleted⟩
    · intro j hj
      by_cases hji : j = i
      · simp only [hji, Function.update_self]
        exact hok
      · simp only [Function.update_of_ne hji] at hj ⊢
        exact hs.keys j hj
    · intro j hj
      by_cases hji : j = i
      · simp only [hji, Function.update_self]
        trivial
      · simp only [Function.update_of_ne hji] at hj ⊢
        exact hs.yields j hj
  | cancel i =>
    refine ⟨?_, hs.entry, ?_, hs.deleted⟩
    · intro j hj
      by_cases hji : j = i
      · simp only [hji, Function.update_self] at hj ⊢
        exact hs.keys i hj
      · simp only [Function.update_of_ne hji] at hj ⊢
        exact hs.keys j hj
    · intro j hj
      by_cases hji : j = i
      · simp only [hji, Function.update_self] at hj ⊢
        exact hs.yields i hj
      · simp only [Function.update_of_ne hji] at hj ⊢
        exact hs.yields j hj
  | go a i old new hpc hgo =>
    subst hpc
    refine hs.moved rfl hgo.active (fun x hx => traffic_results (hs.entry x hx)) (fun v => traffic_results) ?_ ?_
    · exact hgo.deleted.trans hs.deleted
    · intro hkey
      exact hgo.yields hs hrange hok hkey (hs.yields i hkey)
  | acquired i hpc hfree =>
    have hlock := hs.lockKey_ne hne (i := i) (by rw [hpc]; rfl)
    refine hs.moved rfl (fun _ => by rw [hpc]; rfl) ?_ (fun _ hv => hv) hs.deleted fun _ => trivial
    intro x hx
    exact hs.entry x ((Expiring.lookup_put_other hlock.symm).symm.trans hx)
  | stored i result hpc =>
    have hyields : (s.callers i).args.key = k₂ → result ∈ tr.results ∧ result ≠ nilSentinel := by
      intro hkey
      have hi := hs.yields i hkey
      rw [hpc] at hi
      exact hi
    refine hs.moved rfl (fun _ => by rw [hpc]; rfl) ?_ (fun _ hv => hv) hs.deleted fun hkey => (hyields hkey).1
    intro x hx
    by_cases hkey : (s.callers i).args.key = k₂
    · obtain ⟨hmem, hsentinel⟩ := hyields hkey
      rw [← hkey] at hx
      rw [Expiring.lookup_put_eq hx, fromStore_storeVal _ hsentinel]
      exact hmem
    · exact hs.entry x ((Expiring.lookup_put_other (Ne.symm hkey)).symm.trans hx)
  | released i ret hpc =>
    have hlock := hs.lockKey_ne hne (i := i) (by rw [hpc]; rfl)
    have hsame : traffic k₂ s (.del i none) tr = tr := by simp [traffic, hlock]
    rw [hsame]
    refine hs.moved rfl (fun _ => by rw [hpc]; rfl) ?_ (fun _ hv => hv) hs.deleted fun hkey => ?_
    · intro x hx
      exact hs.entry x ((Expiring.lookup_remove_other hlock.symm).symm.trans hx)
    · have hi := hs.yields i hkey
      rw [hpc] at hi
      cases ret with
      | ok v => exact hi
      | error e => trivial

theorem apart_start (now : Int) : Apart k₁ k₂ (.start (fun _ => none) now) ⟨[], []⟩ :=
  ⟨nofun, nofun, fun _ _ => trivial, rfl⟩

end Apart

/-! ### Where they interfere -/

section Interference

variable {k₁ k₂ : String} {range : String → Prop} {now : Int} {s : Sys} {as : List Action}

/- On a run of such calls the values that calls on `k₂` return are in `range`. -/
theorem Isolated.in_range (h : Isolated k₁ k₂ range) (has : exec step (.start (fun _ => none) now) as = some s)
    (hok : Meets step (OnKeys k₁ k₂ range) (.start (fun _ => none) now) as) {i : Nat} {v : String}
    (hkey : (s.callers i).args.key = k₂) (hv : (s.callers i).pc = .done (.ok v)) : range v := by
  obtain ⟨tr, htr⟩ := exec_noted (traffic k₂) has ⟨[], []⟩
  have hstep : ∀ s (tr : Traffic) a t, True → (∀ v ∈ tr.results, range v) → OnKeys k₁ k₂ range s a →
      step s a = some t → ∀ v ∈ (traffic k₂ s a tr).results, range v :=
    fun _ _ _ _ _ hs hok _ => results_in_range hs hok
  have hresults := (noted_invariant (I := fun _ => True) (fun _ _ _ _ _ _ => trivial) hstep trivial
    (by simp) hok htr).2
  exact hresults v ((h now as s tr htr hok).1 i v hkey hv)

theorem Isolated.narrow (h : Isolated k₁ k₂ range) (range' : String → Prop) (hsub : ∀ v, range' v → range v) :
    Isolated k₁ k₂ range' := by
  intro now as s tr hrun hok
  refine h now as s tr hrun (hok.mono fun s a ha => ?_)
  cases a with
  | fn i ret =>
    cases ret with
    | ok r => exact fun hkey => hsub r (ha hkey)
    | error e => trivial
  | _ => exact ha

def callOn (key : String) : Args := ⟨key, 0, []⟩

-- A call on `k₁` holds its lock, and a call on `k₂` finds it.
theorem not_isolated_of_lock (h : Isolated k₁ (k₁ ++ lockSuffix) range) : False := by
  obtain ⟨s, hs, hat⟩ := call_misses (callOn k₁) (s := .start (fun _ => none) 0) (i := 0) rfl rfl
  have hfree : Expiring.lookup s.store s.now (s.callers 0).args.lockKey = none := by
    rw [hat.store]
    rfl
  have hlock := (SysStep.acquired 0 hat.pc hfree).step
  obtain ⟨t, ht⟩ : ∃ t, t = ({ s with
      store := Expiring.put s.store (s.callers 0).args.lockKey
        ⟨(s.callers 0).args.lockKey, some 0⟩ (expiry s.now (s.callers 0).args.lockTTL) }.setPc 0 .doubleCheck : Sys) :=
    ⟨_, rfl⟩
  rw [← ht] at hlock
  have hidle : (t.callers 1).pc = .idle := by
    rw [ht, setPc_other _ _ (by decide)]
    show (s.callers 1).pc = .idle
    rw [hat.others 1 (by decide)]
    rfl
  have hentry : Expiring.lookup t.store t.now (callOn (k₁ ++ lockSuffix)).key =
      some ⟨(callOn k₁).lockKey, some 0⟩ := by
    rw [ht, setPc_store, setPc_now, hat.args]
    exact Expiring.lookup_put_self fun _ he => expiry_future s.now (lockTTL_pos _) he
  obtain ⟨u, hu, hargs, hdone⟩ := hitSteps_hits hidle hentry
  have hrun := exec_trans (exec_trans hs (exec_single hlock)) hu
  refine (h.narrow (fun _ => False) fun _ => False.elim).in_range hrun ?_ (i := 1) ?_ hdone
  · apply meets_of_forall
    simp [hitSteps, OnKeys, callOn]
  · rw [hargs]
    rfl

-- A result that is the sentinel comes back as the empty string.
theorem not_isolated_of_sentinel (h : Isolated k₁ k₂ range) (hrange : range nilSentinel) : False := by
  obtain ⟨s, hs, -, hentry, hothers⟩ :=
    missSteps_stores (callOn k₂) nilSentinel (s := .start (fun _ => none) 0) (i := 0) rfl rfl rfl
  have hidle : (s.callers 1).pc = .idle := by
    rw [hothers 1 (by decide)]
    rfl
  obtain ⟨t, ht, hargs, hdone⟩ := hitSteps_hits hidle hentry
  have hempty : fromStore ((callOn k₂).storeVal nilSentinel) = nilSentinel := by
    refine (h.narrow (· = nilSentinel) fun v hv => by rwa [hv]).in_range (exec_trans hs ht) ?_
      (i := 1) ?_ hdone
    · apply meets_of_forall
      simp [missSteps, hitSteps, OnKeys, callOn]
    · rw [hargs]
      rfl
  rw [fromStore_nilSentinel] at hempty
  exact absurd hempty (by decide)

end Interference

/-- Calls on two keys keep apart exactly if the second is not the name of the first one's
lock and `fn` never returns the sentinel for it. -/
theorem isolated_iff (k₁ k₂ : String) (range : String → Prop) :
    Isolated k₁ k₂ range ↔ k₂ ≠ k₁ ++ lockSuffix ∧ ¬ range nilSentinel := by
  constructor
  · intro h
    refine ⟨?_, not_isolated_of_sentinel h⟩
    rintro rfl
    exact not_isolated_of_lock h
  · rintro ⟨hne, hrange⟩ now as s tr hrun hok
    have hstep : ∀ s tr a t, True → Apart k₁ k₂ s tr → OnKeys k₁ k₂ range s a → step s a = some t →
        Apart k₁ k₂ t (traffic k₂ s a tr) :=
      fun s tr a t _ hs hok h => apart_step hne hrange s tr a t hs hok h
    have hapart : Apart k₁ k₂ s tr := (noted_invariant (I := fun _ => True) (fun _ _ _ _ _ _ => trivial) hstep
      trivial (apart_start now) hok hrun).2
    refine ⟨?_, ?_⟩
    · intro i v hkey hv
      have hi := hapart.yields i hkey
      rw [hv] at hi
      exact hi
    · rw [hapart.deleted]
      exact List.not_mem_nil

/-- A call on the name of another key's lock gets the lock as its value, and a value stored
there goes with the lock. -/
theorem lock_served_and_deleted :
    (∃ s tr, exec (noted step (traffic "user:1:lock")) (.start (fun _ => none) 0, ⟨[], []⟩)
        [.call 0 (callOn "user:1"), .get 0 none, .setNX 0 none,
          .call 1 (callOn "user:1:lock"), .get 1 none] = some (s, tr) ∧
      (s.callers 1).pc = .done (.ok "user:1:lock") ∧ tr.results = []) ∧
    ∃ s tr, exec (noted step (traffic "user:1:lock")) (.start (fun _ => none) 0, ⟨[], []⟩)
        [.call 1 (callOn "user:1:lock"), .get 1 none, .setNX 1 none, .get 1 none, .fn 1 (.ok "ada"),
          .call 0 (callOn "user:1"), .get 0 none, .setNX 0 none, .get 0 none, .set 1 none, .del 1 none,
          .fn 0 (.ok "bob"), .set 0 none, .del 0 none] = some (s, tr) ∧
      (s.callers 1).pc = .done (.ok "ada") ∧ tr.deleted = ["user:1"] ∧
      Expiring.lookup s.store s.now "user:1:lock" = none :=
  ⟨⟨_, _, rfl, rfl, rfl⟩, _, _, rfl, rfl, rfl, rfl⟩

end Ghost.Cache
