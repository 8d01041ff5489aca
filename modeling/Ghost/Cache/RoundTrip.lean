import Ghost.Cache.SingleFlight

/-!
# Hits and misses (cache/cache_aside.go)

A call that misses and gets the lock stores what `fn` returned, and a later call is
served from the cache. An empty result is stored as it is unless `CacheNil` asks for
the sentinel, so it is served either way; and a result that is the sentinel itself
is served as the empty string. A call that finds the lock taken and waits in vain
stores nothing, whatever its result.
-/

namespace Ghost.Cache
open Go Transition

/-! ### Two calls in a row -/

/- The steps of one call, and time that does not expire the entry of its key. A
`Get` that fails does not report a miss. -/
def OneCall (i : Nat) (args : Args) (result : Except Error String → Prop) (s : Sys) : Action → Prop
  | .tick d => (Expiring.lookup s.store s.now args.key).isSome = true →
      (Expiring.lookup s.store (s.now + d) args.key).isSome = true
  | .call j a => j = i ∧ a = args
  | .get j fail => j = i ∧ ∀ e ∈ fail, isCacheMiss e = false
  | .fn j r => j = i ∧ result r
  | .cancel j | .crash j | .setNX j _ | .set j _ | .del j _ | .clock j | .select j _ => j = i

/-- The first call misses, its `fn` returns `r`, and it succeeds; then a second call
on the key succeeds. An empty result without `CacheNil` is not served from the
cache; any other is, as it is. -/
def HitsAgree (store : Store) (now : Int) (first : Args) (r : String) : Prop :=
  ∀ second as s v bs t ran w, second.key = first.key →
    exec step (.start store now) as = some s →
    Meets step (OneCall 0 first (· = .ok r)) (.start store now) as → (s.callers 0).pc = .done (.ok v) →
    exec (noted step fnCalls) (s, []) bs = some (t, ran) →
    Meets step (OneCall 1 second fun _ => True) s bs → (t.callers 1).pc = .done (.ok w) →
    if r = "" ∧ (defaultGetOrSetOpts first.opts).cacheNil = false then 1 ∈ ran
    else v = r ∧ w = r ∧ ran = []

theorem OneCall.caller {i j : Nat} {args : Args} {result : Except Error String → Prop} {s : Sys} {a : Action}
    (h : OneCall i args result s a) (ha : a.caller = some j) : j = i := by
  cases a with
  | tick d => cases ha
  | call | get | fn =>
    cases ha
    exact h.1
  | cancel | crash | setNX | set | del | clock | select =>
    cases ha
    exact h

theorem OneCall.weaken {i : Nat} {args : Args} {result : Except Error String → Prop} {s : Sys} {a : Action}
    (h : OneCall i args result s a) : OneCall i args (fun _ => True) s a := by
  cases a with
  | fn j r => exact ⟨h.1, trivial⟩
  | _ => exact h

theorem Args.key_ne_lockKey (args : Args) : args.key ≠ args.lockKey := (lockKey_ne_key args.key).symm

/-! ### The first call -/

/- What is under the first call's key and under its lock key where that call stands. -/
def FirstAt (args : Args) (r : String) (data lock : Option Stored) : Pc → Prop
  | .idle | .lookup | .acquire => data = none ∧ lock = none
  | .doubleCheck | .leading => data = none
  | .storing result => result = r ∧ data = none
  | .releasing (.ok v) | .done (.ok v) => v = r ∧ data = some ⟨args.storeVal r, none⟩
  | .releasing (.error _) | .done (.error _) | .crashed => True
  | .arm | .spin _ _ | .waiting _ _ _ | .spinGet _ _ | .fallback => False

structure First (args : Args) (r : String) (s : Sys) : Prop where
  at_ : FirstAt args r (Expiring.lookup s.store s.now args.key) (Expiring.lookup s.store s.now args.lockKey)
    (s.callers 0).pc
  called : (s.callers 0).pc.active = true → (s.callers 0).args = args
  second : (s.callers 1).pc = .idle

section FirstCall

variable {args : Args} {r : String} {s t : Sys}

theorem FirstAt.mono {data lock lock' : Option Stored} {pc : Pc} (h : FirstAt args r data lock pc)
    (hlock : lock = none → lock' = none) : FirstAt args r data lock' pc := by
  cases pc with
  | idle | lookup | acquire => exact ⟨h.1, hlock h.2⟩
  | releasing ret | done ret => cases ret <;> exact h
  | _ => exact h

theorem read_misses {i : Nat} {fail : Option Error} {val : String} (hargs : (s.callers i).args = args)
    (hmiss : Expiring.lookup s.store s.now args.key = none)
    (hread : s.read (s.callers i).args.key fail = .ok val) : False := by
  obtain ⟨x, hx, -⟩ := read_eq_ok hread
  rw [hargs, hmiss] at hx
  cases hx

theorem Goes.firstAt {a : Action} {old new : Pc} (hargs : old.active = true → (s.callers 0).args = args)
    (hold : FirstAt args r (Expiring.lookup s.store s.now args.key)
      (Expiring.lookup s.store s.now args.lockKey) old)
    (hok : OneCall 0 args (· = .ok r) s a) (h : Goes s 0 a old new) :
    FirstAt args r (Expiring.lookup s.store s.now args.key) (Expiring.lookup s.store s.now args.lockKey) new := by
  cases h with
  | hit fail val hread => exact (read_misses (hargs rfl) hold.1 hread).elim
  | recheckHit fail val hread => exact (read_misses (hargs rfl) hold hread).elim
  | miss => exact hold
  | recheckMiss => exact hold
  | lockTaken x hx =>
    rw [hargs rfl] at hx
    exact absurd (hold.2.symm.trans hx) (by simp)
  | computed result => exact ⟨Except.ok.inj hok.2, hold⟩
  | delFailed e ret =>
    cases ret with
    | ok v => exact hold
    | error e => trivial
  | getFailed | lockFailed | fnFailed | setFailed | crashed => trivial
  | armed | waits | gaveUp | woke | ctxDone | spinHit | spinMiss | fellBack => exact hold.elim

theorem Goes.active {i : Nat} {a : Action} {old new : Pc} (h : Goes s i a old new) (hnew : new.active = true) :
    old.active = true := by
  cases h with
  | crashed => cases hnew
  | _ => rfl

theorem First.setPc {pc : Pc} (hs : First args r s) (hcallers : t.callers = (s.setPc 0 pc).callers)
    (hactive : pc.active = true → (s.callers 0).pc.active = true)
    (hat : FirstAt args r (Expiring.lookup t.store t.now args.key) (Expiring.lookup t.store t.now args.lockKey) pc) :
    First args r t := by
  refine ⟨?_, ?_, ?_⟩
  · rw [hcallers, setPc_self]
    exact hat
  · rw [hcallers, setPc_self, setPc_args]
    exact fun h => hs.called (hactive h)
  · rw [hcallers, setPc_other s pc (by decide)]
    exact hs.second

/- Time passes: what was missing is missing, and the entry is still there. -/
theorem lookup_tick {key : String} {d : Nat} (hok : (Expiring.lookup s.store s.now key).isSome = true →
      (Expiring.lookup s.store (s.now + d) key).isSome = true) :
    Expiring.lookup s.store (s.now + d) key = Expiring.lookup s.store s.now key := by
  cases hnow : Expiring.lookup s.store s.now key with
  | none => exact Expiring.lookup_none_mono (by omega) hnow
  | some x => exact Expiring.lookup_stays (by omega) hnow (hok (by rw [hnow]; rfl))

theorem first_step (s : Sys) (a : Action) (t : Sys) (hs : First args r s)
    (hok : OneCall 0 args (· = .ok r) s a) (h : step s a = some t) : First args r t := by
  cases step_sysStep h with
  | tick d =>
    refine ⟨?_, hs.called, hs.second⟩
    show FirstAt args r (Expiring.lookup s.store (s.now + d) args.key) _ _
    rw [lookup_tick hok]
    exact hs.at_.mono (Expiring.lookup_none_mono (show s.now ≤ s.now + d by omega))
  | call i args' hpc =>
    obtain ⟨rfl, rfl⟩ := hok
    have hat := hs.at_
    rw [hpc] at hat
    refine ⟨?_, ?_, ?_⟩
    · simp only [Function.update_self]
      exact hat
    · simp only [Function.update_self, implies_true]
    · simp only [Function.update_of_ne (show (1 : Nat) ≠ 0 by decide)]
      exact hs.second
  | cancel i =>
    cases hok
    refine ⟨?_, ?_, ?_⟩
    · simp only [Function.update_self]
      exact hs.at_
    · simp only [Function.update_self]
      exact hs.called
    · simp only [Function.update_of_ne (show (1 : Nat) ≠ 0 by decide)]
      exact hs.second
  | go a i old new hpc hgo =>
    cases hok.caller hgo.caller
    subst hpc
    have hat := Goes.firstAt hs.called hs.at_ hok hgo
    exact hs.setPc rfl hgo.active hat
  | acquired i hpc hfree =>
    cases hok
    have hat := hs.at_
    rw [hpc] at hat
    refine hs.setPc rfl (fun _ => by rw [hpc]; rfl) ?_
    have hargs := hs.called (by rw [hpc]; rfl)
    show Expiring.lookup (Expiring.put s.store (s.callers 0).args.lockKey _ _) s.now args.key = none
    rw [hargs, Expiring.lookup_put_other args.key_ne_lockKey]
    exact hat.1
  | stored i result hpc =>
    cases hok
    have hat := hs.at_
    rw [hpc] at hat
    obtain ⟨rfl, hmiss⟩ := hat
    refine hs.setPc rfl (fun _ => by rw [hpc]; rfl) ⟨rfl, ?_⟩
    have hargs := hs.called (by rw [hpc]; rfl)
    show Expiring.lookup (set s.store s.now (s.callers 0).args.key _ _) s.now args.key = _
    rw [hargs]
    exact lookup_set_self hmiss
  | released i ret hpc =>
    cases hok
    have hat := hs.at_
    rw [hpc] at hat
    refine hs.setPc rfl (fun _ => by rw [hpc]; rfl) ?_
    have hargs := hs.called (by rw [hpc]; rfl)
    cases ret with
    | error e => trivial
    | ok v =>
      refine ⟨hat.1, ?_⟩
      show Expiring.lookup (Expiring.remove s.store (s.callers 0).args.lockKey) s.now args.key = _
      rw [hargs, Expiring.lookup_remove_other args.key_ne_lockKey]
      exact hat.2

theorem first_start {store : Store} {now : Int} (hmiss : Expiring.lookup store now args.key = none)
    (hfree : Expiring.lookup store now args.lockKey = none) : First args r (.start store now) :=
  ⟨⟨hmiss, hfree⟩, nofun, rfl⟩

end FirstCall

/-! ### The second call -/

def SecondAt (x : Stored) : Pc → Prop
  | .idle | .lookup | .crashed | .done (.error _) => True
  | .done (.ok w) => w = fromStore x.value
  | _ => False

structure Second (args : Args) (x : Stored) (s : Sys) (ran : List Nat) : Prop where
  entry : Expiring.lookup s.store s.now args.key = some x
  at_ : SecondAt x (s.callers 1).pc
  called : (s.callers 1).pc.active = true → (s.callers 1).args = args
  none_ran : ran = []

section SecondCall

variable {args : Args} {x : Stored} {s t : Sys} {ran : List Nat}

theorem Goes.secondAt {a : Action} {old new : Pc} (hargs : old.active = true → (s.callers 1).args = args)
    (hentry : Expiring.lookup s.store s.now args.key = some x) (hold : SecondAt x old)
    (hok : OneCall 1 args (fun _ => True) s a) (h : Goes s 1 a old new) : SecondAt x new := by
  cases h with
  | hit fail val hread =>
    obtain ⟨y, hy, rfl⟩ := read_eq_ok hread
    rw [hargs rfl, hentry] at hy
    cases hy
    rfl
  | miss fail e hread hmiss =>
    -- a miss would be an entry that is not there
    cases fail with
    | none =>
      have hnone := (read_eq_error hread).1
      rw [hargs rfl, hentry] at hnone
      cases hnone
    | some e' =>
      cases hread
      exact absurd (hmiss.symm.trans (hok.2 e rfl)) (by decide)
  | getFailed | crashed => trivial
  | _ => exact hold.elim

theorem second_step (s : Sys) (ran : List Nat) (a : Action) (t : Sys) (hs : Second args x s ran)
    (hok : OneCall 1 args (fun _ => True) s a) (h : step s a = some t) : Second args x t (fnCalls s a ran) := by
  cases step_sysStep h with
  | tick d =>
    refine ⟨?_, hs.at_, hs.called, (fnCalls_same h fun _ hj => hj).trans hs.none_ran⟩
    exact (lookup_tick hok).trans hs.entry
  | call i args' hpc =>
    obtain ⟨rfl, rfl⟩ := hok
    have hsame : fnCalls s (.call 1 args') ran = ran := by
      refine fnCalls_same h fun j hj => ?_
      by_cases hj1 : j = 1
      · simp only [hj1, Function.update_self] at hj
        cases hj
      · simp only [Function.update_of_ne hj1] at hj
        exact hj
    refine ⟨hs.entry, ?_, ?_, hsame.trans hs.none_ran⟩
    · simp only [Function.update_self]
      trivial
    · simp only [Function.update_self, implies_true]
  | cancel i =>
    cases hok
    have hsame : fnCalls s (.cancel 1) ran = ran := by
      refine fnCalls_same h fun j hj => ?_
      by_cases hj1 : j = 1
      · simp only [hj1, Function.update_self] at hj ⊢
        exact hj
      · simp only [Function.update_of_ne hj1] at hj
        exact hj
    refine ⟨hs.entry, ?_, ?_, hsame.trans hs.none_ran⟩
    · simp only [Function.update_self]
      exact hs.at_
    · simp only [Function.update_self]
      exact hs.called
  | go a i old new hpc hgo =>
    cases hok.caller hgo.caller
    subst hpc
    have hat := Goes.secondAt hs.called hs.entry hs.at_ hok hgo
    have hfn : new.inFn = false := by
      cases new <;> first | rfl | exact hat.elim
    refine ⟨hs.entry, ?_, ?_, (fnCalls_setPc h rfl hfn).trans hs.none_ran⟩
    · rw [setPc_self]
      exact hat
    · rw [setPc_self, setPc_args]
      exact fun hnew => hs.called (hgo.active hnew)
  | acquired i hpc | stored i _ hpc | released i _ hpc =>
    cases hok
    have hat := hs.at_
    rw [hpc] at hat
    exact hat.elim

end SecondCall

/-! ### A call that misses and a call that hits -/

def missSteps (i : Nat) (args : Args) (r : String) : List Action :=
  [.call i args, .get i none, .setNX i none, .get i none, .fn i (.ok r), .set i none, .del i none]

def hitSteps (i : Nat) (args : Args) : List Action := [.call i args, .get i none]

section Runs

variable {s : Sys} {i : Nat} {r : String}

/- Caller `i` has returned `r` and left it in the cache; nobody else has moved. -/
structure Stores (s t : Sys) (i : Nat) (r : String) : Prop where
  done : (t.callers i).pc = .done (.ok r)
  entry : Expiring.lookup t.store t.now (s.callers i).args.key = some ⟨(s.callers i).args.storeVal r, none⟩
  others : ∀ j, j ≠ i → t.callers j = s.callers j

theorem storing_stores (hpc : (s.callers i).pc = .storing r)
    (hmiss : Expiring.lookup s.store s.now (s.callers i).args.key = none) :
    ∃ t, exec step s [.set i none, .del i none] = some t ∧ Stores s t i r := by
  have hset := (SysStep.stored i r hpc).step
  have hdel := (SysStep.released i (.ok r) (setPc_self { s with
    store := set s.store s.now (s.callers i).args.key ((s.callers i).args.storeVal r) (s.callers i).args.ttl } i
    (.releasing (.ok r)))).step
  refine ⟨_, exec_cons_eq_some.mpr ⟨_, hset, exec_single hdel⟩, setPc_self .., ?_, ?_⟩
  · show Expiring.lookup (Expiring.remove (set s.store s.now _ _ _) _) s.now _ = _
    rw [setPc_args, Expiring.lookup_remove_other (Args.key_ne_lockKey _)]
    exact lookup_set_self hmiss
  · intro j hj
    rw [setPc_other _ _ hj]
    exact setPc_other _ _ hj

theorem Stores.after_move {pc : Pc} {t : Sys} (h : Stores (s.setPc i pc) t i r) : Stores s t i r := by
  refine ⟨h.done, ?_, fun j hj => ?_⟩
  · have hentry := h.entry
    rw [setPc_args] at hentry
    exact hentry
  · rw [h.others j hj, setPc_other s pc hj]

theorem acquire_stores (hpc : (s.callers i).pc = .acquire)
    (hmiss : Expiring.lookup s.store s.now (s.callers i).args.key = none)
    (hfree : Expiring.lookup s.store s.now (s.callers i).args.lockKey = none) :
    ∃ t, exec step s [.setNX i none, .get i none, .fn i (.ok r), .set i none, .del i none] = some t ∧
      Stores s t i r := by
  have hlock := (SysStep.acquired i hpc hfree).step
  obtain ⟨u, hu⟩ : ∃ u, u = ({ s with
      store := Expiring.put s.store (s.callers i).args.lockKey
        ⟨(s.callers i).args.lockKey, some i⟩ (expiry s.now (s.callers i).args.lockTTL) } : Sys) := ⟨_, rfl⟩
  have hkey : (u.callers i).args.key = (s.callers i).args.key := by rw [hu]
  have hmissed : Expiring.lookup u.store u.now (s.callers i).args.key = none := by
    rw [hu]
    exact (Expiring.lookup_put_other (Args.key_ne_lockKey _)).trans hmiss
  rw [← hu] at hlock
  have hread : (u.setPc i .doubleCheck).read ((u.setPc i .doubleCheck).callers i).args.key none =
      .error errCacheMiss := by
    rw [setPc_args, hkey]
    simp only [Sys.read, get, setPc_store, setPc_now, hmissed]
  have hget := Goes.step (setPc_self u i .doubleCheck) (.recheckMiss none errCacheMiss hread)
  have hfn := Goes.step (setPc_self (u.setPc i .doubleCheck) i .leading) (.computed r)
  obtain ⟨t, ht, hstores⟩ := storing_stores
    (setPc_self ((u.setPc i .doubleCheck).setPc i .leading) i (.storing r)) (by
      rw [setPc_args, setPc_args, setPc_args, hkey]
      exact hmissed)
  refine ⟨t, ?_, ?_⟩
  · exact exec_cons_eq_some.mpr ⟨_, hlock, exec_cons_eq_some.mpr ⟨_, hget, exec_cons_eq_some.mpr ⟨_, hfn, ht⟩⟩⟩
  · have hu' := hstores.after_move.after_move.after_move
    rw [hu] at hu'
    exact ⟨hu'.done, hu'.entry, hu'.others⟩

/- Caller `i` has come to `pc` and nothing else has changed. -/
structure Arrived (s t : Sys) (i : Nat) (args : Args) (pc : Pc) : Prop where
  pc : (t.callers i).pc = pc
  args : (t.callers i).args = args
  store : t.store = s.store
  now : t.now = s.now
  others : ∀ j, j ≠ i → t.callers j = s.callers j

theorem call_arrives (args : Args) (hpc : (s.callers i).pc = .idle) :
    ∃ t, step s (.call i args) = some t ∧ Arrived s t i args .lookup := by
  refine ⟨_, (SysStep.call i args hpc).step, ?_, ?_, rfl, rfl, ?_⟩
  · simp only [Function.update_self]
  · simp only [Function.update_self]
  · intro j hj
    exact Function.update_of_ne hj ..

theorem Arrived.go {t : Sys} {args : Args} {a : Action} {old new : Pc} (h : Arrived s t i args old)
    (hgo : Goes t i a old new) : ∃ u, step t a = some u ∧ Arrived s u i args new := by
  refine ⟨_, Goes.step h.pc hgo, setPc_self .., ?_, h.store, h.now, ?_⟩
  · rw [setPc_args, h.args]
  · intro j hj
    rw [setPc_other t new hj, h.others j hj]

theorem call_misses (args : Args) (hpc : (s.callers i).pc = .idle)
    (hmiss : Expiring.lookup s.store s.now args.key = none) :
    ∃ t, exec step s [.call i args, .get i none] = some t ∧ Arrived s t i args .acquire := by
  obtain ⟨u, hcall, hu⟩ := call_arrives args hpc
  have hread : u.read (u.callers i).args.key none = .error errCacheMiss := by
    simp only [Sys.read, get, hu.args, hu.store, hu.now, hmiss]
  obtain ⟨t, hget, ht⟩ := hu.go (.miss none errCacheMiss hread (by decide))
  exact ⟨t, exec_cons_eq_some.mpr ⟨u, hcall, exec_single hget⟩, ht⟩

theorem missSteps_stores (args : Args) (r : String) (hpc : (s.callers i).pc = .idle)
    (hmiss : Expiring.lookup s.store s.now args.key = none)
    (hfree : Expiring.lookup s.store s.now args.lockKey = none) :
    ∃ t, exec step s (missSteps i args r) = some t ∧ (t.callers i).pc = .done (.ok r) ∧
      Expiring.lookup t.store t.now args.key = some ⟨args.storeVal r, none⟩ ∧
      ∀ j, j ≠ i → t.callers j = s.callers j := by
  obtain ⟨u, hu, hat⟩ := call_misses args hpc hmiss
  obtain ⟨t, ht, hstores⟩ := acquire_stores (r := r) hat.pc
    (by rw [hat.args, hat.store, hat.now]; exact hmiss)
    (by rw [hat.args, hat.store, hat.now]; exact hfree)
  refine ⟨t, exec_trans hu ht, hstores.done, ?_, ?_⟩
  · have hentry := hstores.entry
    rw [hat.args] at hentry
    exact hentry
  · intro j hj
    rw [hstores.others j hj, hat.others j hj]

theorem hitSteps_hits {args : Args} {x : Stored} (hpc : (s.callers i).pc = .idle)
    (hx : Expiring.lookup s.store s.now args.key = some x) :
    ∃ t, exec step s (hitSteps i args) = some t ∧ (t.callers i).args = args ∧
      (t.callers i).pc = .done (.ok (fromStore x.value)) := by
  obtain ⟨u, hcall, hu⟩ := call_arrives args hpc
  have hread : u.read (u.callers i).args.key none = .ok x.value := by
    simp only [Sys.read, get, hu.args, hu.store, hu.now, hx]
  obtain ⟨t, hget, ht⟩ := hu.go (.hit none x.value hread)
  exact ⟨t, exec_cons_eq_some.mpr ⟨u, hcall, exec_single hget⟩, ht.args, ht.pc⟩

end Runs

theorem missSteps_oneCall (i : Nat) (args : Args) (r : String) (s : Sys) :
    Meets step (OneCall i args (· = .ok r)) s (missSteps i args r) := by
  apply meets_of_forall
  simp [missSteps, OneCall]

theorem hitSteps_oneCall (i : Nat) (args : Args) (s : Sys) :
    Meets step (OneCall i args fun _ => True) s (hitSteps i args) := by
  apply meets_of_forall
  simp [hitSteps, OneCall]

theorem fromStore_nilSentinel (args : Args) : fromStore (args.storeVal nilSentinel) = "" := by
  have hstore : args.storeVal nilSentinel = nilSentinel := if_neg fun h => absurd h.1 (by decide)
  rw [hstore, fromStore, if_pos rfl]

/- In either case the second call is served from the cache. -/
theorem second_served {store : Store} {now : Int} {first second : Args} {r v w : String} {as bs : List Action}
    {s t : Sys} {ran : List Nat} (hmiss : Expiring.lookup store now first.key = none)
    (hfree : Expiring.lookup store now first.lockKey = none) (hkey : second.key = first.key)
    (has : exec step (.start store now) as = some s)
    (hfirst : Meets step (OneCall 0 first (· = .ok r)) (.start store now) as)
    (hv : (s.callers 0).pc = .done (.ok v)) (hbs : exec (noted step fnCalls) (s, []) bs = some (t, ran))
    (hsecond : Meets step (OneCall 1 second fun _ => True) s bs) (hw : (t.callers 1).pc = .done (.ok w)) :
    v = r ∧ w = fromStore (first.storeVal r) ∧ ran = [] := by
  have hs : First first r s := exec_invariant_meets first_step (first_start hmiss hfree) hfirst has
  have hat := hs.at_
  rw [hv] at hat
  obtain ⟨hvr, hentry⟩ := hat
  have hstart : Second second ⟨first.storeVal r, none⟩ s [] := by
    refine ⟨by rw [hkey]; exact hentry, by rw [hs.second]; trivial, ?_, rfl⟩
    rw [hs.second]
    exact nofun
  have hstep : ∀ s ran a t, True → Second second ⟨first.storeVal r, none⟩ s ran →
      OneCall 1 second (fun _ => True) s a → step s a = some t →
      Second second ⟨first.storeVal r, none⟩ t (fnCalls s a ran) :=
    fun s ran a t _ hs hok h => second_step s ran a t hs hok h
  have ht := (noted_invariant (I := fun _ => True) (fun _ _ _ _ _ _ => trivial) hstep trivial hstart hsecond hbs).2
  have hat := ht.at_
  rw [hw] at hat
  exact ⟨hvr, hat, ht.none_ran⟩

/- Nobody holds the lock when the first call starts. -/
theorem hitsAgree_free {store : Store} {now : Int} {first : Args} {r : String}
    (hmiss : Expiring.lookup store now first.key = none)
    (hfree : Expiring.lookup store now first.lockKey = none) :
    HitsAgree store now first r ↔
      r ≠ nilSentinel ∧ (r = "" → (defaultGetOrSetOpts first.opts).cacheNil = true) := by
  constructor
  · intro hagree
    obtain ⟨s, hs, hdone, hentry, hothers⟩ := missSteps_stores first r (s := .start store now) (i := 0) rfl hmiss hfree
    have hidle : (s.callers 1).pc = .idle := by rw [hothers 1 (by decide)]; rfl
    obtain ⟨t, ht, -, hhit⟩ := hitSteps_hits hidle hentry
    obtain ⟨ran, hran⟩ := exec_noted fnCalls ht []
    have hserved := second_served hmiss hfree rfl hs (missSteps_oneCall 0 first r _) hdone hran
      (hitSteps_oneCall 1 first s) hhit
    have hagrees := hagree first _ s r _ t ran _ rfl hs (missSteps_oneCall 0 first r _) hdone hran
      (hitSteps_oneCall 1 first s) hhit
    rw [hserved.2.2] at hagrees
    split at hagrees
    · cases hagrees
    · rename_i hcond
      refine ⟨?_, ?_⟩
      · rintro rfl
        have hempty := hagrees.2.1
        rw [fromStore_nilSentinel] at hempty
        exact absurd hempty (by decide)
      · intro hr
        by_contra hnil
        exact hcond ⟨hr, eq_false_of_ne_true hnil⟩
  · rintro ⟨hsentinel, hnil⟩ second as s v bs t ran w hkey has hfirst hv hbs hsecond hw
    obtain ⟨hvr, hwr, hran⟩ := second_served hmiss hfree hkey has hfirst hv hbs hsecond hw
    have hcond : ¬ (r = "" ∧ (defaultGetOrSetOpts first.opts).cacheNil = false) := by
      rintro ⟨hr, hfalse⟩
      exact absurd ((hnil hr).symm.trans hfalse) (by decide)
    rw [if_neg hcond]
    exact ⟨hvr, hwr.trans (fromStore_storeVal first hsentinel), hran⟩

/-! ### The lock is taken -/

section Locked

variable {s : Sys} {i : Nat} {args : Args} {r : String}

/- Steps of one call lead from `s` to `t`. -/
def CallTo (i : Nat) (args : Args) (result : Except Error String → Prop) (s t : Sys) : Prop :=
  ∃ as, exec step s as = some t ∧ Meets step (OneCall i args result) s as

theorem CallTo.nil {result : Except Error String → Prop} : CallTo i args result s s := ⟨[], rfl, trivial⟩

theorem CallTo.after {result : Except Error String → Prop} {t u : Sys} {a : Action} (h : step s a = some t)
    (ha : OneCall i args result s a) (ht : CallTo i args result t u) : CallTo i args result s u := by
  obtain ⟨as, hu, hmeets⟩ := ht
  exact ⟨a :: as, exec_cons_eq_some.mpr ⟨t, h, hu⟩, meets_cons h ha hmeets⟩

/- Caller `i` has returned the result of its own `fn` and stored nothing. -/
structure FellBack (s t : Sys) (i : Nat) (r : String) : Prop where
  done : (t.callers i).pc = .done (.ok r)
  store : t.store = s.store
  later : s.now ≤ t.now
  others : ∀ j, j ≠ i → t.callers j = s.callers j

theorem spin_fallsBack {deadline backoff : Int} (r : String) (hpc : (s.callers i).pc = .spin deadline backoff)
    (hmiss : Expiring.lookup s.store s.now args.key = none) :
    ∃ t, CallTo i args (· = .ok r) s t ∧ FellBack s t i r := by
  obtain ⟨d, hd⟩ : ∃ d : Nat, d = (deadline - s.now).toNat := ⟨_, rfl⟩
  obtain ⟨u, hu⟩ : ∃ u : Sys, u = { s with now := s.now + d } := ⟨_, rfl⟩
  have htick : step s (.tick d) = some u := by rw [hu]; rfl
  have hpcu : (u.callers i).pc = .spin deadline backoff := by rw [hu]; exact hpc
  have hlate : deadline ≤ u.now := by
    rw [hu]
    show deadline ≤ s.now + d
    omega
  have hclock := (Goes.gaveUp (s := u) (i := i) deadline backoff hlate).step hpcu
  have hfn := (Goes.fellBack (.ok r)).step (setPc_self u i .fallback)
  refine ⟨(u.setPc i .fallback).setPc i (.done (.ok r)), ?_, ⟨setPc_self .., ?_, ?_, ?_⟩⟩
  · refine .after htick (fun h => ?_) (.after hclock rfl (.after hfn ⟨rfl, rfl⟩ .nil))
    rw [hmiss] at h
    cases h
  · rw [hu]
    rfl
  · rw [hu]
    show s.now ≤ s.now + d
    omega
  · intro j hj
    rw [setPc_other _ _ hj, setPc_other _ _ hj, hu]

theorem locked_fallsBack {x : Stored} (args : Args) (r : String) (hpc : (s.callers i).pc = .idle)
    (hmiss : Expiring.lookup s.store s.now args.key = none)
    (hlock : Expiring.lookup s.store s.now args.lockKey = some x) :
    ∃ t, CallTo i args (· = .ok r) s t ∧ FellBack s t i r := by
  obtain ⟨u, hcall, hu⟩ := call_arrives args hpc
  have hread : u.read (u.callers i).args.key none = .error errCacheMiss := by
    simp only [Sys.read, get, hu.args, hu.store, hu.now, hmiss]
  obtain ⟨v, hget, hv⟩ := hu.go (.miss none errCacheMiss hread (by decide))
  obtain ⟨w, hsetNX, hw⟩ := hv.go (.lockTaken x (by rw [hv.args, hv.store, hv.now]; exact hlock))
  obtain ⟨y, hclock, hy⟩ := hw.go .armed
  obtain ⟨t, hrest, ht⟩ := spin_fallsBack r hy.pc (show Expiring.lookup y.store y.now args.key = none by
    rw [hy.store, hy.now]
    exact hmiss)
  refine ⟨t, .after hcall ⟨rfl, rfl⟩ (.after hget ⟨rfl, by simp⟩ (.after hsetNX rfl (.after hclock rfl hrest))),
    ht.done, ht.store.trans hy.store, ?_, ?_⟩
  · rw [← hy.now]
    exact ht.later
  · intro j hj
    rw [ht.others j hj, hy.others j hj]

/- A call on a key that is not in the cache can return the result of its own `fn`. -/
theorem miss_returns (args : Args) (r : String) (hpc : (s.callers i).pc = .idle)
    (hmiss : Expiring.lookup s.store s.now args.key = none) :
    ∃ t, CallTo i args (· = .ok r) s t ∧ (t.callers i).pc = .done (.ok r) := by
  cases hlock : Expiring.lookup s.store s.now args.lockKey with
  | none =>
    obtain ⟨t, ht, hdone, -⟩ := missSteps_stores args r hpc hmiss hlock
    exact ⟨t, ⟨_, ht, missSteps_oneCall i args r s⟩, hdone⟩
  | some x =>
    obtain ⟨t, ht, hback⟩ := locked_fallsBack args r hpc hmiss hlock
    exact ⟨t, ht, hback.done⟩

end Locked

/- Whoever waits in vain stores nothing, so the second call gives what its own `fn` gives. -/
theorem empty_of_locked {store : Store} {now : Int} {first : Args} {r : String} {x : Stored}
    (hmiss : Expiring.lookup store now first.key = none)
    (hlock : Expiring.lookup store now first.lockKey = some x) (hagree : HitsAgree store now first r) :
    r = "" ∧ (defaultGetOrSetOpts first.opts).cacheNil = false := by
  obtain ⟨s, ⟨as, has, hfirst⟩, hs⟩ := locked_fallsBack first r (s := .start store now) (i := 0) rfl hmiss hlock
  have hidle : (s.callers 1).pc = .idle := by rw [hs.others 1 (by decide)]; rfl
  have hmissed : Expiring.lookup s.store s.now first.key = none := by
    rw [hs.store]
    exact Expiring.lookup_none_mono hs.later hmiss
  obtain ⟨t, ⟨bs, hbs, hsecond⟩, hdone⟩ := miss_returns first (r ++ "!") hidle hmissed
  obtain ⟨ran, hran⟩ := exec_noted fnCalls hbs []
  have hagrees := hagree first as s r bs t ran _ rfl has hfirst hs.done hran
    (hsecond.mono fun s a h => h.weaken) hdone
  by_contra hcond
  rw [if_neg hcond] at hagrees
  have hlength := congrArg String.length hagrees.2.1
  rw [String.length_append] at hlength
  exact absurd hlength (by simp)

/- Time may pass before the first call starts. -/
theorem HitsAgree.later {store : Store} {now : Int} {first : Args} {r : String} {d : Nat}
    (hmiss : Expiring.lookup store now first.key = none) (h : HitsAgree store now first r) :
    HitsAgree store (now + d) first r := by
  intro second as s v bs t ran w hkey has hfirst hv hbs hsecond hw
  have htick : step (.start store now) (.tick d) = some (.start store (now + d)) := rfl
  refine h second (.tick d :: as) s v bs t ran w hkey (exec_cons_eq_some.mpr ⟨_, htick, has⟩)
    (meets_cons htick ?_ hfirst) hv hbs hsecond hw
  intro hsome
  have hnone : Expiring.lookup (Sys.start store now).store (Sys.start store now).now first.key = none := hmiss
  rw [hnone] at hsome
  cases hsome

/-! ### A lock entry that never expires -/

-- in `fn`, or behind it with a result
def Pc.answered : Pc → Bool
  | .fallback | .done (.ok _) => true
  | _ => false

/- All calls are on the key; none of them ever gets the lock. -/
structure Shut (key : String) (x : Stored) (s : Sys) : Prop where
  miss : Expiring.lookup s.store s.now key = none
  lock : s.store (key ++ lockSuffix) = some ⟨x, none⟩
  keys : ∀ i, (s.callers i).pc.active = true → (s.callers i).args.key = key
  out : ∀ i, (s.callers i).pc.holding = false

section Shut

variable {key : String} {x : Stored} {s t : Sys} {ran : List Nat} {a : Action} {i : Nat} {pc : Pc}

theorem Shut.setPc (hs : Shut key x s) (hactive : pc.active = true → (s.callers i).pc.active = true)
    (hout : pc.holding = false) : Shut key x (s.setPc i pc) := by
  refine ⟨hs.miss, hs.lock, fun j => ?_, fun j => ?_⟩
  · rw [setPc_args]
    by_cases hj : j = i
    · subst hj
      rw [setPc_self]
      exact fun h => hs.keys j (hactive h)
    · rw [setPc_other s pc hj]
      exact hs.keys j
  · by_cases hj : j = i
    · subst hj
      rw [setPc_self]
      exact hout
    · rw [setPc_other s pc hj]
      exact hs.out j

theorem Shut.ne_holding (hs : Shut key x s) (hpc : (s.callers i).pc = pc) (h : pc.holding = true) : False := by
  rw [← hpc, hs.out i] at h
  cases h

theorem shut_step (hs : Shut key x s) (hkey : ∀ j args, a = .call j args → args.key = key)
    (h : step s a = some t) : Shut key x t := by
  cases step_sysStep h with
  | tick d => exact ⟨Expiring.lookup_none_mono (show s.now ≤ s.now + d by omega) hs.miss, hs.lock, hs.keys, hs.out⟩
  | call i args hpc =>
    refine ⟨hs.miss, hs.lock, fun j => ?_, fun j => ?_⟩
    · by_cases hj : j = i
      · subst hj
        simp only [Function.update_self]
        exact fun _ => hkey j args rfl
      · simp only [Function.update_of_ne hj]
        exact hs.keys j
    · by_cases hj : j = i
      · subst hj
        simp only [Function.update_self]
        rfl
      · simp only [Function.update_of_ne hj]
        exact hs.out j
  | cancel i =>
    have hsame : ∀ j, (Function.update s.callers i { s.callers i with ctxDone := true } j).args =
        (s.callers j).args ∧ (Function.update s.callers i { s.callers i with ctxDone := true } j).pc =
        (s.callers j).pc := by
      intro j
      by_cases hj : j = i
      · subst hj
        simp only [Function.update_self, and_self]
      · simp only [Function.update_of_ne hj, and_self]
    refine ⟨hs.miss, hs.lock, fun j => ?_, fun j => ?_⟩
    · rw [(hsame j).1, (hsame j).2]
      exact hs.keys j
    · rw [(hsame j).2]
      exact hs.out j
  | go a i old new hpc hgo =>
    refine hs.setPc (by rw [hpc]; exact hgo.active) ?_
    rcases hgo.narrows_or_gaveUp with hn | ⟨deadline, backoff, rfl, rfl, rfl, hnow⟩
    · by_contra hnew
      exact hs.ne_holding hpc (hn.holding (eq_true_of_ne_false hnew))
    · rfl
  | acquired i hpc hfree =>
    have hlocked : Expiring.lookup s.store s.now (s.callers i).args.lockKey = some x := by
      rw [Args.lockKey, hs.keys i (by rw [hpc]; rfl)]
      exact Expiring.lookup_permanent hs.lock
    cases hfree.symm.trans hlocked
  | stored i result hpc => exact (hs.ne_holding hpc rfl).elim
  | released i ret hpc => exact (hs.ne_holding hpc rfl).elim

/- A caller gives a result only by running `fn`. -/
theorem shut_ran (hs : Shut key x s) (hran : (s.callers i).pc.answered = true → i ∈ ran)
    (h : step s a = some t) (ht : (t.callers i).pc.answered = true) : i ∈ fnCalls s a ran := by
  have hgrow : i ∈ ran → i ∈ fnCalls s a ran := List.mem_append_left _
  by_cases ha : a.caller = some i
  · cases step_sysStep h with
    | tick d => exact hgrow (hran ht)
    | call j args hpc =>
      cases ha
      simp only [Function.update_self] at ht
      cases ht
    | cancel j =>
      cases ha
      simp only [Function.update_self] at ht
      exact hgrow (hran ht)
    | go a j old new hpc hgo =>
      cases hgo.caller.symm.trans ha
      rw [setPc_self] at ht
      cases hgo with
      | hit fail val hread | spinHit fail val _ _ hread =>
        obtain ⟨y, hy, -⟩ := read_eq_ok hread
        rw [hs.keys i (by rw [hpc]; rfl), hs.miss] at hy
        cases hy
      | gaveUp deadline backoff hnow =>
        rw [fnCalls_enters h rfl (by rw [hpc]; rfl) (by rw [setPc_self]; rfl)]
        exact List.mem_append_right _ (List.mem_singleton.mpr rfl)
      | fellBack ret => exact hgrow (hran (by rw [hpc]; rfl))
      | delFailed e ret => exact (hs.ne_holding hpc rfl).elim
      | _ => cases ht
    | acquired j hpc hfree =>
      cases ha
      rw [setPc_self] at ht
      cases ht
    | stored j result hpc => exact (hs.ne_holding hpc rfl).elim
    | released j ret hpc => exact (hs.ne_holding hpc rfl).elim
  · rw [step_others h ha] at ht
    exact hgrow (hran ht)

end Shut

theorem hitsAgree_of_permanent {store : Store} {now : Int} {first : Args} {x : Stored}
    (hmiss : Expiring.lookup store now first.key = none) (hlock : store first.lockKey = some ⟨x, none⟩)
    (hnil : (defaultGetOrSetOpts first.opts).cacheNil = false) : HitsAgree store now first "" := by
  intro second as s v bs t ran w hkey has hfirst hv hbs hsecond hw
  rw [if_pos ⟨rfl, hnil⟩]
  have hstart : Shut first.key x (.start store now) := ⟨hmiss, hlock, nofun, fun _ => rfl⟩
  have hs : Shut first.key x s := by
    refine exec_invariant_meets (fun s a t hs hok h => shut_step hs ?_ h) hstart hfirst has
    rintro j args rfl
    rw [hok.2]
  have hidle : (s.callers 1).pc = .idle := by
    refine exec_invariant_meets (I := fun s => (s.callers 1).pc = .idle) (fun s a t hs hok h => ?_) rfl hfirst has
    rw [step_others h fun ha => absurd (hok.caller ha) (by decide)]
    exact hs
  have hsecondKey : ∀ s a, OneCall 1 second (fun _ => True) s a → ∀ j args, a = .call j args → args.key = first.key := by
    rintro s _ hok j args rfl
    rw [hok.2, hkey]
  refine (noted_invariant (I := Shut first.key x) (J := fun s ran => (s.callers 1).pc.answered = true → 1 ∈ ran)
    (fun s a t hs hok h => shut_step hs (hsecondKey s a hok) h)
    (fun s ran a t hs hran _ h => shut_ran hs hran h) hs ?_ hsecond hbs).2 (by rw [hw]; rfl)
  rw [hidle]
  exact nofun

/-- On a cache in which the key misses, a hit agrees with the miss before it exactly in
two cases. Nobody holds the key's lock, the result is not the sentinel, and where it
is empty `CacheNil` was set. Or an entry that never expires stands under the lock key,
the result is empty and `CacheNil` was not set: then no call stores anything. -/
theorem hitsAgree_iff (store : Store) (now : Int) (first : Args) (r : String)
    (hmiss : Expiring.lookup store now first.key = none) :
    HitsAgree store now first r ↔
      (Expiring.lookup store now first.lockKey = none ∧ r ≠ nilSentinel ∧
        (r = "" → (defaultGetOrSetOpts first.opts).cacheNil = true)) ∨
      ((∃ x, store first.lockKey = some ⟨x, none⟩) ∧ r = "" ∧
        (defaultGetOrSetOpts first.opts).cacheNil = false) := by
  constructor
  · intro hagree
    cases hlock : Expiring.lookup store now first.lockKey with
    | none => exact .inl ⟨rfl, (hitsAgree_free hmiss hlock).mp hagree⟩
    | some x =>
      obtain ⟨rfl, hnil⟩ := empty_of_locked hmiss hlock hagree
      rcases Expiring.expires_or_permanent hlock with ⟨t, hlt, hexpired⟩ | hstays
      · -- the lock may expire before the first call asks for it
        have ht : t = now + (t - now).toNat := by omega
        rw [ht] at hexpired
        have hfree := (hitsAgree_free (Expiring.lookup_none_mono (by omega) hmiss) hexpired).mp (hagree.later hmiss)
        exact absurd ((hfree.2 rfl).symm.trans hnil) (by decide)
      · exact .inr ⟨⟨x, hstays⟩, rfl, hnil⟩
  · rintro (⟨hfree, hresult⟩ | ⟨⟨x, hlock⟩, rfl, hnil⟩)
    · exact (hitsAgree_free hmiss hfree).mpr hresult
    · exact hitsAgree_of_permanent hmiss hlock hnil

theorem hitsAgree_iff_profile : HitsAgree (fun _ => none) 0 profile "ada" :=
  (hitsAgree_iff (fun _ => none) 0 profile "ada" rfl).mpr (.inl ⟨rfl, by decide, by decide⟩)

-- another process holds the lock of `user:1` for ten seconds
def lockedOut : Store := Expiring.put (fun _ => none) "user:1:lock" ⟨"user:1:lock", none⟩ (some (10 * second))

def waitSteps (i : Nat) (args : Args) (r : String) : List Action :=
  [.call i args, .get i none, .setNX i none, .clock i, .tick 500000000, .clock i, .fn i (.ok r)]

/- An empty result without `CacheNil` is served from the cache; a result that is the
sentinel comes back empty; and a result that was not stored, since the lock was
taken, is computed again. -/
theorem empty_result_served :
    (∃ s t ran, exec step (.start (fun _ => none) 0) (missSteps 0 profile "") = some s ∧
      (s.callers 0).pc = .done (.ok "") ∧
      exec (noted step fnCalls) (s, []) (hitSteps 1 profile) = some (t, ran) ∧
      (t.callers 1).pc = .done (.ok "") ∧ ran = []) ∧
    (∃ s t ran, exec step (.start (fun _ => none) 0) (missSteps 0 profile nilSentinel) = some s ∧
      (s.callers 0).pc = .done (.ok nilSentinel) ∧
      exec (noted step fnCalls) (s, []) (hitSteps 1 profile) = some (t, ran) ∧
      (t.callers 1).pc = .done (.ok "")) ∧
    ∃ s t ran, exec step (.start lockedOut 0) (waitSteps 0 profile "ada") = some s ∧
      (s.callers 0).pc = .done (.ok "ada") ∧
      exec (noted step fnCalls) (s, []) (waitSteps 1 profile "bob") = some (t, ran) ∧
      (t.callers 1).pc = .done (.ok "bob") ∧ ran = [1] :=
  ⟨⟨_, _, _, rfl, rfl, rfl, rfl, rfl⟩, ⟨_, _, _, rfl, rfl, rfl, rfl⟩, _, _, _, rfl, rfl, rfl, rfl, rfl⟩

end Ghost.Cache
