import Ghost.Cache.Stampede
import Ghost.Transition.History

/-!
# Concurrent misses compute once (cache/cache_aside.go)

As long as nothing fails or expires and nobody gives up waiting, all callers of
one key share one execution of `fn`. A caller that missed before the value was
stored may still win the lock after it was released; the second look under the
lock then finds the value.
-/

namespace Ghost.Cache
open Go Transition

/-! ### The executions of fn, and what may not happen -/

/-- The callers that have begun to execute `fn`, one entry for each execution. -/
def fnCalls (s : Sys) (a : Action) (ran : List Nat) : List Nat :=
  ran ++ (a.caller.filter fun i => (step s a).any fun t =>
    !(s.callers i).pc.inFn && (t.callers i).pc.inFn).toList

-- the next look at the clock ends the wait
def Pc.expired (now : Int) : Pc → Bool
  | .spin deadline _ => decide (deadline ≤ now)
  | _ => false

/- All calls are for `key`, `fn` returns `v`, no cache operation fails, no context
is cancelled, neither entry of the key expires, and no spin deadline passes. -/
def Undisturbed (key v : String) (s : Sys) : Action → Prop
  | .tick d => ∀ k ∈ [key, key ++ lockSuffix], (Expiring.lookup s.store s.now k).isSome = true →
      (Expiring.lookup s.store (s.now + d) k).isSome = true
  | .call _ args => args.key = key
  | .cancel _ => False
  | .get _ fail | .setNX _ fail | .set _ fail | .del _ fail => fail = none
  | .fn _ (.ok r) => r = v
  | .fn _ (.error _) => False
  | .clock i => (s.callers i).pc.expired s.now = false
  | .crash _ | .select _ _ => True

instance (key v : String) (s : Sys) : (a : Action) → Decidable (Undisturbed key v s a)
  | .tick d => inferInstanceAs (Decidable (∀ k ∈ [key, key ++ lockSuffix],
      (Expiring.lookup s.store s.now k).isSome = true →
      (Expiring.lookup s.store (s.now + d) k).isSome = true))
  | .call _ args => inferInstanceAs (Decidable (args.key = key))
  | .cancel _ | .fn _ (.error _) => .isFalse id
  | .get _ fail | .setNX _ fail | .set _ fail | .del _ fail => inferInstanceAs (Decidable (fail = none))
  | .fn _ (.ok r) => inferInstanceAs (Decidable (r = v))
  | .clock i => inferInstanceAs (Decidable ((s.callers i).pc.expired s.now = false))
  | .crash _ | .select _ _ => .isTrue trivial

/-! ### Where a caller may stand -/

def Pc.active : Pc → Bool
  | .idle | .crashed => false
  | _ => true

-- outside the locked section and `fn`, before any return
def Pc.outside : Pc → Bool
  | .idle | .lookup | .acquire | .arm | .spin _ _ | .waiting _ _ _ | .spinGet _ _ | .crashed => true
  | _ => false

def Pc.waits : Pc → Bool
  | .arm | .spin _ _ | .waiting _ _ _ | .spinGet _ _ => true
  | _ => false

/-! ### The one computation -/

-- not in `fn` yet, nor behind it
def Pc.early (pc : Pc) : Bool := pc.outside || pc.ahead && !pc.inFn

-- what a caller may be doing once the value is in the cache
def Pc.Late (v : String) : Pc → Prop
  | .leading | .storing _ | .fallback => False
  | .releasing ret | .done ret => ret = .ok v
  | _ => True

theorem Pc.late_of_early {v : String} {pc : Pc} (h : pc.early = true) : pc.Late v := by
  cases pc <;> trivial

theorem Pc.doubleCheck_of_early {pc : Pc} (h : pc.early = true) (hh : pc.holding = true) :
    pc = .doubleCheck := by
  cases pc with
  | doubleCheck => rfl
  | leading | storing _ | releasing _ => cases h
  | _ => cases hh

/- The lock entry is the one that caller `i` made. -/
def LockedBy (key : String) (s : Sys) (i : Nat) : Prop :=
  ∃ x, Expiring.lookup s.store s.now (key ++ lockSuffix) = some x ∧ x.owner = some i

theorem LockedBy.unique {key : String} {s : Sys} {i j : Nat} (hi : LockedBy key s i)
    (hj : LockedBy key s j) : i = j := by
  obtain ⟨x, hx, hxi⟩ := hi
  obtain ⟨y, hy, hyj⟩ := hj
  cases hx.symm.trans hy
  exact Option.some.inj (hxi.symm.trans hyj)

/- Nobody has begun; or one caller has, and its lock keeps the others out, even
if it crashed; or the value is there. -/
inductive Stage (key v : String) (s : Sys) : List Nat → Prop where
  | missing (hmiss : Expiring.lookup s.store s.now key = none)
      (hpc : ∀ j, (s.callers j).pc.early = true) : Stage key v s []
  | computing (i : Nat) (hmiss : Expiring.lookup s.store s.now key = none) (hlock : LockedBy key s i)
      (hi : (s.callers i).pc = .leading ∨ (s.callers i).pc = .storing v ∨ (s.callers i).pc = .crashed)
      (hpc : ∀ j, j ≠ i → (s.callers j).pc.early = true) : Stage key v s [i]
  | filled (i : Nat) (x : Stored) (hx : Expiring.lookup s.store s.now key = some x)
      (hv : fromStore x.value = v) (hpc : ∀ j, (s.callers j).pc.Late v) : Stage key v s [i]

structure Single (key v : String) (s : Sys) (ran : List Nat) : Prop where
  keys : ∀ i, (s.callers i).pc.active = true → (s.callers i).args.key = key
  ctx : ∀ i, (s.callers i).ctxDone = false
  held : ∀ i, (s.callers i).pc.holding = true → LockedBy key s i
  locked : ∀ x, Expiring.lookup s.store s.now (key ++ lockSuffix) = some x →
    ∃ i, x.owner = some i ∧ ((s.callers i).pc.holding = true ∨ (s.callers i).pc = .crashed)
  waiting : ∀ i, (s.callers i).pc.waits = true →
    (Expiring.lookup s.store s.now key).isSome = true ∨
      (Expiring.lookup s.store s.now (key ++ lockSuffix)).isSome = true
  stage : Stage key v s ran

theorem lockKey_ne_key (key : String) : key ++ lockSuffix ≠ key := by
  intro h
  have hlen := congrArg String.length h
  rw [String.length_append] at hlen
  have hpos : 0 < lockSuffix.length := by decide
  omega

section Steps

variable {key v : String} {s t : Sys} {ran ran' : List Nat} {i : Nat} {pc : Pc}

/- From `s` to `t` only caller `i` has moved, to `pc`. -/
structure Moved (key : String) (s t : Sys) (i : Nat) (pc : Pc) : Prop where
  self : (t.callers i).pc = pc
  active : pc.active = true → (t.callers i).args.key = key
  ctx : (t.callers i).ctxDone = false
  others : ∀ j, j ≠ i → t.callers j = s.callers j

theorem Moved.forall_pc {P : Nat → Pc → Prop} (hm : Moved key s t i pc) (hi : P i pc)
    (hothers : ∀ j, j ≠ i → P j (s.callers j).pc) (j : Nat) : P j (t.callers j).pc := by
  by_cases h : j = i
  · subst h
    rw [hm.self]
    exact hi
  · rw [hm.others j h]
    exact hothers j h

theorem Single.moved_setPc (hs : Single key v s ran) (hcallers : t.callers = (s.setPc i pc).callers)
    (hactive : pc.active = true → (s.callers i).pc.active = true) : Moved key s t i pc := by
  refine ⟨?_, ?_, ?_, ?_⟩
  · rw [hcallers, setPc_self]
  · rw [hcallers, setPc_args]
    exact fun ha => hs.keys i (hactive ha)
  · simp only [hcallers, Sys.setPc, Function.update_self]
    exact hs.ctx i
  · intro j hj
    rw [hcallers, setPc_other s pc hj]

theorem Single.moved_keys (hs : Single key v s ran) (hm : Moved key s t i pc) (j : Nat)
    (hj : (t.callers j).pc.active = true) : (t.callers j).args.key = key := by
  by_cases h : j = i
  · subst h
    rw [hm.self] at hj
    exact hm.active hj
  · rw [hm.others j h] at hj ⊢
    exact hs.keys j hj

theorem Single.moved_ctx (hs : Single key v s ran) (hm : Moved key s t i pc) (j : Nat) :
    (t.callers j).ctxDone = false := by
  by_cases h : j = i
  · subst h
    exact hm.ctx
  · rw [hm.others j h]
    exact hs.ctx j

/- Caller `i` moves; neither entry of the key goes away or changes hands. -/
theorem Single.moved (hs : Single key v s ran) (hm : Moved key s t i pc)
    (hlock : Expiring.lookup t.store t.now (key ++ lockSuffix) =
      Expiring.lookup s.store s.now (key ++ lockSuffix))
    (hdata : (Expiring.lookup s.store s.now key).isSome = true →
      (Expiring.lookup t.store t.now key).isSome = true)
    (hholding : pc.holding = true → (s.callers i).pc.holding = true)
    (hkept : (s.callers i).pc.holding = true ∨ (s.callers i).pc = .crashed →
      pc.holding = true ∨ pc = .crashed)
    (hwait : pc.waits = true → (s.callers i).pc.waits = true ∨
      (Expiring.lookup s.store s.now (key ++ lockSuffix)).isSome = true)
    (hstage : Stage key v t ran') : Single key v t ran' := by
  have hlockedBy : ∀ j, LockedBy key s j → LockedBy key t j := by
    intro j hj
    rw [LockedBy, hlock]
    exact hj
  refine ⟨hs.moved_keys hm, hs.moved_ctx hm, ?held, ?locked, ?waiting, hstage⟩
  case held =>
    exact hm.forall_pc (P := fun j pc => pc.holding = true → LockedBy key t j)
      (fun hh => hlockedBy i (hs.held i (hholding hh))) (fun j _ hh => hlockedBy j (hs.held j hh))
  case locked =>
    intro x hx
    rw [hlock] at hx
    obtain ⟨j, howner, hj⟩ := hs.locked x hx
    refine ⟨j, howner, ?_⟩
    exact hm.forall_pc (P := fun k pc => k = j → pc.holding = true ∨ pc = .crashed)
      (fun hij => hkept (by rw [hij]; exact hj)) (fun k _ hkj => by rw [hkj]; exact hj) j rfl
  case waiting =>
    intro j hj
    have hbefore : (Expiring.lookup s.store s.now key).isSome = true ∨
        (Expiring.lookup s.store s.now (key ++ lockSuffix)).isSome = true := by
      refine hm.forall_pc (P := fun _ pc => pc.waits = true → _) ?_ (fun k _ => hs.waiting k) j hj
      intro hw
      rcases hwait hw with hold | hlocked
      · exact hs.waiting i hold
      · exact .inr hlocked
    rw [hlock]
    exact hbefore.imp_left hdata

/- A caller moves about outside, or crashes where it stands. -/
theorem Stage.outside (hs : Stage key v s ran) (hm : Moved key s t i pc) (hstore : t.store = s.store)
    (hnow : t.now = s.now) (hnew : pc.outside = true)
    (hold : pc = .crashed ∨ (s.callers i).pc.outside = true ∧ (s.callers i).pc ≠ .crashed) :
    Stage key v t ran := by
  have hearly : pc.early = true := by
    rw [Pc.early, hnew]
    rfl
  cases hs with
  | missing hmiss hpc =>
    refine .missing (by rw [hstore, hnow]; exact hmiss) ?_
    exact hm.forall_pc (P := fun _ pc => pc.early = true) hearly fun j _ => hpc j
  | computing k hmiss hlock hk hpc =>
    refine .computing k (by rw [hstore, hnow]; exact hmiss) (by rw [LockedBy, hstore, hnow]; exact hlock) ?_ ?_
    · refine hm.forall_pc (P := fun j pc => j = k → pc = .leading ∨ pc = .storing v ∨ pc = .crashed)
        (fun hik => ?_) (fun j _ hjk => by rw [hjk]; exact hk) k rfl
      rcases hold with hcrash | ⟨hout, halive⟩
      · exact .inr (.inr hcrash)
      · -- a caller that computes and has not crashed is not outside
        rw [hik] at hout halive
        rcases hk with hk | hk | hk
        · rw [hk] at hout
          cases hout
        · rw [hk] at hout
          cases hout
        · exact absurd hk halive
    · exact hm.forall_pc (P := fun j pc => j ≠ k → pc.early = true) (fun _ => hearly) fun j _ => hpc j
  | filled k x hx hv hpc =>
    refine .filled k x (by rw [hstore, hnow]; exact hx) hv ?_
    exact hm.forall_pc (P := fun _ pc => pc.Late v) (Pc.late_of_early hearly) fun j _ => hpc j

/- A caller that finds an entry finds the value. -/
theorem Stage.hit {x : Stored} (hs : Stage key v s ran) (hm : Moved key s (s.setPc i pc) i pc)
    (hx : Expiring.lookup s.store s.now key = some x) (hnew : fromStore x.value = v → pc.Late v) :
    Stage key v (s.setPc i pc) ran := by
  cases hs with
  | missing hmiss => cases hmiss.symm.trans hx
  | computing k hmiss => cases hmiss.symm.trans hx
  | filled k y hy hv hpc =>
    cases hy.symm.trans hx
    exact .filled k x hx hv (hm.forall_pc (P := fun _ pc => pc.Late v) (hnew hv) fun j _ => hpc j)

theorem Stage.lead (hs : Stage key v s ran) (hpc : (s.callers i).pc = .doubleCheck)
    (hlocked : LockedBy key s i) (hmiss : Expiring.lookup s.store s.now key = none) :
    Stage key v (s.setPc i .leading) (ran ++ [i]) := by
  cases hs with
  | missing _ hearly =>
    refine .computing i hmiss hlocked (.inl (setPc_self s i _)) fun j hj => ?_
    rw [setPc_other s _ hj]
    exact hearly j
  | computing k _ hlock hk _ =>
    -- the lock of the caller that computes keeps this one out
    rw [hlock.unique hlocked, hpc] at hk
    rcases hk with hk | hk | hk <;> cases hk
  | filled k x hx => cases hmiss.symm.trans hx

/- The callers in `fn` and at the store are the one that computes. -/
theorem Stage.computing_of_not_early (hs : Stage key v s ran) (hearly : (s.callers i).pc.early = false)
    (hlate : ¬ (s.callers i).pc.Late v) :
    ran = [i] ∧ LockedBy key s i ∧ Expiring.lookup s.store s.now key = none ∧
      ((s.callers i).pc = .leading ∨ (s.callers i).pc = .storing v) ∧
      ∀ j, j ≠ i → (s.callers j).pc.early = true := by
  cases hs with
  | missing _ hpc => exact absurd (hpc i) (by rw [hearly]; exact Bool.false_ne_true)
  | computing k hmiss hlock hk hpc =>
    have hik : i = k := by
      by_contra hne
      exact absurd (hpc i hne) (by rw [hearly]; exact Bool.false_ne_true)
    subst hik
    refine ⟨rfl, hlock, hmiss, ?_, hpc⟩
    rcases hk with hk | hk | hk
    · exact .inl hk
    · exact .inr hk
    · rw [hk] at hearly
      cases hearly
  | filled k x _ _ hpc => exact absurd (hpc i) hlate

theorem Stage.computed (hs : Stage key v s ran) (hpc : (s.callers i).pc = .leading) :
    Stage key v (s.setPc i (.storing v)) ran := by
  obtain ⟨rfl, hlock, hmiss, -, hothers⟩ := hs.computing_of_not_early (by rw [hpc]; rfl) (by rw [hpc]; exact id)
  refine .computing i hmiss hlock (.inr (.inl (setPc_self s i _))) fun j hj => ?_
  rw [setPc_other s _ hj]
  exact hothers j hj

/-- What `Set` stores under a missing key is there, whatever the duration. -/
theorem lookup_set_self {value : String} {ttl : Int} (hmiss : Expiring.lookup s.store s.now key = none) :
    Expiring.lookup (set s.store s.now key value ttl) s.now key = some ⟨value, none⟩ := by
  unfold set
  refine Expiring.lookup_put_self fun e he => ?_
  by_cases hkeep : ttl = -1
  · rw [if_pos hkeep, hmiss] at he
    cases he
  · rw [if_neg hkeep] at he
    by_cases hpos : 0 < ttl
    · exact expiry_future s.now hpos he
    · rw [expiry, if_neg hpos] at he
      cases he

theorem fromStore_storeVal (args : Args) (hv : v ≠ nilSentinel) : fromStore (args.storeVal v) = v := by
  by_cases hempty : v = "" ∧ (defaultGetOrSetOpts args.opts).cacheNil = true
  · rw [Args.storeVal, if_pos hempty, fromStore, if_pos rfl, hempty.1]
  · rw [Args.storeVal, if_neg hempty, fromStore, if_neg hv]

theorem Single.stored {result : String} (hv : v ≠ nilSentinel) (hs : Single key v s ran)
    (hpc : (s.callers i).pc = .storing result) :
    Single key v ({ s with
      store := set s.store s.now (s.callers i).args.key ((s.callers i).args.storeVal result)
        (s.callers i).args.ttl }.setPc i (.releasing (.ok result))) ran := by
  have hkey : (s.callers i).args.key = key := hs.keys i (by rw [hpc]; rfl)
  obtain ⟨rfl, -, hmiss, hi, hothers⟩ := hs.stage.computing_of_not_early (by rw [hpc]; rfl) (by rw [hpc]; exact id)
  have hresult : result = v := by
    rw [hpc] at hi
    rcases hi with hi | hi
    · cases hi
    · exact Pc.storing.inj hi
  subst hresult
  rw [hkey]
  generalize ht : ({ s with
    store := set s.store s.now key ((s.callers i).args.storeVal result) (s.callers i).args.ttl }.setPc i
      (.releasing (.ok result)) : Sys) = t
  have hm : Moved key s t i (.releasing (.ok result)) :=
    hs.moved_setPc (by rw [← ht]; rfl) fun _ => by rw [hpc]; rfl
  have hlock : Expiring.lookup t.store t.now (key ++ lockSuffix) =
      Expiring.lookup s.store s.now (key ++ lockSuffix) := by
    rw [← ht]
    exact Expiring.lookup_put_other (lockKey_ne_key key)
  have hdata : Expiring.lookup t.store t.now key = some ⟨(s.callers i).args.storeVal result, none⟩ := by
    rw [← ht]
    exact lookup_set_self hmiss
  refine hs.moved hm hlock (fun _ => by rw [hdata]; rfl) (fun _ => by rw [hpc]; rfl) (fun _ => .inl rfl)
    (fun h => by cases h) ?_
  refine .filled i _ hdata (fromStore_storeVal _ hv) ?_
  exact hm.forall_pc (P := fun _ pc => pc.Late result) rfl fun j hj => Pc.late_of_early (hothers j hj)

theorem Single.acquired {value : Stored} {e : Option Int} (hs : Single key v s ran)
    (hpc : (s.callers i).pc = .acquire)
    (hfree : Expiring.lookup s.store s.now (key ++ lockSuffix) = none) (howner : value.owner = some i)
    (hlive : ∀ t, e = some t → s.now < t) :
    Single key v ({ s with store := Expiring.put s.store (key ++ lockSuffix) value e }.setPc i .doubleCheck) ran := by
  generalize ht : ({ s with store := Expiring.put s.store (key ++ lockSuffix) value e }.setPc i .doubleCheck : Sys) = t
  have hm : Moved key s t i .doubleCheck :=
    hs.moved_setPc (by rw [← ht]; rfl) fun _ => by rw [hpc]; rfl
  have hlock : Expiring.lookup t.store t.now (key ++ lockSuffix) = some value := by
    rw [← ht]
    exact Expiring.lookup_put_self hlive
  have hdata : Expiring.lookup t.store t.now key = Expiring.lookup s.store s.now key := by
    rw [← ht]
    exact Expiring.lookup_put_other (lockKey_ne_key key).symm
  refine ⟨hs.moved_keys hm, hs.moved_ctx hm, ?held, ?locked, ?waiting, ?stage⟩
  case held =>
    refine hm.forall_pc (P := fun j pc => pc.holding = true → LockedBy key t j) ?_ ?_
    · exact fun _ => ⟨value, hlock, howner⟩
    · -- whoever held the lock before would have kept it from being free
      intro j _ hj
      obtain ⟨x, hx, -⟩ := hs.held j hj
      cases hfree.symm.trans hx
  case locked =>
    intro x hx
    cases hlock.symm.trans hx
    exact ⟨i, howner, .inl (by rw [hm.self]; rfl)⟩
  case waiting => exact fun j _ => .inr (by rw [hlock]; rfl)
  case stage =>
    cases hs.stage with
    | missing hmiss hearly =>
      refine .missing (hdata.trans hmiss) ?_
      exact hm.forall_pc (P := fun _ pc => pc.early = true) rfl fun j _ => hearly j
    | computing k _ hlocked =>
      obtain ⟨x, hx, -⟩ := hlocked
      cases hfree.symm.trans hx
    | filled k x hx hv hlate =>
      refine .filled k x (hdata.trans hx) hv ?_
      exact hm.forall_pc (P := fun _ pc => pc.Late v) trivial fun j _ => hlate j

/- Only a caller that found or stored the value has something to return. -/
theorem Stage.filled_of_result {ret : Except Error String} (hs : Stage key v s ran)
    (hpc : (s.callers i).pc = .releasing ret ∨ (s.callers i).pc = .done ret) :
    ∃ k x, ran = [k] ∧ Expiring.lookup s.store s.now key = some x ∧ fromStore x.value = v ∧
      ret = .ok v ∧ ∀ j, (s.callers j).pc.Late v := by
  have hearly : (s.callers i).pc.early = false := by
    rcases hpc with hpc | hpc <;> rw [hpc] <;> rfl
  cases hs with
  | missing _ hall => cases hearly.symm.trans (hall i)
  | computing k _ _ hk hall =>
    by_cases hik : i = k
    · rw [← hik] at hk
      rcases hpc with hpc | hpc <;> rw [hpc] at hk <;> rcases hk with hk | hk | hk <;> cases hk
    · cases hearly.symm.trans (hall i hik)
  | filled k x hx hv hlate =>
    have hret : ret = .ok v := by
      have hi := hlate i
      rcases hpc with hpc | hpc <;> rw [hpc] at hi <;> exact hi
    exact ⟨k, x, rfl, hx, hv, hret, hlate⟩

theorem Single.released {ret : Except Error String} {dels : List (Nat × Option Nat)}
    (hs : Single key v s ran) (hpc : (s.callers i).pc = .releasing ret) :
    Single key v ({ s with store := del s.store (key ++ lockSuffix), dels := dels }.setPc i (.done ret)) ran := by
  generalize ht : ({ s with store := del s.store (key ++ lockSuffix), dels := dels }.setPc i (.done ret) : Sys) = t
  have hm : Moved key s t i (.done ret) := hs.moved_setPc (by rw [← ht]; rfl) fun _ => by rw [hpc]; rfl
  have hlock : Expiring.lookup t.store t.now (key ++ lockSuffix) = none := by
    rw [← ht]
    exact Expiring.lookup_remove_self
  have hdata : Expiring.lookup t.store t.now key = Expiring.lookup s.store s.now key := by
    rw [← ht]
    exact Expiring.lookup_remove_other (lockKey_ne_key key).symm
  obtain ⟨k, x, rfl, hx, hv, hret, hlate⟩ := hs.stage.filled_of_result (.inl hpc)
  refine ⟨hs.moved_keys hm, hs.moved_ctx hm, ?held, ?locked, ?waiting, ?stage⟩
  case held =>
    refine hm.forall_pc (P := fun j pc => pc.holding = true → LockedBy key t j) ?_ ?_
    · intro hdone
      cases hdone
    · intro j hji hj
      have hij := (hs.held i (by rw [hpc]; rfl)).unique (hs.held j hj)
      exact absurd hij.symm hji
  case locked =>
    intro y hy
    cases hlock.symm.trans hy
  case waiting => exact fun j _ => .inl (by rw [hdata, hx]; rfl)
  case stage =>
    refine .filled k x (hdata.trans hx) hv ?_
    exact hm.forall_pc (P := fun _ pc => pc.Late v) hret fun j _ => hlate j

theorem Single.call {args : Args} (hs : Single key v s ran) (hkey : args.key = key)
    (hpc : (s.callers i).pc = .idle) :
    Single key v { s with callers := Function.update s.callers i ⟨args, .lookup, (s.callers i).ctxDone⟩ } ran := by
  have hm : Moved key s
      { s with callers := Function.update s.callers i ⟨args, .lookup, (s.callers i).ctxDone⟩ } i .lookup := by
    refine ⟨?_, ?_, ?_, fun j hj => Function.update_of_ne hj ..⟩
    · simp only [Function.update_self]
    · simp only [Function.update_self]
      exact fun _ => hkey
    · simp only [Function.update_self]
      exact hs.ctx i
  refine hs.moved hm rfl id (fun h => by cases h) ?_ (fun h => by cases h)
    (hs.stage.outside hm rfl rfl rfl (.inr ⟨by rw [hpc]; rfl, by rw [hpc]; simp⟩))
  rw [hpc]
  rintro (h | h) <;> cases h

/- Time passes: an entry that is still there is the entry that was there. -/
theorem Single.tick {d : Nat} (hs : Single key v s ran) (hok : Undisturbed key v s (.tick d)) :
    Single key v { s with now := s.now + d } ran := by
  have hsame : ∀ k ∈ [key, key ++ lockSuffix],
      Expiring.lookup s.store (s.now + d) k = Expiring.lookup s.store s.now k := by
    intro k hk
    cases hnow : Expiring.lookup s.store s.now k with
    | none => exact Expiring.lookup_none_mono (by omega) hnow
    | some x => exact Expiring.lookup_stays (by omega) hnow (hok k hk (by rw [hnow]; rfl))
  have hdata := hsame key (by simp)
  have hlock := hsame (key ++ lockSuffix) (by simp)
  have hlockedBy : ∀ j, LockedBy key { s with now := s.now + d } j ↔ LockedBy key s j := by
    intro j
    simp only [LockedBy, hlock]
  refine ⟨hs.keys, hs.ctx, ?held, ?locked, ?waiting, ?stage⟩
  case held => exact fun j hj => (hlockedBy j).mpr (hs.held j hj)
  case locked =>
    intro x hx
    exact hs.locked x (hlock.symm.trans hx)
  case waiting =>
    intro j hj
    simp only [hdata, hlock]
    exact hs.waiting j hj
  case stage =>
    cases hs.stage with
    | missing hmiss hpc => exact .missing (hdata.trans hmiss) hpc
    | computing k hmiss hlocked hk hpc => exact .computing k (hdata.trans hmiss) ((hlockedBy k).mpr hlocked) hk hpc
    | filled k x hx hv hpc => exact .filled k x (hdata.trans hx) hv hpc

theorem fnCalls_eq {a : Action} (h : step s a = some t) :
    fnCalls s a ran = ran ++ (a.caller.filter fun j =>
      !(s.callers j).pc.inFn && (t.callers j).pc.inFn).toList := by
  simp only [fnCalls, h, Option.any_some]

theorem fnCalls_same {a : Action} (h : step s a = some t)
    (hno : ∀ j, (t.callers j).pc.inFn = true → (s.callers j).pc.inFn = true) : fnCalls s a ran = ran := by
  have hfilter : (a.caller.filter fun j => !(s.callers j).pc.inFn && (t.callers j).pc.inFn) = none := by
    rw [Option.filter_eq_none_iff]
    intro j _ hj
    simp only [Bool.and_eq_true, Bool.not_eq_true'] at hj
    rw [hno j hj.2] at hj
    cases hj.1
  rw [fnCalls_eq h, hfilter]
  exact List.append_nil ran

theorem fnCalls_setPc {a : Action} (h : step s a = some t) (hcallers : t.callers = (s.setPc i pc).callers)
    (hpc : pc.inFn = false) : fnCalls s a ran = ran := by
  refine fnCalls_same h fun j hj => ?_
  rw [hcallers] at hj
  by_cases hji : j = i
  · rw [hji, setPc_self, hpc] at hj
    cases hj
  · rw [setPc_other s pc hji] at hj
    exact hj

theorem fnCalls_enters {a : Action} (h : step s a = some t) (ha : a.caller = some i)
    (hold : (s.callers i).pc.inFn = false) (hnew : (t.callers i).pc.inFn = true) :
    fnCalls s a ran = ran ++ [i] := by
  rw [fnCalls_eq h]
  simp [ha, hold, hnew]

theorem Pc.outside_not {pc : Pc} (h : pc.outside = true) : pc.inFn = false ∧ pc.holding = false := by
  cases pc <;> first | exact ⟨rfl, rfl⟩ | cases h

theorem Pc.ne_crashed {pc : Pc} (h : pc.active = true) : pc ≠ .crashed := by
  rintro rfl
  cases h

theorem Stage.no_fallback (hs : Stage key v s ran) (i : Nat) : (s.callers i).pc ≠ .fallback := by
  intro hpc
  obtain ⟨-, -, -, hi, -⟩ := hs.computing_of_not_early (by rw [hpc]; rfl) (by rw [hpc]; exact id)
  rw [hpc] at hi
  rcases hi with hi | hi <;> cases hi

theorem Single.lockKey (hs : Single key v s ran) (ha : (s.callers i).pc.active = true) :
    (s.callers i).args.lockKey = key ++ lockSuffix := by
  rw [Args.lockKey, hs.keys i ha]

/- A caller that is not in the locked section moves about outside it. -/
theorem Single.outside (hs : Single key v s ran) (hold : (s.callers i).pc.outside = true)
    (hactive : (s.callers i).pc.active = true) (hnew : pc.outside = true)
    (hwait : pc.waits = true → (s.callers i).pc.waits = true ∨
      (Expiring.lookup s.store s.now (s.callers i).args.lockKey).isSome = true) :
    Single key v (s.setPc i pc) ran := by
  have hm : Moved key s (s.setPc i pc) i pc := hs.moved_setPc rfl fun _ => hactive
  have halive : (s.callers i).pc ≠ .crashed := Pc.ne_crashed hactive
  rw [hs.lockKey hactive] at hwait
  refine hs.moved hm rfl id (fun hh => by rw [(Pc.outside_not hnew).2] at hh; cases hh) ?_ hwait
    (hs.stage.outside hm rfl rfl hnew (.inr ⟨hold, halive⟩))
  rintro (hh | hcrash)
  · rw [(Pc.outside_not hold).2] at hh
    cases hh
  · exact absurd hcrash halive

theorem Single.hit {x : Stored} (hs : Single key v s ran) (hold : (s.callers i).pc.outside = true)
    (hactive : (s.callers i).pc.active = true)
    (hx : Expiring.lookup s.store s.now (s.callers i).args.key = some x) :
    Single key v (s.setPc i (.done (.ok (fromStore x.value)))) ran := by
  have hm : Moved key s (s.setPc i (.done (.ok (fromStore x.value)))) i (.done (.ok (fromStore x.value))) :=
    hs.moved_setPc rfl fun _ => hactive
  rw [hs.keys i hactive] at hx
  refine hs.moved hm rfl id (fun h => by cases h) ?_ (fun h => by cases h)
    (hs.stage.hit hm hx fun hval => congrArg Except.ok hval)
  rintro (hh | hcrash)
  · rw [(Pc.outside_not hold).2] at hh
    cases hh
  · exact absurd hcrash (Pc.ne_crashed hactive)

/- A caller goes on inside the locked section. -/
theorem Single.inside (hs : Single key v s ran) (hold : (s.callers i).pc.holding = true)
    (hnew : pc.holding = true) (hstage : Moved key s (s.setPc i pc) i pc → Stage key v (s.setPc i pc) ran') :
    Single key v (s.setPc i pc) ran' := by
  have hactive : (s.callers i).pc.active = true := by
    cases hpc : (s.callers i).pc <;> first | rfl | (rw [hpc] at hold; cases hold)
  have hwait : pc.waits = false := by
    cases pc <;> first | rfl | cases hnew
  have hm : Moved key s (s.setPc i pc) i pc := hs.moved_setPc rfl fun _ => hactive
  exact hs.moved hm rfl id (fun _ => hold) (fun _ => .inl hnew) (fun h => by rw [hwait] at h; cases h) (hstage hm)

theorem Single.crashed (hs : Single key v s ran) : Single key v (s.setPc i .crashed) ran := by
  have hm : Moved key s (s.setPc i .crashed) i .crashed := hs.moved_setPc rfl fun h => by cases h
  exact hs.moved hm rfl id (fun h => by cases h) (fun _ => .inr rfl) (fun h => by cases h)
    (hs.stage.outside hm rfl rfl rfl (.inl rfl))

/- A caller goes on and leaves the cache as it is. -/
theorem Single.go {a : Action} {old new : Pc} (hs : Single key v s ran) (hok : Undisturbed key v s a)
    (hpc : (s.callers i).pc = old) (hgo : Goes s i a old new) :
    Single key v (s.setPc i new) (fnCalls s a ran) := by
  have h := hgo.step hpc
  have hkey (ha : old.active = true) : (s.callers i).args.key = key := hs.keys i (by rw [hpc]; exact ha)
  cases hgo with
  | hit fail val hread | spinHit fail val _ _ hread =>
    obtain ⟨x, hx, rfl⟩ := read_eq_ok hread
    rw [fnCalls_setPc h rfl rfl]
    exact hs.hit (by rw [hpc]; rfl) (by rw [hpc]; rfl) hx
  | miss =>
    rw [fnCalls_setPc h rfl rfl]
    exact hs.outside (by rw [hpc]; rfl) (by rw [hpc]; rfl) rfl nofun
  | lockTaken x hx =>
    rw [fnCalls_setPc h rfl rfl]
    exact hs.outside (by rw [hpc]; rfl) (by rw [hpc]; rfl) rfl fun _ => .inr (by rw [hx]; rfl)
  | armed | waits | spinMiss | woke =>
    rw [fnCalls_setPc h rfl rfl]
    exact hs.outside (by rw [hpc]; rfl) (by rw [hpc]; rfl) rfl fun _ => .inl (by rw [hpc]; rfl)
  | recheckHit fail val hread =>
    obtain ⟨x, hx, rfl⟩ := read_eq_ok hread
    rw [hkey rfl] at hx
    rw [fnCalls_setPc h rfl rfl]
    exact hs.inside (by rw [hpc]; rfl) rfl fun hm => hs.stage.hit hm hx fun hval => congrArg Except.ok hval
  | recheckMiss fail e hread =>
    cases hok
    have hmiss := (read_eq_error hread).1
    rw [hkey rfl] at hmiss
    rw [fnCalls_enters h rfl (by rw [hpc]; rfl) (by rw [setPc_self]; rfl)]
    exact hs.inside (by rw [hpc]; rfl) rfl fun _ => hs.stage.lead hpc (hs.held i (by rw [hpc]; rfl)) hmiss
  | computed result =>
    cases hok
    rw [fnCalls_setPc h rfl rfl]
    exact hs.inside (by rw [hpc]; rfl) rfl fun _ => hs.stage.computed hpc
  | crashed =>
    rw [fnCalls_setPc h rfl rfl]
    exact hs.crashed
  -- the branches that something disturbed leads into
  | getFailed fail e hread hmiss =>
    cases hok
    obtain ⟨-, rfl⟩ := read_eq_error hread
    cases hmiss
  | gaveUp deadline backoff hnow =>
    have hlate : decide (deadline ≤ s.now) = false := by
      simpa only [Undisturbed, hpc, Pc.expired] using hok
    exact absurd hnow (of_decide_eq_false hlate)
  | ctxDone _ _ _ hdone => exact absurd ((hs.ctx i).symm.trans hdone) (by decide)
  | fellBack => exact absurd hpc (hs.stage.no_fallback i)
  | lockFailed | fnFailed | setFailed | delFailed => cases hok

theorem single_step {a : Action} (hv : v ≠ nilSentinel) (hs : Single key v s ran)
    (hok : Undisturbed key v s a) (h : step s a = some t) : Single key v t (fnCalls s a ran) := by
  cases step_sysStep h with
  | tick d =>
    rw [fnCalls_same h fun _ hj => hj]
    exact hs.tick hok
  | call i args hpc =>
    have hsame : fnCalls s (.call i args) ran = ran := by
      refine fnCalls_same h fun j hj => ?_
      by_cases hji : j = i
      · simp only [hji, Function.update_self] at hj
        cases hj
      · simp only [Function.update_of_ne hji] at hj
        exact hj
    rw [hsame]
    exact hs.call hok hpc
  | cancel i => cases hok
  | go a i old new hpc hgo => exact hs.go hok hpc hgo
  | acquired i hpc hfree =>
    rw [fnCalls_setPc h rfl rfl]
    rw [hs.lockKey (by rw [hpc]; rfl)] at hfree ⊢
    exact hs.acquired hpc hfree rfl fun _ he => expiry_future s.now (lockTTL_pos _) he
  | stored i result hpc =>
    rw [fnCalls_setPc h rfl rfl]
    exact hs.stored hv hpc
  | released i ret hpc =>
    rw [fnCalls_setPc h rfl rfl, hs.lockKey (by rw [hpc]; rfl)]
    exact hs.released hpc

end Steps

theorem single_start (key v : String) (now : Int) : Single key v (.start (fun _ => none) now) [] := by
  refine ⟨?_, fun _ => rfl, ?_, ?_, ?_, .missing rfl fun _ => rfl⟩
  · intro i h
    cases h
  · intro i h
    cases h
  · intro x h
    cases h
  · intro i h
    cases h

/-! ### Somebody computes -/

section Progress

variable {key v : String} {s : Sys} {ran : List Nat} {i : Nat}

/- `fn` can be reached from here by steps that disturb nobody. -/
def Leads (key v : String) (s : Sys) (ran : List Nat) (i : Nat) : Prop :=
  ∃ more t, exec (noted step fnCalls) (s, ran) more = some (t, ran ++ [i]) ∧
    Meets step (Undisturbed key v) s more

theorem leads_cons {a : Action} {t : Sys} (h : step s a = some t) (hok : Undisturbed key v s a)
    (hran : fnCalls s a ran = ran) (hlead : Leads key v t ran i) : Leads key v s ran i := by
  obtain ⟨more, u, hu, hmeets⟩ := hlead
  exact ⟨a :: more, u, exec_cons_eq_some.mpr ⟨(t, ran), noted_eq_some.mpr ⟨h, hran.symm⟩, hu⟩,
    meets_cons h hok hmeets⟩

theorem doubleCheck_leads (hpc : (s.callers i).pc = .doubleCheck)
    (hmiss : Expiring.lookup s.store s.now (s.callers i).args.key = none) : Leads key v s ran i := by
  have h : step s (.get i none) = some (s.setPc i .leading) := by
    simp [step, stepGet, hpc, Sys.read, get, hmiss]
  have hnoted : noted step fnCalls (s, ran) (.get i none) = some (s.setPc i .leading, ran ++ [i]) :=
    noted_eq_some.mpr ⟨h, (fnCalls_enters h rfl (by rw [hpc]; rfl) (by rw [setPc_self]; rfl)).symm⟩
  exact ⟨[.get i none], s.setPc i .leading, exec_single hnoted, rfl, fun _ _ => trivial⟩

theorem acquire_leads (hs : Single key v s ran) (hpc : (s.callers i).pc = .acquire)
    (hfree : Expiring.lookup s.store s.now (key ++ lockSuffix) = none)
    (hmiss : Expiring.lookup s.store s.now key = none) : Leads key v s ran i := by
  have hactive : (s.callers i).pc.active = true := by rw [hpc]; rfl
  have hlockKey := hs.lockKey hactive
  have h : step s (.setNX i none) = some ({ s with
      store := Expiring.put s.store (s.callers i).args.lockKey ⟨(s.callers i).args.lockKey, some i⟩
        (expiry s.now (s.callers i).args.lockTTL) }.setPc i .doubleCheck) := by
    simp [step, stepSetNX, hpc, setNX, hlockKey, hfree]
  refine leads_cons h rfl (fnCalls_setPc h rfl rfl) (doubleCheck_leads (setPc_self ..) ?_)
  rw [setPc_args, setPc_store, setPc_now]
  show Expiring.lookup (Expiring.put _ _ _ _) s.now (s.callers i).args.key = none
  rw [hs.keys i hactive, hlockKey, Expiring.lookup_put_other (lockKey_ne_key key).symm]
  exact hmiss

theorem lookup_leads (hv : v ≠ nilSentinel) (hs : Single key v s ran) (hpc : (s.callers i).pc = .lookup)
    (hfree : Expiring.lookup s.store s.now (key ++ lockSuffix) = none)
    (hmiss : Expiring.lookup s.store s.now key = none) : Leads key v s ran i := by
  have hkey : (s.callers i).args.key = key := hs.keys i (by rw [hpc]; rfl)
  have h : step s (.get i none) = some (s.setPc i .acquire) := by
    simp [step, stepGet, hpc, Sys.read, get, hkey, hmiss, isCacheMiss, Error.is, errCacheMiss]
  have hran : fnCalls s (.get i none) ran = ran := fnCalls_setPc h rfl rfl
  have hnext : Single key v (s.setPc i .acquire) ran := by
    have hstep : Undisturbed key v s (.get i none) := rfl
    have := single_step hv hs hstep h
    rwa [hran] at this
  exact leads_cons h rfl hran (acquire_leads hnext (setPc_self ..) hfree hmiss)

/-- With a call under way and nobody crashed, `fn` has been executed once, or
some caller can go on and execute it. -/
theorem Single.once (hv : v ≠ nilSentinel) (hs : Single key v s ran) (hcall : (s.callers i).pc ≠ .idle)
    (halive : ∀ j, (s.callers j).pc ≠ .crashed) :
    ∃ more t ran', exec (noted step fnCalls) (s, ran) more = some (t, ran') ∧
      Meets step (Undisturbed key v) s more ∧ ran'.length = 1 := by
  cases hs.stage with
  | computing k | filled k => exact ⟨[], s, [k], rfl, trivial, rfl⟩
  | missing hmiss hearly =>
    have hlead : ∃ j, Leads key v s [] j := by
      cases hlock : Expiring.lookup s.store s.now (key ++ lockSuffix) with
      | some x =>
        obtain ⟨j, -, hj⟩ := hs.locked x hlock
        have hpc : (s.callers j).pc = .doubleCheck :=
          Pc.doubleCheck_of_early (hearly j) (hj.resolve_right (halive j))
        exact ⟨j, doubleCheck_leads hpc (by rw [hs.keys j (by rw [hpc]; rfl)]; exact hmiss)⟩
      | none =>
        refine ⟨i, ?_⟩
        cases hpc : (s.callers i).pc with
        | lookup => exact lookup_leads hv hs hpc hlock hmiss
        | acquire => exact acquire_leads hs hpc hlock hmiss
        | idle => exact absurd hpc hcall
        | crashed => exact absurd hpc (halive i)
        | doubleCheck =>
          obtain ⟨x, hx, -⟩ := hs.held i (by rw [hpc]; rfl)
          cases hlock.symm.trans hx
        | arm | spin _ _ | waiting _ _ _ | spinGet _ _ =>
          have hw := hs.waiting i (by rw [hpc]; rfl)
          rw [hmiss, hlock] at hw
          rcases hw with hw | hw <;> cases hw
        | leading | storing _ | releasing _ | fallback | done _ =>
          have hi := hearly i
          rw [hpc] at hi
          cases hi
    obtain ⟨j, more, t, hmore, hmeets⟩ := hlead
    exact ⟨more, t, [] ++ [j], hmore, hmeets, rfl⟩

end Progress

/-- Concurrent misses compute once. On an empty cache, in every undisturbed run
of callers of one key, `fn` is executed at most once; a caller that has returned
has the value of `fn`, and the one execution has then taken place; and as long
as callers do not crash, the execution takes place. -/
theorem computes_once (key v : String) (hv : v ≠ nilSentinel) (now : Int) (as : List Action) (s : Sys)
    (ran : List Nat) (h : exec (noted step fnCalls) (.start (fun _ => none) now, []) as = some (s, ran))
    (hok : Meets step (Undisturbed key v) (.start (fun _ => none) now) as) :
    ran.length ≤ 1 ∧
      (∀ i ret, (s.callers i).pc = .done ret → ret = .ok v ∧ ran.length = 1) ∧
      (∀ i, (s.callers i).pc ≠ .idle → (∀ j, (s.callers j).pc ≠ .crashed) →
        ∃ more t ran', exec (noted step fnCalls) (s, ran) more = some (t, ran') ∧
          Meets step (Undisturbed key v) s more ∧ ran'.length = 1) := by
  have hstep : ∀ s ran a t, True → Single key v s ran → Undisturbed key v s a → step s a = some t →
      Single key v t (fnCalls s a ran) := fun _ _ _ _ _ hs hok ht => single_step hv hs hok ht
  have hs : Single key v s ran :=
    (noted_invariant (I := fun _ => True) (fun _ _ _ _ _ _ => trivial) hstep trivial
      (single_start key v now) hok h).2
  refine ⟨?_, ?_, fun i hi halive => hs.once hv hi halive⟩
  · cases hs.stage <;> simp
  · intro i ret hpc
    obtain ⟨k, -, rfl, -, -, hret, -⟩ := hs.stage.filled_of_result (.inr hpc)
    exact ⟨hret, rfl⟩

/- Caller 1 finds the lock taken and waits; caller 2 misses, but is served by
the second look under the lock that caller 0 has released. -/
def lateMiss : List Action :=
  contend ++ ([.call 2 profile, .get 2 none, .fn 0 (.ok "ada"), .set 0 none, .del 0 none, .setNX 2 none,
    .get 2 none, .del 2 none, .clock 1, .tick 5000000, .select 1 true, .get 1 none] : List Action)

theorem computes_once_lateMiss :
    ∃ s ran, exec (noted step fnCalls) (.start (fun _ => none) 0, []) lateMiss = some (s, ran) ∧
      Meets step (Undisturbed "user:1" "ada") (.start (fun _ => none) 0) lateMiss ∧
      ran = [0] ∧ ∀ i ret, (s.callers i).pc = .done ret → ret = .ok "ada" := by
  have hok : Meets step (Undisturbed "user:1" "ada") (.start (fun _ => none) 0) lateMiss := meets_of_checks rfl
  refine ⟨_, _, rfl, hok, rfl, fun i ret hpc => ?_⟩
  exact ((computes_once "user:1" "ada" (by decide) 0 lateMiss _ _ rfl hok).2.1 i ret hpc).1

end Ghost.Cache
