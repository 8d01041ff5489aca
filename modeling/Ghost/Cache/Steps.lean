import Ghost.Cache.CacheAside

/-!
# The branches of GetOrSet (cache/cache_aside.go)

One constructor for each branch of a caller's step. Most branches only move the
caller on; three of them write to the cache.
-/

namespace Ghost.Cache
open Go Transition

def Action.caller : Action → Option Nat
  | .tick _ => none
  | .call i _ | .cancel i | .crash i | .get i _ | .setNX i _ | .set i _ | .del i _ | .fn i _
  | .clock i | .select i _ => some i

/- Caller `i` goes on from `old` to `new` and leaves the cache as it is. -/
inductive Goes (s : Sys) (i : Nat) : Action → Pc → Pc → Prop where
  | hit (fail : Option Error) (val : String) (hread : s.read (s.callers i).args.key fail = .ok val) :
      Goes s i (.get i fail) .lookup (.done (.ok (fromStore val)))
  | miss (fail : Option Error) (e : Error) (hread : s.read (s.callers i).args.key fail = .error e)
      (hmiss : isCacheMiss e = true) : Goes s i (.get i fail) .lookup .acquire
  | getFailed (fail : Option Error) (e : Error) (hread : s.read (s.callers i).args.key fail = .error e)
      (hmiss : isCacheMiss e = false) : Goes s i (.get i fail) .lookup (.done (.error e))
  | lockFailed (e : Error) : Goes s i (.setNX i (some e)) .acquire (.done (.error e))
  | lockTaken (x : Stored) (hx : Expiring.lookup s.store s.now (s.callers i).args.lockKey = some x) :
      Goes s i (.setNX i none) .acquire .arm
  | recheckHit (fail : Option Error) (val : String) (hread : s.read (s.callers i).args.key fail = .ok val) :
      Goes s i (.get i fail) .doubleCheck (.releasing (.ok (fromStore val)))
  | recheckMiss (fail : Option Error) (e : Error) (hread : s.read (s.callers i).args.key fail = .error e) :
      Goes s i (.get i fail) .doubleCheck .leading
  | fnFailed (e : Error) : Goes s i (.fn i (.error e)) .leading (.releasing (.error e))
  | computed (result : String) : Goes s i (.fn i (.ok result)) .leading (.storing result)
  | setFailed (e : Error) (result : String) :
      Goes s i (.set i (some e)) (.storing result) (.releasing (.error e))
  | delFailed (e : Error) (ret : Except Error String) : Goes s i (.del i (some e)) (.releasing ret) (.done ret)
  | armed : Goes s i (.clock i) .arm (.spin (s.now + retryTimeout * 10) (5 * millisecond))
  | waits (deadline backoff : Int) (hnow : s.now < deadline) :
      Goes s i (.clock i) (.spin deadline backoff) (.waiting deadline backoff s.now)
  | gaveUp (deadline backoff : Int) (hnow : deadline ≤ s.now) :
      Goes s i (.clock i) (.spin deadline backoff) .fallback
  | woke (deadline backoff since : Int) (hnow : since + backoff ≤ s.now) :
      Goes s i (.select i true) (.waiting deadline backoff since) (.spinGet deadline backoff)
  | ctxDone (deadline backoff since : Int) (hctx : (s.callers i).ctxDone = true) :
      Goes s i (.select i false) (.waiting deadline backoff since) (.done (.error canceled))
  | spinHit (fail : Option Error) (val : String) (deadline backoff : Int)
      (hread : s.read (s.callers i).args.key fail = .ok val) :
      Goes s i (.get i fail) (.spinGet deadline backoff) (.done (.ok (fromStore val)))
  | spinMiss (fail : Option Error) (e : Error) (deadline backoff : Int)
      (hread : s.read (s.callers i).args.key fail = .error e) :
      Goes s i (.get i fail) (.spinGet deadline backoff) (.spin deadline (cap (backoff * 2)))
  | fellBack (ret : Except Error String) : Goes s i (.fn i ret) .fallback (.done ret)
  | crashed (pc : Pc) : Goes s i (.crash i) pc .crashed

inductive SysStep (s : Sys) : Action → Sys → Prop where
  | tick (d : Nat) : SysStep s (.tick d) { s with now := s.now + d }
  | call (i : Nat) (args : Args) (hpc : (s.callers i).pc = .idle) : SysStep s (.call i args)
      { s with callers := Function.update s.callers i ⟨args, .lookup, (s.callers i).ctxDone⟩ }
  | cancel (i : Nat) : SysStep s (.cancel i)
      { s with callers := Function.update s.callers i { s.callers i with ctxDone := true } }
  | go (a : Action) (i : Nat) (old new : Pc) (hpc : (s.callers i).pc = old) (h : Goes s i a old new) :
      SysStep s a (s.setPc i new)
  | acquired (i : Nat) (hpc : (s.callers i).pc = .acquire)
      (hfree : Expiring.lookup s.store s.now (s.callers i).args.lockKey = none) :
      SysStep s (.setNX i none) ({ s with
        store := Expiring.put s.store (s.callers i).args.lockKey
          ⟨(s.callers i).args.lockKey, some i⟩ (expiry s.now (s.callers i).args.lockTTL) }.setPc i .doubleCheck)
  | stored (i : Nat) (result : String) (hpc : (s.callers i).pc = .storing result) :
      SysStep s (.set i none) ({ s with
        store := set s.store s.now (s.callers i).args.key ((s.callers i).args.storeVal result)
          (s.callers i).args.ttl }.setPc i (.releasing (.ok result)))
  | released (i : Nat) (ret : Except Error String) (hpc : (s.callers i).pc = .releasing ret) :
      SysStep s (.del i none) ({ s with
        store := del s.store (s.callers i).args.lockKey
        dels := s.dels ++ ((Expiring.lookup s.store s.now (s.callers i).args.lockKey).map
          fun x : Stored => (i, x.owner)).toList }.setPc i (.done ret))

variable {s t : Sys} {i : Nat} {fail : Option Error}

theorem stepGet_step (h : stepGet s i fail = some t) : SysStep s (.get i fail) t := by
  unfold stepGet at h
  simp only at h
  split at h
  · rename_i val hpc hread
    cases h
    exact .go _ i _ _ hpc (.hit fail val hread)
  · rename_i e hpc hread
    cases h
    cases hmiss : isCacheMiss e with
    | true => exact .go _ i _ _ hpc (.miss fail e hread hmiss)
    | false => exact .go _ i _ _ hpc (.getFailed fail e hread hmiss)
  · rename_i val hpc hread
    cases h
    exact .go _ i _ _ hpc (.recheckHit fail val hread)
  · rename_i e hpc hread
    cases h
    exact .go _ i _ _ hpc (.recheckMiss fail e hread)
  · rename_i deadline backoff val hpc hread
    cases h
    exact .go _ i _ _ hpc (.spinHit fail val deadline backoff hread)
  · rename_i deadline backoff e hpc hread
    cases h
    exact .go _ i _ _ hpc (.spinMiss fail e deadline backoff hread)
  · cases h

theorem stepSetNX_step (h : stepSetNX s i fail = some t) : SysStep s (.setNX i fail) t := by
  unfold stepSetNX at h
  simp only at h
  split at h
  · rename_i e hpc
    cases h
    exact .go _ i _ _ hpc (.lockFailed e)
  · rename_i hpc
    cases hlock : Expiring.lookup s.store s.now (s.callers i).args.lockKey with
    | some x =>
      simp only [setNX, hlock] at h
      cases h
      exact .go _ i _ _ hpc (.lockTaken x hlock)
    | none =>
      simp only [setNX, hlock] at h
      cases h
      exact .acquired i hpc hlock
  · cases h

theorem stepSet_step (h : stepSet s i fail = some t) : SysStep s (.set i fail) t := by
  unfold stepSet at h
  simp only at h
  split at h
  · rename_i result e hpc
    cases h
    exact .go _ i _ _ hpc (.setFailed e result)
  · rename_i result hpc
    cases h
    exact .stored i result hpc
  · cases h

theorem stepDel_step (h : stepDel s i fail = some t) : SysStep s (.del i fail) t := by
  unfold stepDel at h
  simp only at h
  split at h
  · rename_i ret e hpc
    cases h
    exact .go _ i _ _ hpc (.delFailed e ret)
  · rename_i ret hpc
    cases h
    exact .released i ret hpc
  · cases h

theorem stepFn_step {result : Except Error String} (h : stepFn s i result = some t) :
    SysStep s (.fn i result) t := by
  unfold stepFn at h
  split at h
  · rename_i e hpc
    cases h
    exact .go _ i _ _ hpc (.fnFailed e)
  · rename_i r hpc
    cases h
    exact .go _ i _ _ hpc (.computed r)
  · rename_i hpc
    cases h
    exact .go _ i _ _ hpc (.fellBack _)
  · cases h

theorem stepClock_step (h : stepClock s i = some t) : SysStep s (.clock i) t := by
  unfold stepClock at h
  split at h
  · rename_i hpc
    cases h
    exact .go _ i _ _ hpc .armed
  · rename_i deadline backoff hpc
    cases h
    by_cases hnow : s.now < deadline
    · rw [if_pos hnow]
      exact .go _ i _ _ hpc (.waits deadline backoff hnow)
    · rw [if_neg hnow]
      exact .go _ i _ _ hpc (.gaveUp deadline backoff (Int.not_lt.mp hnow))
  · cases h

theorem stepSelect_step {elapsed : Bool} (h : stepSelect s i elapsed = some t) :
    SysStep s (.select i elapsed) t := by
  unfold stepSelect at h
  split at h
  · rename_i deadline backoff since hpc
    cases elapsed with
    | true =>
      simp only [if_true] at h
      split at h
      · rename_i hnow
        cases h
        exact .go _ i _ _ hpc (.woke deadline backoff since hnow)
      · cases h
    | false =>
      simp only [Bool.false_eq_true, if_false] at h
      split at h
      · rename_i hctx
        cases h
        exact .go _ i _ _ hpc (.ctxDone deadline backoff since hctx)
      · cases h
  · cases h

theorem step_sysStep {a : Action} (h : step s a = some t) : SysStep s a t := by
  cases a with
  | tick d =>
    cases h
    exact .tick d
  | call i args =>
    simp only [step] at h
    split at h
    · rename_i hpc
      cases h
      exact .call i args hpc
    · cases h
  | cancel i =>
    cases h
    exact .cancel i
  | crash i =>
    cases h
    exact .go _ i _ _ rfl (.crashed _)
  | get i fail => exact stepGet_step h
  | setNX i fail => exact stepSetNX_step h
  | set i fail => exact stepSet_step h
  | del i fail => exact stepDel_step h
  | fn i result => exact stepFn_step h
  | clock i => exact stepClock_step h
  | select i elapsed => exact stepSelect_step h

/-! ### Every branch is taken -/

theorem Goes.step {a : Action} {old new : Pc} (hpc : (s.callers i).pc = old) (h : Goes s i a old new) :
    Cache.step s a = some (s.setPc i new) := by
  cases h with
  | hit fail val hread | recheckHit fail val hread | spinHit fail val _ _ hread
  | recheckMiss fail e hread | spinMiss fail e _ _ hread =>
    simp only [Cache.step, stepGet, hpc, hread]
  | miss fail e hread hmiss | getFailed fail e hread hmiss =>
    simp [Cache.step, stepGet, hpc, hread, hmiss]
  | lockFailed e => simp only [Cache.step, stepSetNX, hpc]
  | lockTaken x hx => simp only [Cache.step, stepSetNX, hpc, setNX, hx]
  | fnFailed e | computed result => simp only [Cache.step, stepFn, hpc]
  | fellBack ret => cases ret <;> simp only [Cache.step, stepFn, hpc]
  | setFailed e result => simp only [Cache.step, stepSet, hpc]
  | delFailed e ret => simp only [Cache.step, stepDel, hpc]
  | armed => simp only [Cache.step, stepClock, hpc]
  | waits deadline backoff hnow => simp only [Cache.step, stepClock, hpc, if_pos hnow]
  | gaveUp deadline backoff hnow => simp only [Cache.step, stepClock, hpc, if_neg (Int.not_lt.mpr hnow)]
  | woke deadline backoff since hnow => simp only [Cache.step, stepSelect, hpc, if_true, if_pos hnow]
  | ctxDone deadline backoff since hctx =>
    simp only [Cache.step, stepSelect, hpc, Bool.false_eq_true, if_false, if_pos hctx]
  | crashed => rfl

theorem SysStep.step {a : Action} (h : SysStep s a t) : Cache.step s a = some t := by
  cases h with
  | tick | cancel => rfl
  | call i args hpc => simp only [Cache.step, hpc]
  | go a i old new hpc h => exact h.step hpc
  | acquired i hpc hfree => simp only [Cache.step, stepSetNX, hpc, setNX, hfree]
  | stored i result hpc => simp only [Cache.step, stepSet, hpc]
  | released i ret hpc => simp only [Cache.step, stepDel, hpc]

theorem Goes.caller {a : Action} {old new : Pc} (h : Goes s i a old new) : a.caller = some i := by
  cases h <;> rfl

theorem step_others {a : Action} {j : Nat} (h : step s a = some t) (hj : a.caller ≠ some j) :
    t.callers j = s.callers j := by
  have hother {i : Nat} (hi : a.caller = some i) : j ≠ i := fun hji => hj (by rw [hi, hji])
  cases step_sysStep h with
  | tick d => rfl
  | call i args hpc => exact Function.update_of_ne (hother rfl) ..
  | cancel i => exact Function.update_of_ne (hother rfl) ..
  | go a i old new hpc hgo => exact setPc_other s new (hother hgo.caller)
  | acquired i hpc hfree => exact setPc_other _ _ (hother rfl)
  | stored i result hpc => exact setPc_other _ _ (hother rfl)
  | released i ret hpc => exact setPc_other _ _ (hother rfl)

-- What is read is an entry of the cache.
theorem read_eq_ok {key val : String} (h : s.read key fail = .ok val) :
    ∃ x, Expiring.lookup s.store s.now key = some x ∧ x.value = val := by
  cases fail with
  | some e => cases h
  | none =>
    simp only [Sys.read, get] at h
    split at h
    · rename_i x hx
      cases h
      exact ⟨x, hx, rfl⟩
    · cases h

theorem read_eq_error {key : String} {e : Error} (h : s.read key none = .error e) :
    Expiring.lookup s.store s.now key = none ∧ e = errCacheMiss := by
  simp only [Sys.read, get] at h
  split at h
  · cases h
  · rename_i hx
    cases h
    exact ⟨hx, rfl⟩

/-! ### What a step does to the locked section -/

-- between a successful `SetNX` and the end of the deferred `Del`
def Pc.holding : Pc → Bool
  | .doubleCheck | .leading | .storing _ | .releasing _ => true
  | _ => false

-- holding, and `fn` has not returned
def Pc.ahead : Pc → Bool
  | .doubleCheck | .leading => true
  | _ => false

def Pc.inFn : Pc → Bool
  | .leading | .fallback => true
  | _ => false

-- A move that enters neither the locked section nor `fn` from outside.
structure Narrows (old new : Pc) : Prop where
  holding : new.holding = true → old.holding = true
  ahead : new.ahead = true → old.ahead = true
  inFn : new.inFn = true → old.inFn = true ∨ old.ahead = true

theorem narrows_out {old new : Pc} (hh : new.holding = false) (hf : new.inFn = false) :
    Narrows old new := by
  have ha : new.ahead = false := by
    cases new with
    | doubleCheck | leading => exact hh
    | _ => rfl
  exact ⟨by rw [hh]; simp, by rw [ha]; simp, by rw [hf]; simp⟩

/- Only a waiter that gives up enters `fn` from outside. -/
theorem Goes.narrows_or_gaveUp {a : Action} {old new : Pc} (h : Goes s i a old new) :
    Narrows old new ∨ ∃ deadline backoff, a = .clock i ∧ old = .spin deadline backoff ∧ new = .fallback ∧
      deadline ≤ s.now := by
  cases h with
  | recheckHit | fnFailed | computed | setFailed =>
    exact .inl ⟨fun _ => rfl, by simp [Pc.ahead], by simp [Pc.inFn]⟩
  | recheckMiss => exact .inl ⟨fun _ => rfl, fun _ => rfl, fun _ => .inr rfl⟩
  | gaveUp deadline backoff hnow => exact .inr ⟨deadline, backoff, rfl, rfl, rfl, hnow⟩
  | _ => exact .inl (narrows_out rfl rfl)

end Ghost.Cache
