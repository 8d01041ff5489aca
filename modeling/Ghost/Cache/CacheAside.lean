import Ghost.Go.Errors
import Ghost.Store.Expiring
import Ghost.Transition.Run

/-!
# Cache-aside (cache/cache_aside.go over cache/redis_cache.go)

`GetOrSet` as a machine, one step for each cache operation, each return of `fn`,
each look at the clock and each select. Any number of callers run over one
store and one clock. Every cache operation may fail without effect, and a caller
may crash wherever it stands.
-/

namespace Ghost.Cache
open Go Transition

/-! ### The store (redis_cache.go) -/

-- `owner` records whose `SetNX` made the entry; the program has no such field.
structure Stored where
  value : String
  owner : Option Nat
  deriving DecidableEq, Repr

abbrev Store := String → Option (Expiring.Entry Stored)

def errCacheMiss : Error := .new "ErrCacheMiss" "cache miss"

def isCacheMiss (e : Error) : Bool := e.is errCacheMiss

def millisecond : Int := 1000000
def second : Int := 1000000000

/- The client sends whole milliseconds, at least one, and no expiry at all for a
duration that is not positive. -/
def expiry (now ttl : Int) : Option Int :=
  if ttl > 0 then some (now + max 1 (ttl / millisecond) * millisecond) else none

def get (st : Store) (now : Int) (key : String) : Except Error String :=
  match Expiring.lookup st now key with
  | some x => .ok x.value
  | none => .error errCacheMiss

def set (st : Store) (now : Int) (key value : String) (ttl : Int) : Store :=
  -- a duration of -1 ns is the client's `KeepTTL`
  let expires := if ttl = -1 then ((Expiring.lookup st now key).bind fun _ => st key).bind (·.expires)
    else expiry now ttl
  Expiring.put st key ⟨value, none⟩ expires

def setNX (st : Store) (now : Int) (caller : Nat) (key value : String) (ttl : Int) : Bool × Store :=
  match Expiring.lookup st now key with
  | some _ => (false, st)
  | none => (true, Expiring.put st key ⟨value, some caller⟩ (expiry now ttl))

def del (st : Store) (key : String) : Store := Expiring.remove st key

/-! ### GetOrSet -/

def defaultLockTTL : Int := 10 * second
def retryTimeout : Int := 50 * millisecond
def nilSentinel : String := "\x00nil\x00"
def lockSuffix : String := ":lock"

structure GetOrSetOptions where
  lockTTL : Int
  cacheNil : Bool
  deriving DecidableEq, Repr

def defaultGetOrSetOpts : List GetOrSetOptions → GetOrSetOptions
  | o :: _ => o
  | [] => ⟨defaultLockTTL, false⟩

def fromStore (val : String) : String := if val = nilSentinel then "" else val

structure Args where
  key : String
  ttl : Int
  opts : List GetOrSetOptions
  deriving DecidableEq, Repr

def Args.lockKey (a : Args) : String := a.key ++ lockSuffix

def Args.lockTTL (a : Args) : Int :=
  let lockTTL := (defaultGetOrSetOpts a.opts).lockTTL
  if lockTTL ≤ 0 then defaultLockTTL else lockTTL

def Args.storeVal (a : Args) (result : String) : String :=
  if result = "" ∧ (defaultGetOrSetOpts a.opts).cacheNil = true then nilSentinel else result

/- Where a caller stands. `doubleCheck`, `leading`, `storing` and `releasing` lie
between a successful `SetNX` and the deferred `Del`; `leading` and `fallback` run `fn`. -/
inductive Pc where
  | idle
  | lookup
  | acquire
  | doubleCheck
  | leading
  | storing (result : String)
  | releasing (ret : Except Error String)
  | arm
  | spin (deadline backoff : Int)
  | waiting (deadline backoff since : Int)
  | spinGet (deadline backoff : Int)
  | fallback
  | done (ret : Except Error String)
  | crashed

structure Caller where
  args : Args
  pc : Pc
  ctxDone : Bool

structure Sys where
  store : Store
  now : Int
  callers : Nat → Caller
  -- for each deferred `Del` that removed an entry: the caller, and the entry's owner
  dels : List (Nat × Option Nat)

-- Before the first call, whatever the store holds.
def Sys.start (store : Store) (now : Int) : Sys :=
  ⟨store, now, fun _ => ⟨⟨"", 0, []⟩, .idle, false⟩, []⟩

def Sys.setPc (s : Sys) (i : Nat) (pc : Pc) : Sys :=
  { s with callers := Function.update s.callers i { s.callers i with pc := pc } }

inductive Action where
  | tick (d : Nat)
  | call (i : Nat) (args : Args)
  | cancel (i : Nat)
  | crash (i : Nat)
  -- cache operations, with the error if the operation fails
  | get (i : Nat) (fail : Option Error)
  | setNX (i : Nat) (fail : Option Error)
  | set (i : Nat) (fail : Option Error)
  | del (i : Nat) (fail : Option Error)
  | fn (i : Nat) (result : Except Error String)
  -- the caller looks at its clock
  | clock (i : Nat)
  | select (i : Nat) (elapsed : Bool)

def canceled : Error := .new "context.Canceled" "context canceled"

def cap (backoff : Int) : Int := if backoff > 50 * millisecond then 50 * millisecond else backoff

-- a read that the environment may let fail
def Sys.read (s : Sys) (key : String) : Option Error → Except Error String
  | some e => .error e
  | none => get s.store s.now key

def stepGet (s : Sys) (i : Nat) (fail : Option Error) : Option Sys :=
  let a := (s.callers i).args
  match (s.callers i).pc, s.read a.key fail with
  | .lookup, .ok val => some (s.setPc i (.done (.ok (fromStore val))))
  | .lookup, .error e => some (s.setPc i (if isCacheMiss e then .acquire else .done (.error e)))
  | .doubleCheck, .ok val => some (s.setPc i (.releasing (.ok (fromStore val))))
  | .doubleCheck, .error _ => some (s.setPc i .leading)
  | .spinGet _ _, .ok val => some (s.setPc i (.done (.ok (fromStore val))))
  | .spinGet deadline backoff, .error _ => some (s.setPc i (.spin deadline (cap (backoff * 2))))
  | _, _ => none

def stepSetNX (s : Sys) (i : Nat) (fail : Option Error) : Option Sys :=
  let a := (s.callers i).args
  match (s.callers i).pc, fail with
  | .acquire, some e => some (s.setPc i (.done (.error e)))
  | .acquire, none =>
    match setNX s.store s.now i a.lockKey a.lockKey a.lockTTL with
    | (true, st) => some ({ s with store := st }.setPc i .doubleCheck)
    | (false, st) => some ({ s with store := st }.setPc i .arm)
  | _, _ => none

def stepSet (s : Sys) (i : Nat) (fail : Option Error) : Option Sys :=
  let a := (s.callers i).args
  match (s.callers i).pc, fail with
  | .storing _, some e => some (s.setPc i (.releasing (.error e)))
  | .storing result, none =>
    some ({ s with store := set s.store s.now a.key (a.storeVal result) a.ttl }.setPc i
      (.releasing (.ok result)))
  | _, _ => none

-- The deferred function ignores the error of `Del`.
def stepDel (s : Sys) (i : Nat) (fail : Option Error) : Option Sys :=
  let a := (s.callers i).args
  match (s.callers i).pc, fail with
  | .releasing ret, some _ => some (s.setPc i (.done ret))
  | .releasing ret, none =>
    let removed := (Expiring.lookup s.store s.now a.lockKey).map fun x => (i, x.owner)
    some ({ s with store := del s.store a.lockKey, dels := s.dels ++ removed.toList }.setPc i (.done ret))
  | _, _ => none

def stepFn (s : Sys) (i : Nat) (result : Except Error String) : Option Sys :=
  match (s.callers i).pc, result with
  | .leading, .error e => some (s.setPc i (.releasing (.error e)))
  | .leading, .ok r => some (s.setPc i (.storing r))
  | .fallback, ret => some (s.setPc i (.done ret))
  | _, _ => none

def stepClock (s : Sys) (i : Nat) : Option Sys :=
  match (s.callers i).pc with
  | .arm => some (s.setPc i (.spin (s.now + retryTimeout * 10) (5 * millisecond)))
  | .spin deadline backoff =>
    some (s.setPc i (if s.now < deadline then .waiting deadline backoff s.now else .fallback))
  | _ => none

def stepSelect (s : Sys) (i : Nat) (elapsed : Bool) : Option Sys :=
  match (s.callers i).pc with
  | .waiting deadline backoff since =>
    if elapsed then
      if since + backoff ≤ s.now then some (s.setPc i (.spinGet deadline backoff)) else none
    else if (s.callers i).ctxDone then some (s.setPc i (.done (.error canceled)))
    else none
  | _ => none

def step (s : Sys) : Action → Option Sys
  | .tick d => some { s with now := s.now + d }
  | .call i args =>
    match (s.callers i).pc with
    | .idle => some { s with callers := Function.update s.callers i ⟨args, .lookup, (s.callers i).ctxDone⟩ }
    | _ => none
  | .cancel i =>
    some { s with callers := Function.update s.callers i { s.callers i with ctxDone := true } }
  | .crash i => some (s.setPc i .crashed)
  | .get i fail => stepGet s i fail
  | .setNX i fail => stepSetNX s i fail
  | .set i fail => stepSet s i fail
  | .del i fail => stepDel s i fail
  | .fn i result => stepFn s i result
  | .clock i => stepClock s i
  | .select i elapsed => stepSelect s i elapsed

@[simp] theorem setPc_store (s : Sys) (i : Nat) (pc : Pc) : (s.setPc i pc).store = s.store := rfl
@[simp] theorem setPc_now (s : Sys) (i : Nat) (pc : Pc) : (s.setPc i pc).now = s.now := rfl
@[simp] theorem setPc_dels (s : Sys) (i : Nat) (pc : Pc) : (s.setPc i pc).dels = s.dels := rfl

@[simp] theorem setPc_args (s : Sys) (i j : Nat) (pc : Pc) :
    ((s.setPc i pc).callers j).args = (s.callers j).args := by
  by_cases h : j = i
  · subst h
    simp [Sys.setPc]
  · simp [Sys.setPc, Function.update_of_ne h]

@[simp] theorem setPc_self (s : Sys) (i : Nat) (pc : Pc) : ((s.setPc i pc).callers i).pc = pc := by
  simp [Sys.setPc]

theorem setPc_other (s : Sys) {i j : Nat} (pc : Pc) (h : j ≠ i) :
    (s.setPc i pc).callers j = s.callers j := by
  simp [Sys.setPc, Function.update_of_ne h]

end Ghost.Cache
