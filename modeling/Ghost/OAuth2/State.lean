import Ghost.Go.Errors

/-!
# State storage (oauth2/state.go)

`InMemoryStorage` is a map from state strings to the security parameters of one
authorization request. Each method runs under the storage mutex, so each is one
atomic function of the map and of the clock reading it takes inside the lock.
-/

namespace Ghost.OAuth2
open Go

/-- `time.Time` as nanoseconds on one clock; durations may be negative. -/
abbrev Time := Int

def errStateNotFound : Error := .new "ErrStateNotFound" "state not found"
def errStateExpired : Error := .new "ErrStateExpired" "state expired"

structure StateData where
  nonce : String
  codeVerifier : String
  expiresAt : Time
  deriving DecidableEq, Repr

/-- `time.Now().After(data.ExpiresAt)`: the expiry instant itself still counts. -/
def StateData.expired (d : StateData) (now : Time) : Bool := decide (d.expiresAt < now)

theorem StateData.not_expired_iff (d : StateData) (now : Time) :
    d.expired now = false ↔ now ≤ d.expiresAt := by
  simp only [expired, decide_eq_false_iff_not, Int.not_lt]

structure InMemoryStorage where
  data : String → Option StateData

namespace InMemoryStorage

def empty : InMemoryStorage := ⟨fun _ => none⟩

def saveState (s : InMemoryStorage) (state nonce codeVerifier : String) (expiresAt : Time) :
    InMemoryStorage :=
  ⟨Function.update s.data state (some ⟨nonce, codeVerifier, expiresAt⟩)⟩

def deleteState (s : InMemoryStorage) (state : String) : InMemoryStorage :=
  ⟨Function.update s.data state none⟩

/-- Lookup and lazy expiry in one critical section: an expired entry is removed
before the error is returned. -/
def getStateData (s : InMemoryStorage) (now : Time) (state : String) :
    Except Error StateData × InMemoryStorage :=
  match s.data state with
  | none => (.error errStateNotFound, s)
  | some d => if d.expired now then (.error errStateExpired, s.deleteState state) else (.ok d, s)

/-- The background sweep. -/
def removeExpired (s : InMemoryStorage) (now : Time) : InMemoryStorage :=
  ⟨fun state => (s.data state).filter fun d => !d.expired now⟩

theorem saveState_other (s : InMemoryStorage) {state other : String} (n v : String) (t : Time)
    (h : other ≠ state) : (s.saveState state n v t).data other = s.data other := by
  simp [saveState, h]

@[simp] theorem deleteState_self (s : InMemoryStorage) (state : String) :
    (s.deleteState state).data state = none := by
  simp [deleteState]

theorem deleteState_other (s : InMemoryStorage) {state other : String} (h : other ≠ state) :
    (s.deleteState state).data other = s.data other := by
  simp [deleteState, h]

/-- A deletion makes no entry appear. -/
theorem deleteState_none (s : InMemoryStorage) (state other : String)
    (h : s.data other = none) : (s.deleteState state).data other = none := by
  by_cases ho : other = state
  · rw [ho, deleteState_self]
  · rw [deleteState_other s ho, h]

theorem deleteState_some (s : InMemoryStorage) {state other : String} {d : StateData}
    (h : (s.deleteState state).data other = some d) : s.data other = some d := by
  by_cases ho : other = state
  · rw [ho, deleteState_self] at h
    cases h
  · rw [deleteState_other s ho] at h
    exact h

theorem removeExpired_some (s : InMemoryStorage) {now : Time} {state : String} {d : StateData}
    (h : (s.removeExpired now).data state = some d) : s.data state = some d :=
  (Option.filter_eq_some_iff.mp h).1

theorem removeExpired_none (s : InMemoryStorage) (now : Time) (state : String)
    (h : s.data state = none) : (s.removeExpired now).data state = none := by
  simp [removeExpired, h]

/-- What a lookup can do: it succeeds on an unexpired entry and changes
nothing, or it fails and at most removes the expired entry it met. -/
theorem getStateData_cases (s : InMemoryStorage) (now : Time) (state : String) :
    (∃ d, s.data state = some d ∧ d.expired now = false ∧
      s.getStateData now state = (.ok d, s)) ∨
    (s.data state = none ∧ s.getStateData now state = (.error errStateNotFound, s)) ∨
    (∃ d, s.data state = some d ∧ d.expired now = true ∧
      s.getStateData now state = (.error errStateExpired, s.deleteState state)) := by
  cases hd : s.data state with
  | none => exact .inr (.inl ⟨rfl, by simp [getStateData, hd]⟩)
  | some d =>
    cases he : d.expired now with
    | false => exact .inl ⟨d, rfl, he, by simp [getStateData, hd, he]⟩
    | true => exact .inr (.inr ⟨d, rfl, he, by simp [getStateData, hd, he]⟩)

end InMemoryStorage

end Ghost.OAuth2
