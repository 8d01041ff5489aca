import Ghost.OAuth2.Steps
import Ghost.Transition.Padding
import Mathlib.Data.List.Induction

/-!
# Expiry of states (oauth2/state.go, oauth2/manager.go)

Expired entries leave the storage by two routes, a lookup that meets one and the
background sweep. What the storage would hold right after a sweep does not depend
on either: it is the plain map of the saves and deletes, less what has expired.
-/

namespace Ghost.OAuth2
open Go Transition

/-! ### What is left of a storage after a sweep -/

namespace InMemoryStorage

variable {s u : InMemoryStorage} {now later : Time} {state : String} {d : StateData}

theorem ext_data (h : ∀ state, s.data state = u.data state) : s = u := by
  cases s
  cases u
  exact congrArg mk (funext h)

theorem removeExpired_eq_some_iff :
    (s.removeExpired now).data state = some d ↔ s.data state = some d ∧ now ≤ d.expiresAt := by
  simp only [removeExpired, Option.filter_eq_some_iff, Bool.not_eq_true', StateData.not_expired_iff]

theorem removeExpired_removeExpired (hle : now ≤ later) :
    (s.removeExpired now).removeExpired later = s.removeExpired later := by
  refine ext_data fun state => Option.ext fun d => ?_
  simp only [removeExpired_eq_some_iff]
  constructor
  · rintro ⟨⟨hd, -⟩, hlater⟩
    exact ⟨hd, hlater⟩
  · rintro ⟨hd, hlater⟩
    have hnow : now ≤ d.expiresAt := Int.le_trans hle hlater
    exact ⟨⟨hd, hnow⟩, hlater⟩

theorem removeExpired_later (hle : now ≤ later) (h : s.removeExpired now = u.removeExpired now) :
    s.removeExpired later = u.removeExpired later := by
  rw [← removeExpired_removeExpired hle, h, removeExpired_removeExpired hle]

theorem removeExpired_update (data : String → Option StateData) (value : Option StateData) :
    removeExpired ⟨Function.update data state value⟩ now =
      ⟨Function.update (removeExpired ⟨data⟩ now).data state (value.filter fun d => !d.expired now)⟩ := by
  refine ext_data fun other => ?_
  by_cases ho : other = state
  · subst ho
    simp [removeExpired]
  · simp [removeExpired, ho]

theorem removeExpired_saveState (h : s.removeExpired now = u.removeExpired now) (state nonce codeVerifier : String)
    (expiresAt : Time) :
    (s.saveState state nonce codeVerifier expiresAt).removeExpired now =
      (u.saveState state nonce codeVerifier expiresAt).removeExpired now := by
  unfold saveState
  rw [removeExpired_update, removeExpired_update, h]

theorem removeExpired_deleteState (h : s.removeExpired now = u.removeExpired now) :
    (s.deleteState state).removeExpired now = (u.deleteState state).removeExpired now := by
  unfold deleteState
  rw [removeExpired_update, removeExpired_update, h]

-- An expired entry is gone after the sweep, deleted before it or not.
theorem removeExpired_deleteState_expired (hd : s.data state = some d) (he : d.expired now = true) :
    (s.deleteState state).removeExpired now = s.removeExpired now := by
  refine ext_data fun other => ?_
  by_cases ho : other = state
  · subst ho
    simp only [removeExpired, deleteState_self, hd, Option.filter_none]
    exact (Option.filter_some_neg (by simp [he])).symm
  · simp [removeExpired, deleteState_other s ho]

theorem removeExpired_getStateData (s : InMemoryStorage) (now : Time) (state : String) :
    (s.getStateData now state).2.removeExpired now = s.removeExpired now := by
  rcases s.getStateData_cases now state with ⟨d, -, -, hg⟩ | ⟨-, hg⟩ | ⟨d, hd, he, hg⟩
  · rw [hg]
  · rw [hg]
  · rw [hg]
    exact removeExpired_deleteState_expired hd he

theorem getStateData_ok_iff : (s.getStateData now state).1 = .ok d ↔ (s.removeExpired now).data state = some d := by
  rw [removeExpired_eq_some_iff, ← StateData.not_expired_iff]
  rcases s.getStateData_cases now state with ⟨d', hd, he, hg⟩ | ⟨hd, hg⟩ | ⟨d', hd, he, hg⟩
  · rw [hg, hd]
    constructor
    · rintro ⟨⟩
      exact ⟨rfl, he⟩
    · rintro ⟨⟨⟩, -⟩
      rfl
  · simp [hg, hd]
  · rw [hg, hd]
    constructor
    · rintro ⟨⟩
    · rintro ⟨⟨⟩, hlive⟩
      exact absurd (he.symm.trans hlive) (by decide)

theorem getStateData_of_ok (h : (s.getStateData now state).1 = .ok d) : s.getStateData now state = (.ok d, s) := by
  rcases s.getStateData_cases now state with ⟨d', -, -, hg⟩ | ⟨-, hg⟩ | ⟨d', -, -, hg⟩
  · rw [hg] at h ⊢
    cases h
    rfl
  · rw [hg] at h
    cases h
  · rw [hg] at h
    cases h

/- Two storages that a sweep makes equal answer alike, up to which error it is. -/
theorem getStateData_both (h : s.removeExpired now = u.removeExpired now) (state : String) :
    (∃ d, s.getStateData now state = (.ok d, s) ∧ u.getStateData now state = (.ok d, u)) ∨
    ∃ e e' st st', s.getStateData now state = (.error e, st) ∧ u.getStateData now state = (.error e', st') ∧
      st.removeExpired now = st'.removeExpired now := by
  have hiff : ∀ d, (s.getStateData now state).1 = .ok d ↔ (u.getStateData now state).1 = .ok d := fun d => by
    rw [getStateData_ok_iff, getStateData_ok_iff, h]
  cases hs : (s.getStateData now state).1 with
  | ok d => exact .inl ⟨d, getStateData_of_ok hs, getStateData_of_ok ((hiff d).mp hs)⟩
  | error e =>
    cases hu : (u.getStateData now state).1 with
    | ok d =>
      have hok := (hiff d).mpr hu
      rw [hs] at hok
      cases hok
    | error e' =>
      refine .inr ⟨e, e', _, _, Prod.ext hs rfl, Prod.ext hu rfl, ?_⟩
      rw [removeExpired_getStateData, removeExpired_getStateData, h]

end InMemoryStorage

/-! ### Histories of the locked operations -/

inductive StorageOp where
  | saveState (state nonce codeVerifier : String) (expiresAt : Time)
  | getStateData (state : String)
  | deleteState (state : String)
  | removeExpired
  deriving DecidableEq

namespace StorageOp

def apply (now : Time) (s : InMemoryStorage) : StorageOp → InMemoryStorage
  | .saveState state nonce codeVerifier expiresAt => s.saveState state nonce codeVerifier expiresAt
  | .getStateData state => (s.getStateData now state).2
  | .deleteState state => s.deleteState state
  | .removeExpired => s.removeExpired now

def writes : StorageOp → Bool
  | .saveState _ _ _ _ | .deleteState _ => true
  | .getStateData _ | .removeExpired => false

def writesTo (state : String) : StorageOp → Prop
  | .saveState other _ _ _ | .deleteState other => other = state
  | .getStateData _ | .removeExpired => False

theorem apply_read {op : StorageOp} (h : op.writes = false) (s : InMemoryStorage) (now : Time) :
    (op.apply now s).removeExpired now = s.removeExpired now := by
  cases op with
  | saveState | deleteState => cases h
  | getStateData state => exact InMemoryStorage.removeExpired_getStateData s now state
  | removeExpired => exact InMemoryStorage.removeExpired_removeExpired (Int.le_refl now)

theorem apply_write {op : StorageOp} (h : op.writes = true) {s u : InMemoryStorage} {now : Time}
    (hsu : s.removeExpired now = u.removeExpired now) :
    (op.apply now s).removeExpired now = (op.apply now u).removeExpired now := by
  cases op with
  | saveState state nonce codeVerifier expiresAt =>
    exact InMemoryStorage.removeExpired_saveState hsu state nonce codeVerifier expiresAt
  | deleteState state => exact InMemoryStorage.removeExpired_deleteState hsu
  | getStateData | removeExpired => cases h

end StorageOp

/- The operations in the order they take the lock, each with the time it reads there. -/
def InMemoryStorage.run (ops : List (Time × StorageOp)) : InMemoryStorage :=
  ops.foldl (fun s op => op.2.apply op.1 s) .empty

def Timely (ops : List (Time × StorageOp)) (now : Time) : Prop :=
  ops.Pairwise (fun a b => a.1 ≤ b.1) ∧ ∀ op ∈ ops, op.1 ≤ now

/- `d` is what the last `SaveState` of `state` stored, with no `DeleteState` after it. -/
def Stored (ops : List (Time × StorageOp)) (state : String) (d : StateData) : Prop :=
  ∃ before at_ after, ops = before ++ (at_, .saveState state d.nonce d.codeVerifier d.expiresAt) :: after ∧
    ∀ op ∈ after, ¬ op.2.writesTo state

section History

variable {ops : List (Time × StorageOp)} {now : Time} {state : String} {d : StateData}

theorem run_snoc (ops : List (Time × StorageOp)) (at_ : Time) (op : StorageOp) :
    InMemoryStorage.run (ops ++ [(at_, op)]) = op.apply at_ (InMemoryStorage.run ops) := by
  simp [InMemoryStorage.run]

theorem Timely.snoc {at_ : Time} {op : StorageOp} (h : Timely (ops ++ [(at_, op)]) now) :
    Timely ops at_ ∧ at_ ≤ now := by
  obtain ⟨hsorted, hnow⟩ := h
  obtain ⟨hops, -, hbefore⟩ := List.pairwise_append.mp hsorted
  refine ⟨⟨hops, fun earlier hearlier => ?_⟩, hnow (at_, op) (by simp)⟩
  exact hbefore earlier hearlier (at_, op) (by simp)

theorem filter_snoc_write {op : StorageOp} (h : op.writes = true) (at_ : Time) :
    (ops ++ [(at_, op)]).filter (fun op => op.2.writes) = (ops.filter fun op => op.2.writes) ++ [(at_, op)] := by
  simp [h]

theorem filter_snoc_read {op : StorageOp} (h : op.writes = false) (at_ : Time) :
    (ops ++ [(at_, op)]).filter (fun op => op.2.writes) = ops.filter fun op => op.2.writes := by
  simp [h]

/- The sweeps and the lookups leave no trace in what a sweep would leave. -/
theorem run_removeExpired (h : Timely ops now) :
    (InMemoryStorage.run ops).removeExpired now =
      (InMemoryStorage.run (ops.filter fun op => op.2.writes)).removeExpired now := by
  induction ops using List.reverseRecOn generalizing now with
  | nil => rfl
  | append_singleton ops last ih =>
    obtain ⟨at_, op⟩ := last
    obtain ⟨hops, hnow⟩ := h.snoc
    refine InMemoryStorage.removeExpired_later hnow ?_
    cases hop : op.writes with
    | true =>
      rw [filter_snoc_write hop, run_snoc, run_snoc]
      exact StorageOp.apply_write hop (ih hops)
    | false =>
      rw [filter_snoc_read hop, run_snoc, StorageOp.apply_read hop]
      exact ih hops

theorem stored_snoc {at_ : Time} {op : StorageOp} :
    Stored (ops ++ [(at_, op)]) state d ↔
      op = .saveState state d.nonce d.codeVerifier d.expiresAt ∨ ¬ op.writesTo state ∧ Stored ops state d := by
  constructor
  · rintro ⟨before, at', after, heq, hafter⟩
    rcases List.eq_nil_or_concat after with rfl | ⟨after, last, rfl⟩
    · obtain ⟨-, hlast⟩ := List.append_inj' heq rfl
      cases hlast
      exact .inl rfl
    · rw [List.concat_eq_append, ← List.cons_append, ← List.append_assoc] at heq
      obtain ⟨hops, hlast⟩ := List.append_inj' heq rfl
      cases hlast
      refine .inr ⟨hafter (at_, op) (by simp), before, at', after, hops, fun op hop => ?_⟩
      exact hafter op (by simp [hop])
  · rintro (rfl | ⟨hop, before, at', after, rfl, hafter⟩)
    · exact ⟨ops, at_, [], rfl, by simp⟩
    · refine ⟨before, at', after ++ [(at_, op)], by simp, fun x hx => ?_⟩
      rcases List.mem_append.mp hx with hx | hx
      · exact hafter x hx
      · rw [List.mem_singleton.mp hx]
        exact hop

theorem run_writes_eq_some_iff :
    (InMemoryStorage.run (ops.filter fun op => op.2.writes)).data state = some d ↔ Stored ops state d := by
  induction ops using List.reverseRecOn with
  | nil =>
    constructor
    · intro h
      cases h
    · rintro ⟨before, at_, after, heq, -⟩
      simp at heq
  | append_singleton ops last ih =>
    obtain ⟨at_, op⟩ := last
    rw [stored_snoc]
    cases op with
    | getStateData other =>
      rw [filter_snoc_read rfl, ih]
      simp [StorageOp.writesTo]
    | removeExpired =>
      rw [filter_snoc_read rfl, ih]
      simp [StorageOp.writesTo]
    | saveState other nonce codeVerifier expiresAt =>
      rw [filter_snoc_write rfl, run_snoc, StorageOp.apply]
      by_cases ho : other = state
      · subst ho
        cases d
        simp [StorageOp.writesTo, InMemoryStorage.saveState]
      · rw [InMemoryStorage.saveState_other _ _ _ _ (Ne.symm ho), ih]
        simp [StorageOp.writesTo, ho]
    | deleteState other =>
      rw [filter_snoc_write rfl, run_snoc, StorageOp.apply]
      by_cases ho : other = state
      · subst ho
        simp [StorageOp.writesTo]
      · rw [InMemoryStorage.deleteState_other _ (Ne.symm ho), ih]
        simp [StorageOp.writesTo, ho]

theorem getStateData_ok_iff_stored (h : Timely ops now) :
    ((InMemoryStorage.run ops).getStateData now state).1 = .ok d ↔ Stored ops state d ∧ now ≤ d.expiresAt := by
  rw [InMemoryStorage.getStateData_ok_iff, run_removeExpired h, InMemoryStorage.removeExpired_eq_some_iff,
    run_writes_eq_some_iff]

theorem getStateData_ok_iff_of_writes {ops' : List (Time × StorageOp)} (h : Timely ops now) (h' : Timely ops' now)
    (hwrites : (ops.filter fun op => op.2.writes) = ops'.filter fun op => op.2.writes) :
    ((InMemoryStorage.run ops).getStateData now state).1 = .ok d ↔
      ((InMemoryStorage.run ops').getStateData now state).1 = .ok d := by
  simp only [InMemoryStorage.getStateData_ok_iff, run_removeExpired h, run_removeExpired h', hwrites]

end History

/-! ### The manager on a storage that others use too -/

inductive ManagerOp where
  | act (a : Action)
  | storage (op : StorageOp)

def managerStep (m : Manager) (s : Sys) : ManagerOp → Option Sys
  | .act a => step m s a
  | .storage op => some (s.setStorage (op.apply s.now s.storage))

/- What may be inserted or removed: sweeps, lookups, and the calls in `failing`. -/
def padding (failing : Nat → Bool) : ManagerOp → Bool
  | .act .removeExpired => true
  | .act (.startCallback i _ _ _) | .act (.callback i _) => failing i
  | .act (.tick _) | .act (.registerProvider _) | .act (.startAuth _ _) | .act (.auth _ _) => false
  | .storage op => !op.writes

/- A padding operation goes through, and after it no call in `failing` has found its state. -/
def LookupFails (m : Manager) (failing : Nat → Bool) (s : Sys) (op : ManagerOp) : Prop :=
  padding failing op = true →
    ∃ t, managerStep m s op = some t ∧ ∀ i p d, failing i = true → (t.calls i).pc ≠ .callProvider p d

/- The same result, or errors that are the same sentinels by `errors.Is`. -/
def SameOutcome : Except Error CallbackInfo → Except Error CallbackInfo → Prop
  | .ok info, .ok info' => info = info'
  | .error e, .error e' => ∀ var text, e.is (.new var text) = e'.is (.new var text)
  | _, _ => False

structure Call.Same (c c' : Call) : Prop where
  providerName : c.providerName = c'.providerName
  code : c.code = c'.code
  state : c.state = c'.state
  pc : c.pc = c'.pc ∨ ∃ r r', c.pc = .returned r ∧ c'.pc = .returned r' ∧ SameOutcome r r'

theorem SameOutcome.meet {r r' r'' : Except Error CallbackInfo} (h : SameOutcome r r'') (h' : SameOutcome r' r'') :
    SameOutcome r r' := by
  cases r'' with
  | ok info =>
    cases r with
    | error e => exact h.elim
    | ok i =>
      cases r' with
      | error e => exact h'.elim
      | ok i' => exact Eq.trans h (Eq.symm h')
  | error e =>
    cases r with
    | ok i => exact h.elim
    | error f =>
      cases r' with
      | ok i => exact h'.elim
      | error f' => exact fun var text => (h var text).trans (h' var text).symm

theorem sameOutcome_refl (r : Except Error CallbackInfo) : SameOutcome r r := by
  cases r with
  | ok info => rfl
  | error e => exact fun _ _ => rfl

theorem sameOutcome_invalidState (e e' : Error) :
    SameOutcome (.error (errInvalidState.wrapf e)) (.error (errInvalidState.wrapf e')) := by
  intro var text
  simp [Error.wrapf, Error.is]

namespace Call.Same

variable {c c' c'' : Call}

theorem refl (c : Call) : c.Same c := ⟨rfl, rfl, rfl, .inl rfl⟩

theorem eq_of_pc (h : c.Same c') (hpc : c.pc = c'.pc) : c = c' := by
  obtain ⟨hname, hcode, hstate, -⟩ := h
  cases c
  cases c'
  simp_all

theorem meet (h : c.Same c'') (h' : c'.Same c'') : c.Same c' := by
  refine ⟨h.providerName.trans h'.providerName.symm, h.code.trans h'.code.symm, h.state.trans h'.state.symm, ?_⟩
  rcases h.pc with hpc | ⟨r, r'', hr, hr'', hout⟩
  · rcases h'.pc with hpc' | ⟨r', r'', hr', hr'', hout'⟩
    · exact .inl (hpc.trans hpc'.symm)
    · exact .inr ⟨r'', r', hpc.trans hr'', hr', (sameOutcome_refl r'').meet hout'⟩
  · rcases h'.pc with hpc' | ⟨r', s'', hr', hs'', hout'⟩
    · exact .inr ⟨r, r'', hr, hpc'.trans hr'', hout⟩
    · rw [hr''] at hs''
      cases hs''
      exact .inr ⟨r, r', hr, hr', hout.meet hout'⟩

end Call.Same

def CallPc.early : CallPc → Bool
  | .idle | .lookup | .getStateData _ | .returned _ => true
  | _ => false

/- A state of a padded run against the run without the padding. -/
structure Sim (failing : Nat → Bool) (s u : Sys) : Prop where
  now : s.now = u.now
  providers : s.providers = u.providers
  auths : s.auths = u.auths
  storage : s.storage.removeExpired u.now = u.storage.removeExpired u.now
  calls : ∀ i, failing i = false → (s.calls i).Same (u.calls i)
  early : ∀ i, failing i = true → (s.calls i).pc.early = true

namespace Sim

variable {m : Manager} {failing : Nat → Bool} {s t u : Sys} {i : Nat} {c : Choice}

theorem setAuth (h : Sim failing s u) (pc : AuthPc) : Sim failing (s.setAuth i pc) (u.setAuth i pc) :=
  { h with auths := by simp only [Sys.setAuth, h.auths] }

theorem emit (h : Sim failing s u) (e : Event) : Sim failing (s.emit e) (u.emit e) :=
  ⟨h.now, h.providers, h.auths, h.storage, h.calls, h.early⟩

theorem setStorage (h : Sim failing s u) {st st' : InMemoryStorage}
    (hst : st.removeExpired u.now = st'.removeExpired u.now) : Sim failing (s.setStorage st) (u.setStorage st') :=
  ⟨h.now, h.providers, h.auths, hst, h.calls, h.early⟩

theorem ne_of_failing {j : Nat} (hi : failing i = false) (hj : failing j = true) : j ≠ i := by
  rintro rfl
  exact absurd (hi.symm.trans hj) (by decide)

theorem update (h : Sim failing s u) (hi : failing i = false) {call call' : Call} (hcall : call.Same call') :
    Sim failing { s with calls := Function.update s.calls i call }
      { u with calls := Function.update u.calls i call' } := by
  refine ⟨h.now, h.providers, h.auths, h.storage, fun j hj => ?_, fun j hj => ?_⟩
  · by_cases hji : j = i
    · subst hji
      simpa using hcall
    · simpa [hji] using h.calls j hj
  · simpa [ne_of_failing hi hj] using h.early j hj

theorem setPc (h : Sim failing s u) (hi : failing i = false) {pc pc' : CallPc}
    (hpc : pc = pc' ∨ ∃ r r', pc = .returned r ∧ pc' = .returned r' ∧ SameOutcome r r') :
    Sim failing (s.setPc i pc) (u.setPc i pc') :=
  h.update hi ⟨(h.calls i hi).providerName, (h.calls i hi).code, (h.calls i hi).state, hpc⟩

/-! #### Steps of both runs -/

theorem authStep_rel (h : Sim failing s u) (i : Nat) (c : Choice) :
    Option.Rel (Sim failing) (authStep m s i c) (authStep m u i c) := by
  unfold authStep
  rw [h.auths, h.providers, h.now]
  cases u.auths i with
  | idle => exact .none
  | returned r => exact .none
  | lookup name =>
    cases c with
    | go =>
      dsimp only
      cases u.providers name with
      | none => exact .some (h.setAuth _)
      | some p => exact .some (h.setAuth _)
    | random r | provider r | handler r => exact .none
  | generate p =>
    cases c with
    | random r => cases r <;> exact .some (h.setAuth _)
    | go | provider r | handler r => exact .none
  | now p state nonce codeVerifier =>
    cases c with
    | go => exact .some (h.setAuth _)
    | random r | provider r | handler r => exact .none
  | saveState p state nonce codeVerifier expiresAt =>
    cases c with
    | go =>
      have hst := InMemoryStorage.removeExpired_saveState h.storage state nonce codeVerifier expiresAt
      exact .some (((h.setStorage hst).emit _).setAuth _)
    | random r | provider r | handler r => exact .none
  | authURL p state nonce codeChallenge =>
    cases c with
    | go => exact .some ((h.emit _).setAuth _)
    | random r | provider r | handler r => exact .none

theorem callbackStep_rel (h : Sim failing s u) (hi : failing i = false) (c : Choice) :
    Option.Rel (Sim failing) (callbackStep s i c) (callbackStep u i c) := by
  unfold callbackStep
  rcases (h.calls i hi).pc with hpc | ⟨r, r', hr, hr', -⟩
  · have hcall : s.calls i = u.calls i := (h.calls i hi).eq_of_pc hpc
    rw [hcall, h.providers, h.now]
    cases (u.calls i).pc with
    | idle => exact .none
    | returned r => exact .none
    | lookup =>
      cases c with
      | go =>
        dsimp only
        cases u.providers (u.calls i).providerName with
        | none => exact .some (h.setPc hi (.inl rfl))
        | some p => exact .some (h.setPc hi (.inl rfl))
      | random r | provider r | handler r => exact .none
    | getStateData p =>
      cases c with
      | go =>
        rcases InMemoryStorage.getStateData_both h.storage (u.calls i).state with
          ⟨d, hs, hu⟩ | ⟨e, e', st, st', hs, hu, hst⟩
        · simp only [hs, hu]
          exact .some (((h.setStorage h.storage).emit _).setPc hi (.inl rfl))
        · simp only [hs, hu]
          exact .some ((h.setStorage hst).setPc hi (.inr ⟨_, _, rfl, rfl, sameOutcome_invalidState e e'⟩))
      | random r | provider r | handler r => exact .none
    | callProvider p d =>
      cases c with
      | go => exact .some ((h.emit _).setPc hi (.inl rfl))
      | random r | provider r | handler r => exact .none
    | inProvider p d =>
      cases c with
      | provider r => cases r <;> exact .some (h.setPc hi (.inl rfl))
      | go | random r | handler r => exact .none
    | callHandler user tokens =>
      cases c with
      | go => exact .some ((h.emit _).setPc hi (.inl rfl))
      | random r | provider r | handler r => exact .none
    | inHandler =>
      cases c with
      | handler r => cases r <;> exact .some (h.setPc hi (.inl rfl))
      | go | random r | provider r => exact .none
    | deleteState r =>
      cases c with
      | go => exact .some ((h.setStorage (InMemoryStorage.removeExpired_deleteState h.storage)).setPc hi (.inl rfl))
      | random r | provider r | handler r => exact .none
  · rw [hr, hr']
    exact .none

theorem managerStep_rel (h : Sim failing s u) (op : ManagerOp) (hop : padding failing op = false) :
    Option.Rel (Sim failing) (managerStep m s op) (managerStep m u op) := by
  cases op with
  | storage op =>
    have hwrites : op.writes = true := by simpa [padding] using hop
    refine .some (h.setStorage ?_)
    rw [h.now]
    exact StorageOp.apply_write hwrites h.storage
  | act a =>
    cases a with
    | tick d =>
      have hle : u.now ≤ u.now + (d : Int) := Int.le_add_of_nonneg_right (Int.natCast_nonneg d)
      refine .some ⟨?_, h.providers, h.auths, InMemoryStorage.removeExpired_later hle h.storage, h.calls, h.early⟩
      simp only [h.now]
    | removeExpired => cases hop
    | registerProvider p =>
      refine .some ⟨h.now, ?_, h.auths, h.storage, h.calls, h.early⟩
      simp only [h.providers]
    | startAuth i name =>
      simp only [managerStep, step, h.auths]
      cases u.auths i with
      | idle => exact .some (h.setAuth _)
      | _ => exact .none
    | auth i c => exact h.authStep_rel i c
    | startCallback i name code state =>
      have hi : failing i = false := hop
      simp only [managerStep, step]
      rcases (h.calls i hi).pc with hpc | ⟨r, r', hr, hr', -⟩
      · rw [hpc]
        cases (u.calls i).pc with
        | idle => exact .some (h.update hi (.refl _))
        | _ => exact .none
      · rw [hr, hr']
        exact .none
    | callback i c => exact h.callbackStep_rel hop c

/-! #### Steps of the padded run alone -/

theorem pad_setStorage (h : Sim failing s u) {st : InMemoryStorage}
    (hst : st.removeExpired s.now = s.storage.removeExpired s.now) : Sim failing (s.setStorage st) u := by
  refine ⟨h.now, h.providers, h.auths, ?_, h.calls, h.early⟩
  rw [← h.storage, ← h.now]
  exact hst

-- A call in `failing` may be anywhere before a successful lookup.
theorem pad_calls (h : Sim failing s u) (hi : failing i = true) {call : Call} (hpc : call.pc.early = true) :
    Sim failing { s with calls := Function.update s.calls i call } u := by
  refine ⟨h.now, h.providers, h.auths, h.storage, fun j hj => ?_, fun j hj => ?_⟩
  · simpa [(ne_of_failing hj hi).symm] using h.calls j hj
  · by_cases hji : j = i
    · subst hji
      simpa using hpc
    · simpa [hji] using h.early j hj

theorem pad_setPc (h : Sim failing s u) (hi : failing i = true) {pc : CallPc} (hpc : pc.early = true) :
    Sim failing (s.setPc i pc) u :=
  h.pad_calls hi hpc

theorem pad_callback (h : Sim failing s u) (hi : failing i = true) (hstep : callbackStep s i c = some t)
    (hfails : ∀ p d, (t.calls i).pc ≠ .callProvider p d) : Sim failing t u := by
  have hearly := h.early i hi
  cases callbackStep_step hstep with
  | notFound hpc => exact h.pad_setPc hi rfl
  | found p hpc hp => exact h.pad_setPc hi rfl
  | lookedUp p d hpc hd he => exact absurd (by simp) (hfails p d)
  | refused p e st hpc hg hst =>
    have hswept : st.removeExpired s.now = s.storage.removeExpired s.now := by
      rw [← InMemoryStorage.removeExpired_getStateData s.storage s.now (s.calls i).state, hg]
    exact (h.pad_setStorage hswept).pad_setPc hi rfl
  | callProvider p d hpc => simp [hpc, CallPc.early] at hearly
  | providerFailed p d e hpc => simp [hpc, CallPc.early] at hearly
  | providerDone p d user tokens hpc => simp [hpc, CallPc.early] at hearly
  | callHandler user tokens hpc => simp [hpc, CallPc.early] at hearly
  | handled r ret hpc => simp [hpc, CallPc.early] at hearly
  | deleted r hpc => simp [hpc, CallPc.early] at hearly

theorem pad (h : Sim failing s u) (op : ManagerOp) (hop : padding failing op = true)
    (hfails : LookupFails m failing s op) : ∃ t, managerStep m s op = some t ∧ Sim failing t u := by
  obtain ⟨t, ht, hno⟩ := hfails hop
  refine ⟨t, ht, ?_⟩
  cases op with
  | storage op =>
    have hreads : op.writes = false := by simpa [padding] using hop
    cases ht
    exact h.pad_setStorage (StorageOp.apply_read hreads s.storage s.now)
  | act a =>
    cases a with
    | tick d | registerProvider p | startAuth i name | auth i c => cases hop
    | removeExpired =>
      cases ht
      exact h.pad_setStorage (InMemoryStorage.removeExpired_removeExpired (Int.le_refl s.now))
    | startCallback i name code state =>
      have hstep : step m s (.startCallback i name code state) = some t := ht
      cases step_sysStep hstep with
      | startCallback _ _ _ _ hpc => exact h.pad_calls hop rfl
    | callback i c => exact h.pad_callback hop ht fun p d => hno i p d hop

end Sim

theorem managerOps_repadded (m : Manager) (failing : Nat → Bool) (s : Sys) (xs ys : List ManagerOp)
    (hidle : ∀ i, failing i = true → (s.calls i).pc = .idle) (hxs : Meets (managerStep m) (LookupFails m failing) s xs)
    (hys : Meets (managerStep m) (LookupFails m failing) s ys)
    (hsame : (xs.filter fun op => !padding failing op) = ys.filter fun op => !padding failing op) :
    Option.Rel (fun u v => ∀ i, failing i = false → (u.calls i).Same (v.calls i))
      (exec (managerStep m) s xs) (exec (managerStep m) s ys) := by
  have hs : Sim failing s s := by
    refine ⟨rfl, rfl, rfl, rfl, fun i _ => .refl (s.calls i), fun i hi => ?_⟩
    rw [hidle i hi]
    rfl
  have hpad : ∀ s u op, Sim failing s u → padding failing op = true → LookupFails m failing s op →
      ∃ t, managerStep m s op = some t ∧ Sim failing t u := fun s u op hsu => hsu.pad op
  have hstep : ∀ s u op, Sim failing s u → padding failing op = false →
      Option.Rel (Sim failing) (managerStep m s op) (managerStep m u op) := fun s u op hsu => hsu.managerStep_rel op
  refine exec_repadded hpad hstep (fun t t' v htv htv' i hi => ?_) hs hxs hys hsame
  exact (htv.calls i hi).meet (htv'.calls i hi)

theorem stateExpiry_refines :
    (∀ ops now, Timely ops now → ∀ state d,
      ((InMemoryStorage.run ops).getStateData now state).1 = .ok d ↔ Stored ops state d ∧ now ≤ d.expiresAt) ∧
    (∀ ops ops' now, Timely ops now → Timely ops' now →
      (ops.filter fun op => op.2.writes) = (ops'.filter fun op => op.2.writes) → ∀ state d,
        ((InMemoryStorage.run ops).getStateData now state).1 = .ok d ↔
          ((InMemoryStorage.run ops').getStateData now state).1 = .ok d) ∧
    (∀ m failing s xs ys, (∀ i, failing i = true → (s.calls i).pc = .idle) →
      Meets (managerStep m) (LookupFails m failing) s xs → Meets (managerStep m) (LookupFails m failing) s ys →
      (xs.filter fun op => !padding failing op) = (ys.filter fun op => !padding failing op) →
        Option.Rel (fun u v => ∀ i, failing i = false → (u.calls i).Same (v.calls i))
          (exec (managerStep m) s xs) (exec (managerStep m) s ys)) :=
  ⟨fun _ _ h _ _ => getStateData_ok_iff_stored h, fun _ _ _ h h' hwrites _ _ => getStateData_ok_iff_of_writes h h' hwrites,
    managerOps_repadded⟩

/- A state saved again after a sweep; and a callback with an unknown state before another call. -/
theorem stateExpiry_refines_sweep :
    ((InMemoryStorage.run [(0, .saveState "s" "n1" "v1" 10), (20, .removeExpired), (25, .saveState "s" "n2" "v2" 40)]
      ).getStateData 30 "s").1 = .ok ⟨"n2", "v2", 40⟩ ∧
    (((InMemoryStorage.run [(0, .saveState "s" "n1" "v1" 10), (20, .removeExpired)]).getStateData 30 "s").1 =
        .ok ⟨"n1", "v1", 10⟩ ↔
      ((InMemoryStorage.run [(0, .saveState "s" "n1" "v1" 10), (15, .getStateData "s")]).getStateData 30 "s").1 =
        .ok ⟨"n1", "v1", 10⟩) ∧
    Option.Rel (fun u v => ∀ i, (i == 1) = false → (u.calls i).Same (v.calls i))
      (exec (managerStep ⟨60, id⟩) (newManager 0) [.act (.registerProvider ⟨"google", fun _ _ _ => ""⟩),
        .act (.startCallback 1 "google" "code" "s"), .act (.callback 1 .go), .act (.callback 1 .go),
        .act .removeExpired, .act (.startCallback 0 "google" "code" "s")])
      (exec (managerStep ⟨60, id⟩) (newManager 0) [.act (.registerProvider ⟨"google", fun _ _ _ => ""⟩),
        .act (.startCallback 0 "google" "code" "s")]) := by
  have hfails : ∀ {m s op t}, managerStep m s op = some t → (∀ p d, (t.calls 1).pc ≠ .callProvider p d) →
      LookupFails m (· == 1) s op := by
    intro m s op t ht hno _
    refine ⟨t, ht, fun i p d hi => ?_⟩
    rw [show i = 1 from by simpa using hi]
    exact hno p d
  refine ⟨(stateExpiry_refines.1 _ 30 ⟨by decide, by decide⟩ _ _).mpr
      ⟨⟨[(0, .saveState "s" "n1" "v1" 10), (20, .removeExpired)], 25, [], rfl, by simp⟩, by decide⟩,
    stateExpiry_refines.2.1 _ _ 30 ⟨by decide, by decide⟩ ⟨by decide, by decide⟩ (by decide) _ _,
    stateExpiry_refines.2.2 _ (· == 1) (newManager 0) _ _ (fun _ _ => rfl) ?_ ?_ rfl⟩
  · refine ⟨nofun, fun s₁ h₁ => ?_⟩
    cases h₁
    refine ⟨hfails rfl nofun, fun s₂ h₂ => ?_⟩
    cases h₂
    refine ⟨hfails rfl nofun, fun s₃ h₃ => ?_⟩
    cases h₃
    refine ⟨hfails rfl nofun, fun s₄ h₄ => ?_⟩
    cases h₄
    refine ⟨hfails rfl nofun, fun s₅ h₅ => ?_⟩
    cases h₅
    exact ⟨nofun, fun _ _ => trivial⟩
  · refine ⟨nofun, fun s₁ h₁ => ?_⟩
    cases h₁
    exact ⟨nofun, fun _ _ => trivial⟩

end Ghost.OAuth2
