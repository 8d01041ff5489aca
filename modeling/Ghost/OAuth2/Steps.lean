import Ghost.OAuth2.Manager

/-!
# What one step of the manager can do (oauth2/manager.go)

One constructor for each branch of `GetAuthURL`, of `HandleCallback` and of the
system around them, with the program counter it is taken from.
-/

namespace Ghost.OAuth2
open Go Transition

namespace Sys

@[simp] theorem setPc_self (s : Sys) (i : Nat) (pc : CallPc) :
    (s.setPc i pc).calls i = { s.calls i with pc := pc } := by
  simp [setPc]

@[simp] theorem setPc_other (s : Sys) {i j : Nat} (pc : CallPc) (h : j ≠ i) :
    (s.setPc i pc).calls j = s.calls j := by
  simp [setPc, h]

theorem setPc_state (s : Sys) (i j : Nat) (pc : CallPc) :
    ((s.setPc i pc).calls j).state = (s.calls j).state := by
  by_cases h : j = i
  · subst h; simp
  · simp [h]

theorem setPc_code (s : Sys) (i j : Nat) (pc : CallPc) :
    ((s.setPc i pc).calls j).code = (s.calls j).code := by
  by_cases h : j = i
  · subst h; simp
  · simp [h]

@[simp] theorem setAuth_self (s : Sys) (i : Nat) (pc : AuthPc) : (s.setAuth i pc).auths i = pc := by
  simp [setAuth]

@[simp] theorem setAuth_other (s : Sys) {i j : Nat} (pc : AuthPc) (h : j ≠ i) :
    (s.setAuth i pc).auths j = s.auths j := by
  simp [setAuth, h]

@[simp] theorem setPc_log (s : Sys) (i : Nat) (pc : CallPc) : (s.setPc i pc).log = s.log := rfl
@[simp] theorem setAuth_log (s : Sys) (i : Nat) (pc : AuthPc) : (s.setAuth i pc).log = s.log := rfl
@[simp] theorem emit_log (s : Sys) (e : Event) : (s.emit e).log = e :: s.log := rfl
@[simp] theorem emit_calls (s : Sys) (e : Event) : (s.emit e).calls = s.calls := rfl
@[simp] theorem setStorage_log (s : Sys) (st : InMemoryStorage) :
    (s.setStorage st).log = s.log := rfl
@[simp] theorem setStorage_calls (s : Sys) (st : InMemoryStorage) :
    (s.setStorage st).calls = s.calls := rfl

end Sys

inductive AuthStep (m : Manager) (s : Sys) (i : Nat) : Choice → Sys → Prop where
  | notFound (name : String) (hpc : s.auths i = .lookup name) :
      AuthStep m s i .go (s.setAuth i (.returned (.error errProviderNotFound)))
  | found (name : String) (p : Provider) (hpc : s.auths i = .lookup name) (hp : s.providers name = some p) :
      AuthStep m s i .go (s.setAuth i (.generate p))
  | failed (p : Provider) (r : Random) (e : Error) (hpc : s.auths i = .generate p)
      (hr : ∀ state nonce codeVerifier, r ≠ .drawn state nonce codeVerifier) :
      AuthStep m s i (.random r) (s.setAuth i (.returned (.error e)))
  | drawn (p : Provider) (state nonce codeVerifier : String) (hpc : s.auths i = .generate p) :
      AuthStep m s i (.random (.drawn state nonce codeVerifier))
        (s.setAuth i (.now p state nonce codeVerifier))
  | now (p : Provider) (state nonce codeVerifier : String)
      (hpc : s.auths i = .now p state nonce codeVerifier) :
      AuthStep m s i .go (s.setAuth i (.saveState p state nonce codeVerifier (s.now + m.stateTimeout)))
  | saved (p : Provider) (state nonce codeVerifier : String) (expiresAt : Time)
      (hpc : s.auths i = .saveState p state nonce codeVerifier expiresAt) :
      AuthStep m s i .go (((s.setStorage (s.storage.saveState state nonce codeVerifier expiresAt)).emit
        (.saved i state ⟨nonce, codeVerifier, expiresAt⟩)).setAuth i
          (.authURL p state nonce (m.generateCodeChallenge codeVerifier)))
  | issued (p : Provider) (state nonce codeChallenge : String)
      (hpc : s.auths i = .authURL p state nonce codeChallenge) :
      AuthStep m s i .go ((s.emit (.issued i p.getName state nonce codeChallenge)).setAuth i
        (.returned (.ok (p.getAuthURL state nonce codeChallenge))))

inductive CallStep (s : Sys) (i : Nat) : Choice → Sys → Prop where
  | notFound (hpc : (s.calls i).pc = .lookup) :
      CallStep s i .go (s.setPc i (.returned (.error errProviderNotFound)))
  | found (p : Provider) (hpc : (s.calls i).pc = .lookup)
      (hp : s.providers (s.calls i).providerName = some p) :
      CallStep s i .go (s.setPc i (.getStateData p))
  | lookedUp (p : Provider) (d : StateData) (hpc : (s.calls i).pc = .getStateData p)
      (hd : s.storage.data (s.calls i).state = some d) (he : d.expired s.now = false) :
      CallStep s i .go ((s.emit (.lookedUp i (s.calls i).state d s.now)).setPc i (.callProvider p d))
  | refused (p : Provider) (e : Error) (st : InMemoryStorage) (hpc : (s.calls i).pc = .getStateData p)
      (hg : s.storage.getStateData s.now (s.calls i).state = (.error e, st))
      (hst : st = s.storage ∨ st = s.storage.deleteState (s.calls i).state) :
      CallStep s i .go ((s.setStorage st).setPc i (.returned (.error (errInvalidState.wrapf e))))
  | callProvider (p : Provider) (d : StateData) (hpc : (s.calls i).pc = .callProvider p d) :
      CallStep s i .go ((s.emit (.providerCalled i p.getName (s.calls i).code (s.calls i).state d.nonce
        d.codeVerifier)).setPc i (.inProvider p d))
  | providerFailed (p : Provider) (d : StateData) (e : Error) (hpc : (s.calls i).pc = .inProvider p d) :
      CallStep s i (.provider (.error e)) (s.setPc i (.deleteState (.error (errOAuth2Callback.wrapf e))))
  | providerDone (p : Provider) (d : StateData) (u : UserInfo) (t : TokenSet)
      (hpc : (s.calls i).pc = .inProvider p d) :
      CallStep s i (.provider (.ok (u, t))) (s.setPc i (.callHandler u t))
  | callHandler (u : UserInfo) (t : TokenSet) (hpc : (s.calls i).pc = .callHandler u t) :
      CallStep s i .go ((s.emit (.handlerCalled i (s.calls i).providerName (s.calls i).state)).setPc i
        .inHandler)
  | handled (r ret : Except Error CallbackInfo) (hpc : (s.calls i).pc = .inHandler) :
      CallStep s i (.handler r) (s.setPc i (.deleteState ret))
  | deleted (r : Except Error CallbackInfo) (hpc : (s.calls i).pc = .deleteState r) :
      CallStep s i .go ((s.setStorage (s.storage.deleteState (s.calls i).state)).setPc i (.returned r))

inductive SysStep (m : Manager) (s : Sys) : Action → Sys → Prop where
  | tick (d : Nat) : SysStep m s (.tick d) { s with now := s.now + d }
  | removeExpired : SysStep m s .removeExpired (s.setStorage (s.storage.removeExpired s.now))
  | registerProvider (p : Provider) : SysStep m s (.registerProvider p)
      { s with providers := Function.update s.providers p.getName (some p) }
  | startAuth (i : Nat) (name : String) (hpc : s.auths i = .idle) :
      SysStep m s (.startAuth i name) (s.setAuth i (.lookup name))
  | auth (i : Nat) (c : Choice) (t : Sys) (h : AuthStep m s i c t) : SysStep m s (.auth i c) t
  | startCallback (i : Nat) (name code state : String) (hpc : (s.calls i).pc = .idle) :
      SysStep m s (.startCallback i name code state)
        { s with calls := Function.update s.calls i ⟨name, code, state, .lookup⟩ }
  | callback (i : Nat) (c : Choice) (t : Sys) (h : CallStep s i c t) : SysStep m s (.callback i c) t

theorem authStep_step {m : Manager} {s t : Sys} {i : Nat} {c : Choice} (h : authStep m s i c = some t) :
    AuthStep m s i c t := by
  unfold authStep at h
  split at h
  case h_1 hpc =>
    split at h
    · cases h
      exact .notFound _ hpc
    · rename_i hp
      cases h
      exact .found _ _ hpc hp
  case h_2 hpc | h_3 hpc | h_4 hpc =>
    cases h
    exact .failed _ _ _ hpc (fun _ _ _ hr => by cases hr)
  case h_5 hpc =>
    cases h
    exact .drawn _ _ _ _ hpc
  case h_6 hpc =>
    cases h
    exact .now _ _ _ _ hpc
  case h_7 hpc =>
    cases h
    exact .saved _ _ _ _ _ hpc
  case h_8 hpc =>
    cases h
    exact .issued _ _ _ _ hpc
  case h_9 => cases h

theorem callbackStep_step {s t : Sys} {i : Nat} {c : Choice} (h : callbackStep s i c = some t) :
    CallStep s i c t := by
  unfold callbackStep at h
  split at h
  case h_1 hpc =>
    split at h
    · cases h
      exact .notFound hpc
    · rename_i hp
      cases h
      exact .found _ hpc hp
  case h_2 p hpc =>
    rcases s.storage.getStateData_cases s.now (s.calls i).state with
      ⟨d, hd, he, hg⟩ | ⟨_, hg⟩ | ⟨d, _, _, hg⟩
    · rw [hg] at h
      cases h
      exact .lookedUp p d hpc hd he
    · rw [hg] at h
      cases h
      exact .refused p _ _ hpc hg (.inl rfl)
    · rw [hg] at h
      cases h
      exact .refused p _ _ hpc hg (.inr rfl)
  case h_3 p d hpc =>
    cases h
    exact .callProvider p d hpc
  case h_4 hpc =>
    cases h
    exact .providerFailed _ _ _ hpc
  case h_5 hpc =>
    cases h
    exact .providerDone _ _ _ _ hpc
  case h_6 u tk hpc =>
    cases h
    exact .callHandler u tk hpc
  case h_7 hpc | h_8 hpc =>
    cases h
    exact .handled _ _ hpc
  case h_9 r hpc =>
    cases h
    exact .deleted r hpc
  case h_10 => cases h

theorem step_sysStep {m : Manager} {s t : Sys} {a : Action} (h : step m s a = some t) :
    SysStep m s a t := by
  cases a with
  | tick d =>
    cases h
    exact .tick d
  | removeExpired =>
    cases h
    exact .removeExpired
  | registerProvider p =>
    cases h
    exact .registerProvider p
  | startAuth i name =>
    simp only [step] at h
    split at h
    · rename_i hpc
      cases h
      exact .startAuth i name hpc
    · cases h
  | auth i c => exact .auth i c t (authStep_step h)
  | startCallback i name code state =>
    simp only [step] at h
    split at h
    · rename_i hpc
      cases h
      exact .startCallback i name code state hpc
    · cases h
  | callback i c => exact .callback i c t (callbackStep_step h)

end Ghost.OAuth2
