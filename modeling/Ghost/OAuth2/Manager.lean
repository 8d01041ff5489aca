import Ghost.OAuth2.State
import Ghost.Transition.Run

/-!
# The OAuth2 manager (oauth2/manager.go)

Any number of goroutines run `GetAuthURL` and `HandleCallback` against one
manager while time passes and the storage sweeps itself. A goroutine is a
program counter; one action of the system is one atomic step of one goroutine:
a critical section of the manager's or the storage's mutex, a reading of the
clock, or the start or the end of a call into the provider or the application.
-/

namespace Ghost.OAuth2
open Go Transition

def errProviderNotFound : Error := .new "ErrProviderNotFound" "provider not found"
def errInvalidState : Error := .new "ErrInvalidState" "invalid state"
def errOAuth2Callback : Error := .new "ErrOAuth2Callback" "oauth2 callback error"

structure UserInfo where
  id : String
  email : String
  name : String
  provider : String
  createdAt : Time
  deriving DecidableEq, Repr

structure TokenSet where
  accessToken : String
  tokenType : String
  refreshToken : String
  idToken : String
  expiresAt : Time
  deriving DecidableEq, Repr

structure CallbackInfo where
  sessionCookieName : String
  userID : String
  sessionID : String
  cookieMaxAge : Int
  deriving DecidableEq, Repr

/-- The part of a `Provider` the manager computes with. The outcome of its
`HandleCallback` is an input of the system. -/
structure Provider where
  getName : String
  getAuthURL : (state nonce codeChallenge : String) → String

/-- The constants of a manager: its `stateTimeout` and the challenge function
`GenerateCodeChallenge` (base64url of SHA-256). -/
structure Manager where
  stateTimeout : Int
  generateCodeChallenge : String → String

/-- What the three random draws of `GetAuthURL` give, in the order they are made. -/
inductive Random where
  | stateError (e : Error)
  | nonceError (e : Error)
  | verifierError (e : Error)
  | drawn (state nonce codeVerifier : String)

/-- Program counter of a `GetAuthURL` call: each constructor is named after the
statement that runs next and carries the locals that are live there. -/
inductive AuthPc where
  | idle
  | lookup (providerName : String)
  | generate (p : Provider)
  | now (p : Provider) (state nonce codeVerifier : String)
  | saveState (p : Provider) (state nonce codeVerifier : String) (expiresAt : Time)
  | authURL (p : Provider) (state nonce codeChallenge : String)
  | returned (r : Except Error String)

/-- Program counter of a `HandleCallback` call. -/
inductive CallPc where
  | idle
  | lookup
  | getStateData (p : Provider)
  | callProvider (p : Provider) (d : StateData)
  | inProvider (p : Provider) (d : StateData)
  | callHandler (u : UserInfo) (t : TokenSet)
  | inHandler
  | deleteState (r : Except Error CallbackInfo)
  | returned (r : Except Error CallbackInfo)

/-- One `HandleCallback(ctx, providerName, code, state)` invocation. -/
structure Call where
  providerName : String
  code : String
  state : String
  pc : CallPc

/-- What happened so far. The code keeps no such record: it only names the
events the properties speak about. -/
inductive Event where
  | saved (auth : Nat) (state : String) (d : StateData)
  | issued (auth : Nat) (providerName state nonce codeChallenge : String)
  | lookedUp (call : Nat) (state : String) (d : StateData) (at_ : Time)
  | providerCalled (call : Nat) (providerName code state nonce codeVerifier : String)
  | handlerCalled (call : Nat) (providerName state : String)
  deriving DecidableEq

structure Sys where
  now : Time
  providers : String → Option Provider
  storage : InMemoryStorage
  auths : Nat → AuthPc
  calls : Nat → Call
  log : List Event

namespace Sys

def setAuth (s : Sys) (i : Nat) (pc : AuthPc) : Sys :=
  { s with auths := Function.update s.auths i pc }

def setPc (s : Sys) (i : Nat) (pc : CallPc) : Sys :=
  { s with calls := Function.update s.calls i { s.calls i with pc := pc } }

def emit (s : Sys) (e : Event) : Sys := { s with log := e :: s.log }

def setStorage (s : Sys) (st : InMemoryStorage) : Sys := { s with storage := st }

end Sys

/-- The outcome the environment picks for a step that waits for one. -/
inductive Choice where
  | go
  | random (r : Random)
  | provider (r : Except Error (UserInfo × TokenSet))
  | handler (r : Except Error CallbackInfo)

inductive Action where
  | tick (d : Nat)
  | removeExpired
  | registerProvider (p : Provider)
  | startAuth (i : Nat) (providerName : String)
  | auth (i : Nat) (c : Choice)
  | startCallback (i : Nat) (providerName code state : String)
  | callback (i : Nat) (c : Choice)

/-- The next statement of `GetAuthURL` in goroutine `i`. -/
def authStep (m : Manager) (s : Sys) (i : Nat) (c : Choice) : Option Sys :=
  match s.auths i, c with
  | .lookup name, .go =>
    match s.providers name with
    | none => some (s.setAuth i (.returned (.error errProviderNotFound)))
    | some p => some (s.setAuth i (.generate p))
  | .generate _, .random (.stateError e) =>
    some (s.setAuth i (.returned (.error (e.annotate "failed to generate state"))))
  | .generate _, .random (.nonceError e) =>
    some (s.setAuth i (.returned (.error (e.annotate "failed to generate nonce"))))
  | .generate _, .random (.verifierError e) =>
    some (s.setAuth i (.returned (.error (e.annotate "failed to generate code verifier"))))
  | .generate p, .random (.drawn state nonce codeVerifier) =>
    some (s.setAuth i (.now p state nonce codeVerifier))
  | .now p state nonce codeVerifier, .go =>
    some (s.setAuth i (.saveState p state nonce codeVerifier (s.now + m.stateTimeout)))
  | .saveState p state nonce codeVerifier expiresAt, .go =>
    some (((s.setStorage (s.storage.saveState state nonce codeVerifier expiresAt)).emit
      (.saved i state ⟨nonce, codeVerifier, expiresAt⟩)).setAuth i
        (.authURL p state nonce (m.generateCodeChallenge codeVerifier)))
  | .authURL p state nonce codeChallenge, .go =>
    some ((s.emit (.issued i p.getName state nonce codeChallenge)).setAuth i
      (.returned (.ok (p.getAuthURL state nonce codeChallenge))))
  | _, _ => none

/-- The next statement of `HandleCallback` in goroutine `i`. The deferred
`DeleteState` is registered by the successful lookup, so every path after it
ends in `deleteState`. -/
def callbackStep (s : Sys) (i : Nat) (c : Choice) : Option Sys :=
  match (s.calls i).pc, c with
  | .lookup, .go =>
    match s.providers (s.calls i).providerName with
    | none => some (s.setPc i (.returned (.error errProviderNotFound)))
    | some p => some (s.setPc i (.getStateData p))
  | .getStateData p, .go =>
    match s.storage.getStateData s.now (s.calls i).state with
    | (.ok d, st) =>
      some (((s.setStorage st).emit (.lookedUp i (s.calls i).state d s.now)).setPc i
        (.callProvider p d))
    | (.error e, st) =>
      some ((s.setStorage st).setPc i (.returned (.error (errInvalidState.wrapf e))))
  | .callProvider p d, .go =>
    some ((s.emit (.providerCalled i p.getName (s.calls i).code (s.calls i).state d.nonce
      d.codeVerifier)).setPc i (.inProvider p d))
  | .inProvider _ _, .provider (.error e) =>
    some (s.setPc i (.deleteState (.error (errOAuth2Callback.wrapf e))))
  | .inProvider _ _, .provider (.ok (u, t)) => some (s.setPc i (.callHandler u t))
  | .callHandler _ _, .go =>
    some ((s.emit (.handlerCalled i (s.calls i).providerName (s.calls i).state)).setPc i .inHandler)
  | .inHandler, .handler (.error e) =>
    some (s.setPc i (.deleteState (.error (e.annotate "callback handler failed"))))
  | .inHandler, .handler (.ok info) => some (s.setPc i (.deleteState (.ok info)))
  | .deleteState r, .go =>
    some ((s.setStorage (s.storage.deleteState (s.calls i).state)).setPc i (.returned r))
  | _, _ => none

def step (m : Manager) (s : Sys) : Action → Option Sys
  | .tick d => some { s with now := s.now + d }
  | .removeExpired => some (s.setStorage (s.storage.removeExpired s.now))
  | .registerProvider p => some { s with providers := Function.update s.providers p.getName (some p) }
  | .startAuth i name =>
    match s.auths i with
    | .idle => some (s.setAuth i (.lookup name))
    | _ => none
  | .auth i c => authStep m s i c
  | .startCallback i name code state =>
    match (s.calls i).pc with
    | .idle => some { s with calls := Function.update s.calls i ⟨name, code, state, .lookup⟩ }
    | _ => none
  | .callback i c => callbackStep s i c

/-- A manager just made by `NewManager`: no provider, no state, no call. -/
def newManager (now : Time) : Sys where
  now := now
  providers := fun _ => none
  storage := .empty
  auths := fun _ => .idle
  calls := fun _ => ⟨"", "", "", .idle⟩
  log := []

/-! ### One login

The verifier and its challenge are those of the appendix of RFC 7636. -/

def loginManager : Manager where
  stateTimeout := 600000000000
  generateCodeChallenge := fun _ => "E9Melhoa2OwvFrEMTJguCHaoeK1t8URWbuGJSstw-cM"

def loginState : String := "0123456789abcdef0123456789abcdef0123456789abcdef0123456789abcdef"
def loginNonce : String := "fedcba9876543210fedcba9876543210fedcba9876543210fedcba9876543210"
def loginVerifier : String := "dBjftJeZ4CVP-mB92K27uhbUJU1p1r_wW1gFWFOEjXk"

def endpoint (name host : String) : Provider where
  getName := name
  getAuthURL := fun state nonce challenge =>
    "https://" ++ host ++ "/auth?state=" ++ state ++ "&nonce=" ++ nonce ++ "&code_challenge=" ++ challenge

end Ghost.OAuth2
