import Ghost.Go.Context
import Ghost.Go.ErrorTree
import Ghost.Go.Panic
import Ghost.Go.Url
import Ghost.OAuth2.Steps

/-!
# The callback handler (oauth2/handler.go, oauth2/manager.go)

One request against a manager whose storage, provider and `CallbackHandler`
answer in any way. The application's error reaches the handler with its whole
tree, so it is told from the manager's own errors only where it holds none of them.
The name of the session cookie is the application's as well, and a cookie without a
valid name is not sent.
-/

namespace Ghost.OAuth2
open Go Transition

abbrev HandlerErr := Err Empty

structure HandlerConfig where
  secureCookies : Bool
  cookieDomain : String
  cookiePath : String
  requestTimeout : Int
  deriving DecidableEq, Repr

def defaultHandlerConfig : HandlerConfig where
  secureCookies := true
  cookieDomain := ""
  cookiePath := "/"
  requestTimeout := 30000000000

/- What one request meets. A nil pointer is `none`. -/
structure Backend where
  providers : String → Option Provider
  getStateData : String → Except HandlerErr StateData
  providerCallback : Provider → Ctx → (code state nonce codeVerifier : String) →
    Except HandlerErr (Option UserInfo × Option TokenSet)
  callbackHandler : Ctx → String → Option UserInfo → Option TokenSet → Except HandlerErr (Option CallbackInfo)

/- `ptr` is what the one `fmt.Errorf` on the path allocates. The deferred
`DeleteState`, whose error is dropped, is in the steps of the manager. -/
def Backend.handleCallback (b : Backend) (ptr : Nat) (ctx : Ctx) (providerName code state : String) :
    Except HandlerErr (Option CallbackInfo) :=
  match b.providers providerName with
  | none => .error (.ofChain errProviderNotFound)
  | some provider =>
    match b.getStateData state with
    | .error err =>
      .error (.errorf ptr (errInvalidState.error ++ ": " ++ err.error) [.ofChain errInvalidState])
    | .ok stateData =>
      match b.providerCallback provider ctx code state stateData.nonce stateData.codeVerifier with
      | .error err =>
        .error (.errorf ptr (errOAuth2Callback.error ++ ": " ++ err.error) [.ofChain errOAuth2Callback])
      | .ok (userInfo, tokenSet) =>
        match b.callbackHandler ctx providerName userInfo tokenSet with
        | .error err => .error (.errorf ptr ("callback handler failed" ++ ": " ++ err.error) [err])
        | .ok info => .ok info

def Backend.getProvider (b : Backend) (providerName : String) : Except HandlerErr Provider :=
  match b.providers providerName with
  | none => .error (.ofChain errProviderNotFound)
  | some provider => .ok provider

/-! ### Responses -/

inductive SameSite where
  | default
  | lax
  | strict
  | none
  deriving DecidableEq, Repr

/- An `http.Cookie`. -/
structure Cookie where
  name : String
  value : String
  maxAge : Int
  path : String
  domain : String
  secure : Bool
  httpOnly : Bool
  sameSite : SameSite
  deriving DecidableEq, Repr

inductive Body where
  | error (errMsg : String)
  | authenticated (userID : String)
  deriving DecidableEq, Repr

structure Response where
  status : Nat
  cookie : Option Cookie
  body : Body
  deriving DecidableEq, Repr

def failure (status : Nat) (errMsg : String) : Response := ⟨status, none, .error errMsg⟩

-- gin puts the root for an empty path and escapes the value
def sessionCookie (config : HandlerConfig) (info : CallbackInfo) : Cookie where
  name := info.sessionCookieName
  value := Url.queryEscape info.sessionID
  maxAge := info.cookieMaxAge
  path := if config.cookiePath = "" then "/" else config.cookiePath
  domain := config.cookieDomain
  secure := config.secureCookies
  httpOnly := true
  sameSite := .strict

def isTokenChar (c : Char) : Bool := c.isAlphanum || "!#$%&'*+-.^_`|~".toList.contains c

def isToken (name : String) : Bool := name != "" && name.toList.all isTokenChar

/- `http.SetCookie` drops a cookie whose name is not valid. -/
def setCookie (cookie : Cookie) : Option Cookie := if isToken cookie.name then some cookie else none

-- the switch over the error
def failureOf (err : HandlerErr) : Response :=
  if err.is (.var "ErrProviderNotFound") then failure 400 "provider not found"
  else if err.is (.var "ErrInvalidState") || err.is (.var "ErrStateNotFound") ||
      err.is (.var "ErrStateExpired") then
    failure 401 "invalid or expired state"
  else if err.is (.var "ErrOAuth2Callback") then failure 401 "oauth2 callback failed"
  else failure 500 "authentication failed"

/- The request's own context and the time it is served at are given. -/
def googleCallbackHandler (b : Backend) (config : Option HandlerConfig) (ptr : Nat) (request : Ctx)
    (now : Int) (code state : String) : Eval Response :=
  let config := config.getD defaultHandlerConfig
  if code = "" ∨ state = "" then .ok (failure 400 "missing code or state parameter")
  else
    match b.handleCallback ptr (request.withTimeout config.requestTimeout now) "google" code state with
    | .error err => .ok (failureOf err)
    | .ok none => .error .nilDereference
    | .ok (some info) => .ok ⟨200, setCookie (sessionCookie config info), .authenticated info.userID⟩

/-! ### The stage a request ends at -/

inductive Stage where
  | noProvider
  | stateFailed
  | providerFailed
  | handlerFailed (err : HandlerErr)
  | succeeded (info : Option CallbackInfo)

def stage (b : Backend) (ctx : Ctx) (providerName code state : String) : Stage :=
  match b.providers providerName with
  | none => .noProvider
  | some provider =>
    match b.getStateData state with
    | .error _ => .stateFailed
    | .ok stateData =>
      match b.providerCallback provider ctx code state stateData.nonce stateData.codeVerifier with
      | .error _ => .providerFailed
      | .ok (userInfo, tokenSet) =>
        match b.callbackHandler ctx providerName userInfo tokenSet with
        | .error err => .handlerFailed err
        | .ok info => .succeeded info

def Answered (out : Eval Response) (status : Nat) : Prop := ∃ r, out = .ok r ∧ r.status = status

structure StatusTellsStage (config : HandlerConfig) (st : Stage) (out : Eval Response) : Prop where
  badRequest : Answered out 400 ↔ st = .noProvider
  unauthorized : Answered out 401 ↔ st = .stateFailed ∨ st = .providerFailed
  internal : Answered out 500 ↔ ∃ err, st = .handlerFailed err
  authenticated : (∃ r info, out = .ok r ∧ r.status = 200 ∧ st = .succeeded (some info) ∧
    r.cookie = some (sessionCookie config info)) ↔ ∃ info, st = .succeeded info

/-- The errors the switch looks for. -/
def packageErrors : List ErrId :=
  [.var "ErrProviderNotFound", .var "ErrInvalidState", .var "ErrStateNotFound", .var "ErrStateExpired",
    .var "ErrOAuth2Callback"]

-- The answer by stage; the panic is the dereference of a nil `info`.
def answer (config : HandlerConfig) : Stage → Eval Response
  | .noProvider => .ok (failure 400 "provider not found")
  | .stateFailed => .ok (failure 401 "invalid or expired state")
  | .providerFailed => .ok (failure 401 "oauth2 callback failed")
  | .handlerFailed err => .ok (failureOf err)
  | .succeeded none => .error .nilDereference
  | .succeeded (some info) => .ok ⟨200, setCookie (sessionCookie config info), .authenticated info.userID⟩

theorem failureOf_congr {err err' : HandlerErr} (h : ∀ v, err.is (.var v) = err'.is (.var v)) :
    failureOf err = failureOf err' := by
  simp only [failureOf, h]

theorem failureOf_errorf (ptr : Nat) (text : String) (err : HandlerErr) :
    failureOf (.errorf ptr text [err]) = failureOf err :=
  failureOf_congr fun _ => Err.is_errorf_var

theorem failureOf_providerNotFound : failureOf (.ofChain errProviderNotFound) = failure 400 "provider not found" := by
  simp [failureOf, errProviderNotFound, Err.is_ofChain_new]

theorem failureOf_invalidState : failureOf (.ofChain errInvalidState) = failure 401 "invalid or expired state" := by
  simp [failureOf, errInvalidState, Err.is_ofChain_new]

theorem failureOf_oauth2Callback : failureOf (.ofChain errOAuth2Callback) = failure 401 "oauth2 callback failed" := by
  simp [failureOf, errOAuth2Callback, Err.is_ofChain_new]

theorem googleCallbackHandler_eq (b : Backend) (config : Option HandlerConfig) (ptr : Nat) (request : Ctx)
    (now : Int) {code state : String} (hcode : code ≠ "") (hstate : state ≠ "") :
    googleCallbackHandler b config ptr request now code state =
      answer (config.getD defaultHandlerConfig)
        (stage b (request.withTimeout (config.getD defaultHandlerConfig).requestTimeout now) "google" code
          state) := by
  simp only [googleCallbackHandler, hcode, hstate, or_self, if_false]
  generalize request.withTimeout (config.getD defaultHandlerConfig).requestTimeout now = ctx
  cases hprovider : b.providers "google" with
  | none => simp only [Backend.handleCallback, stage, hprovider, answer, failureOf_providerNotFound]
  | some provider =>
    cases hdata : b.getStateData state with
    | error err =>
      simp only [Backend.handleCallback, stage, hprovider, hdata, answer, failureOf_errorf, failureOf_invalidState]
    | ok d =>
      cases htokens : b.providerCallback provider ctx code state d.nonce d.codeVerifier with
      | error err =>
        simp only [Backend.handleCallback, stage, hprovider, hdata, htokens, answer, failureOf_errorf,
          failureOf_oauth2Callback]
      | ok tokens =>
        cases hinfo : b.callbackHandler ctx "google" tokens.1 tokens.2 with
        | error err =>
          simp only [Backend.handleCallback, stage, hprovider, hdata, htokens, hinfo, answer, failureOf_errorf]
        | ok info =>
          cases info <;> simp only [Backend.handleCallback, stage, hprovider, hdata, htokens, hinfo, answer]

theorem failureOf_status_eq_500_iff {err : HandlerErr} :
    (failureOf err).status = 500 ↔ ∀ id ∈ packageErrors, err.is id = false := by
  simp only [packageErrors, List.forall_mem_cons]
  unfold failureOf
  split
  · rename_i hprovider
    simp [failure, hprovider]
  split
  · rename_i hstate
    rw [Bool.or_eq_true, Bool.or_eq_true] at hstate
    rcases hstate with (hstate | hstate) | hstate <;> simp [failure, hstate]
  split
  · rename_i hcallback
    simp [failure, hcallback]
  · simp_all [failure]

theorem answered_failure {r : Response} {status : Nat} : Answered (.ok r) status ↔ r.status = status := by
  simp [Answered]

theorem statusTellsStage_handlerFailed {config : HandlerConfig} {err : HandlerErr} :
    StatusTellsStage config (.handlerFailed err) (answer config (.handlerFailed err)) ↔
      ∀ id ∈ packageErrors, err.is id = false := by
  rw [← failureOf_status_eq_500_iff]
  constructor
  · intro h
    exact answered_failure.mp (h.internal.mpr ⟨err, rfl⟩)
  · intro h
    constructor <;> simp [answer, answered_failure, h]

theorem setCookie_eq_some_iff (cookie : Cookie) : setCookie cookie = some cookie ↔ isToken cookie.name = true := by
  unfold setCookie
  split <;> simp_all

theorem statusTellsStage_succeeded {config : HandlerConfig} {info : CallbackInfo} :
    StatusTellsStage config (.succeeded (some info)) (answer config (.succeeded (some info))) ↔
      isToken info.sessionCookieName = true := by
  have hcookie : isToken info.sessionCookieName = true ↔
      setCookie (sessionCookie config info) = some (sessionCookie config info) :=
    (setCookie_eq_some_iff (sessionCookie config info)).symm
  rw [hcookie]
  constructor
  · intro h
    obtain ⟨r, info', hout, -, hst, hr⟩ := h.authenticated.mpr ⟨some info, rfl⟩
    cases hout
    cases hst
    exact hr
  · intro h
    constructor <;> simp [answer, answered_failure, h]

theorem statusTellsStage_answer_iff (config : HandlerConfig) (st : Stage) :
    StatusTellsStage config st (answer config st) ↔
      (∀ err, st = .handlerFailed err → ∀ id ∈ packageErrors, err.is id = false) ∧ st ≠ .succeeded none ∧
        ∀ info, st = .succeeded (some info) → isToken info.sessionCookieName = true := by
  cases st with
  | noProvider =>
    refine iff_of_true ?_ (by simp)
    constructor <;> simp [answer, answered_failure, failure]
  | stateFailed =>
    refine iff_of_true ?_ (by simp)
    constructor <;> simp [answer, answered_failure, failure]
  | providerFailed =>
    refine iff_of_true ?_ (by simp)
    constructor <;> simp [answer, answered_failure, failure]
  | handlerFailed err =>
    rw [statusTellsStage_handlerFailed]
    simp
  | succeeded info =>
    cases info with
    | none =>
      refine iff_of_false (fun h => ?_) (by simp)
      obtain ⟨r, info, hout, -⟩ := h.authenticated.mpr ⟨none, rfl⟩
      cases hout
    | some info =>
      rw [statusTellsStage_succeeded]
      simp

/-! ### The manager's steps -/

-- What a call meets that starts here, if the provider and the application answer so.
def Sys.backend (s : Sys) (provider : Except Error (UserInfo × TokenSet))
    (handler : Except Error CallbackInfo) : Backend where
  providers := s.providers
  getStateData state := (s.storage.getStateData s.now state).1.mapError .ofChain
  providerCallback _ _ _ _ _ _ := (provider.mapError .ofChain).map fun r => (some r.1, some r.2)
  callbackHandler _ _ _ _ := (handler.mapError .ofChain).map some

section Alone

variable {m : Manager} {s t : Sys} {i : Nat} {r : Except Error CallbackInfo}
  (provider : Except Error (UserInfo × TokenSet)) (handler : Except Error CallbackInfo)

-- Steps of goroutine `i` alone bring its call to this result.
def Returns (m : Manager) (s : Sys) (i : Nat) (r : Except Error CallbackInfo) : Prop :=
  ∃ (choices : List Choice) (t : Sys), exec (step m) s (choices.map (.callback i)) = some t ∧
    (t.calls i).pc = .returned r

theorem Returns.of_step {c : Choice} (h : callbackStep s i c = some t) (ht : Returns m t i r) :
    Returns m s i r := by
  obtain ⟨choices, u, hrun, hpc⟩ := ht
  exact ⟨c :: choices, u, exec_cons_eq_some.mpr ⟨t, h, hrun⟩, hpc⟩

theorem returns_of_returned (h : (s.calls i).pc = .returned r) : Returns m s i r := ⟨[], s, rfl, h⟩

theorem Sys.setPc_pc (s : Sys) (i : Nat) (pc : CallPc) : ((s.setPc i pc).calls i).pc = pc := by
  rw [setPc_self]

theorem returns_of_deleteState (h : (s.calls i).pc = .deleteState r) : Returns m s i r := by
  have hstep : callbackStep s i .go =
      some ((s.setStorage (s.storage.deleteState (s.calls i).state)).setPc i (.returned r)) := by
    simp only [callbackStep, h]
  exact .of_step hstep (returns_of_returned (Sys.setPc_pc ..))

def handlerResult : Except Error CallbackInfo → Except Error CallbackInfo
  | .error e => .error (e.annotate "callback handler failed")
  | .ok info => .ok info

theorem returns_of_callHandler {u : UserInfo} {tokens : TokenSet} (h : (s.calls i).pc = .callHandler u tokens) :
    Returns m s i (handlerResult handler) := by
  have hcall : callbackStep s i .go =
      some ((s.emit (.handlerCalled i (s.calls i).providerName (s.calls i).state)).setPc i .inHandler) := by
    simp only [callbackStep, h]
  have hreturn (t : Sys) : callbackStep (t.setPc i .inHandler) i (.handler handler) =
      some ((t.setPc i .inHandler).setPc i (.deleteState (handlerResult handler))) := by
    cases handler <;> simp only [callbackStep, Sys.setPc_pc, handlerResult]
  exact .of_step hcall (.of_step (hreturn _) (returns_of_deleteState (Sys.setPc_pc ..)))

def providerResult (handler : Except Error CallbackInfo) :
    Except Error (UserInfo × TokenSet) → Except Error CallbackInfo
  | .error e => .error (errOAuth2Callback.wrapf e)
  | .ok _ => handlerResult handler

theorem returns_of_callProvider {p : Provider} {d : StateData} (h : (s.calls i).pc = .callProvider p d) :
    Returns m s i (providerResult handler provider) := by
  have hcall : callbackStep s i .go = some ((s.emit (.providerCalled i p.getName (s.calls i).code
      (s.calls i).state d.nonce d.codeVerifier)).setPc i (.inProvider p d)) := by
    simp only [callbackStep, h]
  refine .of_step hcall ?_
  generalize s.emit _ = t
  cases provider with
  | error e =>
    have hreturn : callbackStep (t.setPc i (.inProvider p d)) i (.provider (.error e)) =
        some ((t.setPc i (.inProvider p d)).setPc i (.deleteState (.error (errOAuth2Callback.wrapf e)))) := by
      simp only [callbackStep, Sys.setPc_pc]
    exact .of_step hreturn (returns_of_deleteState (Sys.setPc_pc ..))
  | ok tokens =>
    have hreturn : callbackStep (t.setPc i (.inProvider p d)) i (.provider (.ok tokens)) =
        some ((t.setPc i (.inProvider p d)).setPc i (.callHandler tokens.1 tokens.2)) := by
      simp only [callbackStep, Sys.setPc_pc]
    exact .of_step hreturn (returns_of_callHandler handler (Sys.setPc_pc ..))

def stateResult (provider : Except Error (UserInfo × TokenSet)) (handler : Except Error CallbackInfo) :
    Except Error StateData → Except Error CallbackInfo
  | .error e => .error (errInvalidState.wrapf e)
  | .ok _ => providerResult handler provider

theorem returns_of_getStateData {p : Provider} (h : (s.calls i).pc = .getStateData p) :
    Returns m s i (stateResult provider handler (s.storage.getStateData s.now (s.calls i).state).1) := by
  cases hget : s.storage.getStateData s.now (s.calls i).state with
  | mk found st =>
    cases found with
    | error e =>
      have hstep : callbackStep s i .go =
          some ((s.setStorage st).setPc i (.returned (.error (errInvalidState.wrapf e)))) := by
        simp only [callbackStep, h, hget]
      exact .of_step hstep (returns_of_returned (Sys.setPc_pc ..))
    | ok d =>
      have hstep : callbackStep s i .go = some (((s.setStorage st).emit
          (.lookedUp i (s.calls i).state d s.now)).setPc i (.callProvider p d)) := by
        simp only [callbackStep, h, hget]
      exact .of_step hstep (returns_of_callProvider provider handler (Sys.setPc_pc ..))

def callResult (s : Sys) (i : Nat) : Except Error CallbackInfo :=
  match s.providers (s.calls i).providerName with
  | none => .error errProviderNotFound
  | some _ => stateResult provider handler (s.storage.getStateData s.now (s.calls i).state).1

theorem returns_of_lookup (h : (s.calls i).pc = .lookup) : Returns m s i (callResult provider handler s i) := by
  cases hprovider : s.providers (s.calls i).providerName with
  | none =>
    have hstep : callbackStep s i .go = some (s.setPc i (.returned (.error errProviderNotFound))) := by
      simp only [callbackStep, h, hprovider]
    simp only [callResult, hprovider]
    exact .of_step hstep (returns_of_returned (Sys.setPc_pc ..))
  | some p =>
    have hstep : callbackStep s i .go = some (s.setPc i (.getStateData p)) := by
      simp only [callbackStep, h, hprovider]
    have hrest := returns_of_getStateData (m := m) provider handler (Sys.setPc_pc s i (.getStateData p))
    rw [Sys.setPc_state] at hrest
    simp only [callResult, hprovider]
    exact .of_step hstep hrest

theorem handleCallback_backend (ctx : Ctx) :
    (s.backend provider handler).handleCallback 0 ctx (s.calls i).providerName (s.calls i).code
      (s.calls i).state = ((callResult provider handler s i).mapError .ofChain).map some := by
  cases hprovider : s.providers (s.calls i).providerName with
  | none => simp only [Backend.handleCallback, Sys.backend, callResult, hprovider, Except.mapError, Except.map]
  | some p =>
    simp only [Backend.handleCallback, Sys.backend, callResult, hprovider]
    cases (s.storage.getStateData s.now (s.calls i).state).1 with
    | error e => simp [stateResult, Except.mapError, Except.map, Error.wrapf, Err.ofChain]
    | ok d =>
      cases provider <;> cases handler <;>
        simp [stateResult, providerResult, handlerResult, Except.mapError, Except.map, Error.wrapf, Error.annotate,
          Err.ofChain]

/-- A `HandleCallback` that no other goroutine interrupts returns what the function gives. -/
theorem handleCallback_alone (ctx : Ctx) (h : (s.calls i).pc = .lookup) :
    ∃ r, Returns m s i r ∧
      (s.backend provider handler).handleCallback 0 ctx (s.calls i).providerName (s.calls i).code
        (s.calls i).state = (r.mapError .ofChain).map some :=
  ⟨_, returns_of_lookup provider handler h, handleCallback_backend provider handler ctx⟩

end Alone

/-- The status tells the failing stage exactly when the application's handler
returns no error whose tree holds one of this package's, no nil info without an
error, and no info whose cookie name is empty or not a token. -/
theorem statusTellsStage_iff (b : Backend) (config : Option HandlerConfig) (ptr : Nat) (request : Ctx)
    (now : Int) (code state : String) (hcode : code ≠ "") (hstate : state ≠ "") :
    let cfg := config.getD defaultHandlerConfig
    let st := stage b (request.withTimeout cfg.requestTimeout now) "google" code state
    StatusTellsStage cfg st (googleCallbackHandler b config ptr request now code state) ↔
      (∀ err, st = .handlerFailed err → ∀ id ∈ packageErrors, err.is id = false) ∧ st ≠ .succeeded none ∧
        ∀ info, st = .succeeded (some info) → isToken info.sessionCookieName = true := by
  intro cfg st
  rw [googleCallbackHandler_eq b config ptr request now hcode hstate]
  exact statusTellsStage_answer_iff cfg st

-- one provider, one saved state, and an application that opens a session
def registered : Backend where
  providers name := if name = "google" then some ⟨"google", fun _ _ _ => "https://example.com/auth"⟩ else none
  getStateData _ := .ok ⟨"nonce", "verifier", 0⟩
  providerCallback _ _ _ _ _ _ := .ok (none, none)
  callbackHandler _ _ _ _ := .ok (some ⟨"session", "user-123", "session-abc", 3600⟩)

theorem statusTellsStage_iff_registered :
    StatusTellsStage defaultHandlerConfig
      (stage registered (Ctx.background.withTimeout 30000000000 0) "google" "auth-code" "state")
      (googleCallbackHandler registered none 0 .background 0 "auth-code" "state") := by
  refine (statusTellsStage_iff registered none 0 .background 0 "auth-code" "state" (by decide)
    (by decide)).mpr ⟨fun err h => ?_, fun h => ?_, fun info h => ?_⟩
  · cases h
  · cases h
  · cases h
    decide

-- The application also looks for a provider that is not registered.
def linking : Backend :=
  { registered with
    callbackHandler := fun _ _ _ _ => (registered.getProvider "github").map fun _ => none }

def noSession : Backend := { registered with callbackHandler := fun _ _ _ _ => .ok none }

def unnamed : Backend :=
  { registered with callbackHandler := fun _ _ _ _ => .ok (some ⟨"", "user-123", "session-abc", 3600⟩) }

/-- The error of `GetProvider` comes back from the application as a bad request,
though the provider of the request is registered; a nil info is dereferenced; and
an info without a cookie name is answered by 200 and no cookie. -/
theorem handler_error_is_bad_request :
    (linking.providers "google").isSome = true ∧
    stage linking (Ctx.background.withTimeout 30000000000 0) "google" "auth-code" "state" =
      .handlerFailed (.ofChain errProviderNotFound) ∧
    googleCallbackHandler linking none 0 .background 0 "auth-code" "state" =
      .ok (failure 400 "provider not found") ∧
    googleCallbackHandler noSession none 0 .background 0 "auth-code" "state" = .error .nilDereference ∧
    googleCallbackHandler unnamed none 0 .background 0 "auth-code" "state" =
      .ok ⟨200, none, .authenticated "user-123"⟩ := by
  refine ⟨rfl, rfl, ?_, ?_, ?_⟩
  · rw [googleCallbackHandler_eq linking none 0 .background 0 (by decide) (by decide)]
    exact congrArg _ failureOf_providerNotFound
  · rw [googleCallbackHandler_eq noSession none 0 .background 0 (by decide) (by decide)]
    rfl
  · rw [googleCallbackHandler_eq unnamed none 0 .background 0 (by decide) (by decide)]
    rfl

end Ghost.OAuth2
