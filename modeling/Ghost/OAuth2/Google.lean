import Ghost.Go.Url
import Ghost.OAuth2.Steps

/-!
# The OIDC provider with PKCE (oauth2/oidc_google.go)

`GoogleOIDCProvider` over the oauth2 and oidc libraries. What the libraries
answer is an input: the token endpoint may give any token for a code, and the
verifier may accept or refuse any raw token.
-/

namespace Ghost.OAuth2
open Go Url

/-- `authCodeURL` is `config.AuthCodeURL` of the oauth2 library, a URL for a state
and a list of further parameters. The library is documented to pass them on: they
are found in the query of the URL. -/
structure GoogleOIDCProvider where
  providerName : String
  authCodeURL : (state : String) → (opts : List (String × String)) → String
  passes : ∀ state opts, ("state" :: opts.map Prod.fst).Nodup →
    ∀ p ∈ ("state", state) :: opts, queryParam (authCodeURL state opts) p.1 = p.2

-- what `HandleCallback` reads of an `oauth2.Token`; `idToken` is `Extra("id_token")` where that is a string
structure OAuth2Token where
  accessToken : String
  tokenType : String
  refreshToken : String
  expiry : Time
  idToken : Option String

structure IDToken where
  nonce : String
  subject : String
  deriving DecidableEq

structure IDClaims where
  email : String
  name : String

/-- How `config.Exchange`, `verifier.Verify` and `idToken.Claims` answer. -/
structure Library where
  exchange : (code : String) → (opts : List (String × String)) → Except Error OAuth2Token
  verify : (rawIDToken : String) → Except Error IDToken
  claims : IDToken → Except Error IDClaims

/- The library calls that the properties speak about: each exchange with its
arguments, and each token that the verifier accepted. -/
inductive LibraryCall where
  | exchange (code : String) (opts : List (String × String))
  | verified (rawIDToken : String) (idToken : IDToken)
  deriving DecidableEq

namespace GoogleOIDCProvider

def getName (g : GoogleOIDCProvider) : String := g.providerName

def getAuthURL (g : GoogleOIDCProvider) (state nonce codeChallenge : String) : String :=
  g.authCodeURL state [("access_type", "offline"), ("prompt", "consent"), ("nonce", nonce),
    ("code_challenge", codeChallenge), ("code_challenge_method", "S256")]

def provider (g : GoogleOIDCProvider) : Provider := ⟨g.getName, g.getAuthURL⟩

/-- The URL carries the state, the nonce and the challenge that it was made for. -/
theorem getAuthURL_carries (g : GoogleOIDCProvider) (state nonce codeChallenge : String) :
    queryParam (g.getAuthURL state nonce codeChallenge) "state" = state ∧
    queryParam (g.getAuthURL state nonce codeChallenge) "nonce" = nonce ∧
    queryParam (g.getAuthURL state nonce codeChallenge) "code_challenge" = codeChallenge ∧
    queryParam (g.getAuthURL state nonce codeChallenge) "code_challenge_method" = "S256" := by
  have hpasses := g.passes state [("access_type", "offline"), ("prompt", "consent"), ("nonce", nonce),
    ("code_challenge", codeChallenge), ("code_challenge_method", "S256")] (by simp)
  exact ⟨hpasses ("state", state) (by simp), hpasses ("nonce", nonce) (by simp),
    hpasses ("code_challenge", codeChallenge) (by simp), hpasses ("code_challenge_method", "S256") (by simp)⟩

end GoogleOIDCProvider

def errNoIDToken : Error := .new "HandleCallback.id_token" "no id_token in response"
def errNonceMismatch : Error := .new "HandleCallback.nonce" "nonce mismatch"

/- `HandleCallback`, with the library calls it made. Of the receiver's own fields
it reads only the name. The state is a parameter of the source that it does not use. -/
def handleCallback (providerName : String) (lib : Library) (now : Time)
    (code _state nonce codeVerifier : String) :
    List LibraryCall × Except Error (UserInfo × TokenSet) :=
  let opts := [("code_verifier", codeVerifier)]
  match lib.exchange code opts with
  | .error e => ([.exchange code opts], .error (e.annotate "failed to exchange code"))
  | .ok oauth2Token =>
    match oauth2Token.idToken with
    | none => ([.exchange code opts], .error errNoIDToken)
    | some rawIDToken =>
      match lib.verify rawIDToken with
      | .error e => ([.exchange code opts], .error (e.annotate "failed to verify ID token"))
      | .ok idToken =>
        let calls := [.exchange code opts, .verified rawIDToken idToken]
        if idToken.nonce ≠ nonce then (calls, .error errNonceMismatch)
        else
          match lib.claims idToken with
          | .error e => (calls, .error (e.annotate "failed to parse claims"))
          | .ok claims =>
            (calls, .ok
              (⟨idToken.subject, claims.email, claims.name, providerName, now⟩,
               ⟨oauth2Token.accessToken, oauth2Token.tokenType, oauth2Token.refreshToken, rawIDToken,
                oauth2Token.expiry⟩))

/-- A user comes out only of an exchange with the given verifier and of a
verified token with the given nonce. -/
theorem handleCallback_ok {providerName code state nonce codeVerifier : String} {lib : Library} {now : Time}
    {u : UserInfo} {t : TokenSet}
    (h : (handleCallback providerName lib now code state nonce codeVerifier).2 = .ok (u, t)) :
    ∃ rawIDToken idToken, idToken.nonce = nonce ∧
      (handleCallback providerName lib now code state nonce codeVerifier).1 =
        [.exchange code [("code_verifier", codeVerifier)], .verified rawIDToken idToken] := by
  unfold handleCallback at h ⊢
  dsimp only at h ⊢
  cases hexchange : lib.exchange code [("code_verifier", codeVerifier)] with
  | error e =>
    rw [hexchange] at h
    cases h
  | ok oauth2Token =>
    rw [hexchange] at h
    dsimp only at h ⊢
    cases hraw : oauth2Token.idToken with
    | none =>
      rw [hraw] at h
      cases h
    | some rawIDToken =>
      rw [hraw] at h
      dsimp only at h ⊢
      cases hverify : lib.verify rawIDToken with
      | error e =>
        rw [hverify] at h
        cases h
      | ok idToken =>
        rw [hverify] at h
        dsimp only at h ⊢
        by_cases hnonce : idToken.nonce = nonce
        · refine ⟨rawIDToken, idToken, hnonce, ?_⟩
          rw [if_neg (not_not_intro hnonce)] at h ⊢
          cases hclaims : lib.claims idToken with
          | error e => rfl
          | ok claims => rfl
        · rw [if_pos hnonce] at h
          cases h

/-! ### A manager whose providers are OIDC providers -/

inductive GoogleAction where
  | registerProvider (g : GoogleOIDCProvider)
  | manager (a : Action)
  -- `provider.HandleCallback` returns to call `i`
  | providerReturns (i : Nat) (lib : Library)

def libraryCalls (s : Sys) (i : Nat) (lib : Library) : List LibraryCall :=
  match (s.calls i).pc with
  | .inProvider p d =>
    (handleCallback p.getName lib s.now (s.calls i).code (s.calls i).state d.nonce d.codeVerifier).1
  | _ => []

/- Providers are registered and return as the source's own do; for the rest the
manager moves as before. -/
def managerAction (s : Sys) : GoogleAction → Option Action
  | .registerProvider g => some (.registerProvider g.provider)
  | .manager (.registerProvider _) | .manager (.callback _ (.provider _)) => none
  | .manager a => some a
  | .providerReturns i lib =>
    match (s.calls i).pc with
    | .inProvider p d => some (.callback i (.provider
        (handleCallback p.getName lib s.now (s.calls i).code (s.calls i).state d.nonce d.codeVerifier).2))
    | _ => none

def googleStep (m : Manager) (s : Sys) (a : GoogleAction) : Option Sys :=
  (managerAction s a).bind (step m s)

inductive GoogleStep (m : Manager) (s : Sys) : GoogleAction → Sys → Prop where
  | registerProvider (g : GoogleOIDCProvider) : GoogleStep m s (.registerProvider g)
      { s with providers := Function.update s.providers g.getName (some g.provider) }
  | manager (a : Action) (t : Sys) (hp : ∀ p, a ≠ .registerProvider p)
      (hr : ∀ i r, a ≠ .callback i (.provider r)) (h : SysStep m s a t) : GoogleStep m s (.manager a) t
  | providerReturns (i : Nat) (lib : Library) (p : Provider) (d : StateData) (t : Sys)
      (hpc : (s.calls i).pc = .inProvider p d)
      (h : CallStep s i (.provider (handleCallback p.getName lib s.now (s.calls i).code (s.calls i).state
        d.nonce d.codeVerifier).2) t) : GoogleStep m s (.providerReturns i lib) t

theorem googleStep_step {m : Manager} {s t : Sys} {a : GoogleAction} (h : googleStep m s a = some t) :
    GoogleStep m s a t := by
  obtain ⟨b, hb, hstep⟩ := Option.bind_eq_some_iff.mp h
  unfold managerAction at hb
  split at hb
  case h_1 g =>
    cases hb
    cases hstep
    exact .registerProvider g
  case h_2 => cases hb
  case h_3 => cases hb
  case h_4 a hp hr =>
    cases hb
    exact .manager _ _ hp hr (step_sysStep hstep)
  case h_5 i lib =>
    split at hb
    · rename_i p d hpc
      cases hb
      exact .providerReturns i lib p d t hpc (callbackStep_step hstep)
    · cases hb

/-! ### The libraries in one login -/

def clientParams : List (String × String) :=
  [("client_id", "test-client-id"), ("redirect_uri", "http://localhost/callback"), ("response_type", "code"),
    ("scope", "openid profile email")]

-- The client's own parameters, each unless it is given anew, and the state.
def accounts : GoogleOIDCProvider where
  providerName := "google"
  authCodeURL state opts := withQuery "https://accounts.google.com/o/oauth2/v2/auth"
    ((clientParams.filter fun p => decide (p.1 ∉ opts.map Prod.fst)) ++ ("state", state) :: opts)
  passes := by
    intro state opts hkeys p hp
    refine queryParam_withQuery (by decide) (by decide) ?_ (List.mem_append_right _ hp)
    rw [List.map_append, List.map_cons, List.nodup_append]
    refine ⟨(List.filter_sublist.map Prod.fst).nodup (by decide), hkeys, ?_⟩
    intro key hkey other hother
    obtain ⟨q, hq, rfl⟩ := List.mem_map.mp hkey
    obtain ⟨hclient, hnew⟩ := List.mem_filter.mp hq
    have hstate : ∀ q ∈ clientParams, q.1 ≠ "state" := by decide
    rintro rfl
    rcases List.mem_cons.mp hother with h | h
    · exact hstate q hclient h
    · exact of_decide_eq_true hnew h

-- the token endpoint and the verifier, for the authorization request of the URL
def loginLibrary : Library where
  exchange := fun _ _ => .ok ⟨"ya29.token", "Bearer", "", 3600000000000, some "eyJhbGciOiJSUzI1NiJ9"⟩
  verify := fun _ => .ok ⟨loginNonce, "110248495921238986420"⟩
  claims := fun _ => .ok ⟨"ada@example.com", "Ada"⟩

def CallPc.atHandler : CallPc → Bool
  | .callHandler _ _ => true
  | _ => false

end Ghost.OAuth2
