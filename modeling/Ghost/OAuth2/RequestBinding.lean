import Ghost.OAuth2.Google
import Ghost.Transition.History

/-!
# Authentication is bound to its request (oauth2/manager.go, oauth2/state.go, oauth2/oidc_google.go)

The state, the nonce, the verifier and the expiry of a login are drawn in
`GetAuthURL`, kept in the storage, fetched by `HandleCallback` and checked by the
provider. Whatever the interleaving, a callback that gets to the callback
handler has been through all four with the values of one `GetAuthURL` call.
-/

namespace Ghost.OAuth2
open Go Transition Url

/-! ### What is noted of a run -/

/-- A `GetAuthURL` call: the provider it was called with, and its clock reading. -/
structure AuthCall where
  providerName : Option String
  calledAt : Option Time

/-- The registered providers, the `GetAuthURL` calls, the strings
`GenerateRandomString` has given as state and nonce, and the library calls made for
each callback. -/
structure Requests where
  registered : List GoogleOIDCProvider
  auths : Nat → AuthCall
  drawn : List (Nat × String × String)
  library : Nat → List LibraryCall

def Requests.empty : Requests := ⟨[], fun _ => ⟨none, none⟩, [], fun _ => []⟩

def requests (s : Sys) (a : GoogleAction) (h : Requests) : Requests :=
  match a with
  | .registerProvider g => { h with registered := g :: h.registered }
  | .manager (.startAuth i name) =>
    { h with auths := Function.update h.auths i { h.auths i with providerName := some name } }
  | .manager (.auth i .go) =>
    match s.auths i with
    | .now _ _ _ _ => { h with auths := Function.update h.auths i { h.auths i with calledAt := some s.now } }
    | _ => h
  | .manager (.auth i (.random (.drawn state nonce _))) => { h with drawn := (i, state, nonce) :: h.drawn }
  | .providerReturns i lib =>
    { h with library := Function.update h.library i (h.library i ++ libraryCalls s i lib) }
  | _ => h

/-! ### The assumptions on random strings and tokens -/

def Requests.strings (h : Requests) : List String := h.drawn.flatMap fun r => [r.2.1, r.2.2]

def Event.carriesNonce (nonce : String) : Event → Bool
  | .issued _ _ _ n _ => n == nonce
  | _ => false

/- An ID token carries the nonce of the authorization request it was issued for. A
string of `GenerateRandomString` gets into such a request only by a URL that
`GetAuthURL` has returned. -/
def LibraryCall.Genuine (p : Sys × Requests) : LibraryCall → Prop
  | .verified _ idToken => idToken.nonce ∈ p.2.strings → p.1.log.any (Event.carriesNonce idToken.nonce) = true
  | .exchange _ _ => True

instance (p : Sys × Requests) : (c : LibraryCall) → Decidable (c.Genuine p)
  | .verified _ idToken => inferInstanceAs (Decidable
      (idToken.nonce ∈ p.2.strings → p.1.log.any (Event.carriesNonce idToken.nonce) = true))
  | .exchange _ _ => .isTrue trivial

/-- `GenerateRandomString` never repeats a string, and the verifier accepts only
genuine tokens. -/
def Assumed (p : Sys × Requests) : GoogleAction → Prop
  | .manager (.auth _ (.random (.drawn state nonce _))) => (state :: nonce :: p.2.strings).Nodup
  | .providerReturns i lib => ∀ c ∈ libraryCalls p.1 i lib, c.Genuine p
  | _ => True

instance (p : Sys × Requests) : (a : GoogleAction) → Decidable (Assumed p a)
  | .manager (.auth _ (.random (.drawn state nonce _))) =>
      inferInstanceAs (Decidable (state :: nonce :: p.2.strings).Nodup)
  | .providerReturns i lib => inferInstanceAs (Decidable (∀ c ∈ libraryCalls p.1 i lib, c.Genuine p))
  | .manager (.auth _ (.random (.stateError _))) | .manager (.auth _ (.random (.nonceError _)))
  | .manager (.auth _ (.random (.verifierError _))) | .manager (.auth _ .go)
  | .manager (.auth _ (.provider _)) | .manager (.auth _ (.handler _)) | .registerProvider _
  | .manager (.tick _) | .manager .removeExpired | .manager (.registerProvider _)
  | .manager (.startAuth _ _) | .manager (.startCallback _ _ _ _) | .manager (.callback _ _) => .isTrue trivial

/-! ### The request behind a stored state -/

section Source

variable {m : Manager} {s t : Sys} {h k : Requests} {a i : Nat} {g : GoogleOIDCProvider} {state : String}
  {d : StateData} {calledAt : Time}

/- `GetAuthURL` call `a`, for the registered provider `g`, stored `d` under `state`,
and its URL with the same values is returned, or is what its last statement returns. -/
structure Source (m : Manager) (s : Sys) (h : Requests) (a : Nat) (g : GoogleOIDCProvider) (state : String)
    (d : StateData) (calledAt : Time) : Prop where
  registered : g ∈ h.registered
  drawn : (a, state, d.nonce) ∈ h.drawn
  called : h.auths a = ⟨some g.providerName, some calledAt⟩
  expires : d.expiresAt = calledAt + m.stateTimeout
  url : s.auths a = .authURL g.provider state d.nonce (m.generateCodeChallenge d.codeVerifier) ∨
    s.auths a = .returned (.ok (g.getAuthURL state d.nonce (m.generateCodeChallenge d.codeVerifier)))

/- Nothing that was noted or logged is lost from `s` to `t`, and calls that have
returned stay so. -/
structure Persists (m : Manager) (s : Sys) (h : Requests) (t : Sys) (k : Requests) : Prop where
  log : ∀ e ∈ s.log, e ∈ t.log
  returned : ∀ a r, s.auths a = .returned r → t.auths a = .returned r
  source : ∀ a g state d calledAt, Source m s h a g state d calledAt → Source m t k a g state d calledAt

theorem persists_of_auths (hauths : t.auths = s.auths) (hlog : ∀ e ∈ s.log, e ∈ t.log)
    (hregistered : ∀ g ∈ h.registered, g ∈ k.registered) (hdrawn : k.drawn = h.drawn)
    (hcalled : k.auths = h.auths) : Persists m s h t k := by
  refine ⟨hlog, ?_, ?_⟩
  · rw [hauths]
    exact fun _ _ => id
  · rintro a g state d calledAt ⟨hg, hd, hc, he, hu⟩
    exact ⟨hregistered g hg, by rw [hdrawn]; exact hd, by rw [hcalled]; exact hc, he, by rw [hauths]; exact hu⟩

/- `GetAuthURL` call `i` moves, not from its last statement. -/
theorem persists_setAuth {pc : AuthPc} (hauths : t.auths = (s.setAuth i pc).auths)
    (hlog : ∀ e ∈ s.log, e ∈ t.log) (hregistered : k.registered = h.registered)
    (hdrawn : ∀ r ∈ h.drawn, r ∈ k.drawn) (hcalled : ∀ a, a ≠ i → k.auths a = h.auths a)
    (hurl : ∀ p state nonce challenge, s.auths i ≠ .authURL p state nonce challenge)
    (hret : ∀ r, s.auths i ≠ .returned r) : Persists m s h t k := by
  refine ⟨hlog, ?_, ?_⟩
  · intro a r ha
    have hai : a ≠ i := fun hai => hret r (by rw [← hai]; exact ha)
    rw [hauths, Sys.setAuth_other s pc hai]
    exact ha
  · rintro a g state d calledAt ⟨hg, hd, hc, he, hu⟩
    have hai : a ≠ i := by
      rintro rfl
      rcases hu with hu | hu
      · exact hurl _ _ _ _ hu
      · exact hret _ hu
    refine ⟨by rw [hregistered]; exact hg, hdrawn _ hd, (hcalled a hai).trans hc, he, ?_⟩
    rw [hauths, Sys.setAuth_other s pc hai]
    exact hu

end Source

/-! ### The invariant -/

/- `p` is a registered provider with the name that call `a` was given. -/
def Asked (h : Requests) (a : Nat) (p : Provider) : Prop :=
  ∃ g ∈ h.registered, p = g.provider ∧ (h.auths a).providerName = some g.providerName

def AuthOk (m : Manager) (h : Requests) (a : Nat) : AuthPc → Prop
  | .lookup name => (h.auths a).providerName = some name
  | .generate p => Asked h a p
  | .now p state nonce _ => Asked h a p ∧ (a, state, nonce) ∈ h.drawn
  | .saveState p state nonce _ expiresAt => Asked h a p ∧ (a, state, nonce) ∈ h.drawn ∧
      ∃ calledAt, (h.auths a).calledAt = some calledAt ∧ expiresAt = calledAt + m.stateTimeout
  | .authURL _ state nonce _ => (a, state, nonce) ∈ h.drawn
  | .idle | .returned _ => True

structure AuthInv (m : Manager) (strict : Prop) (s : Sys) (h : Requests) : Prop where
  google : ∀ name p, s.providers name = some p → ∃ g ∈ h.registered, p = g.provider ∧ g.providerName = name
  auths : ∀ a, AuthOk m h a (s.auths a)
  issued : ∀ a name state nonce challenge, .issued a name state nonce challenge ∈ s.log →
    (a, state, nonce) ∈ h.drawn ∧ ∃ r, s.auths a = .returned r
  unique : strict → ∀ r ∈ h.drawn, ∀ r' ∈ h.drawn, r.2.2 = r'.2.2 → r.1 = r'.1

def Found (m : Manager) (s : Sys) (h : Requests) (i : Nat) (d : StateData) : Prop :=
  (∃ at_, .lookedUp i (s.calls i).state d at_ ∈ s.log ∧ at_ ≤ d.expiresAt) ∧
    ∃ a g calledAt, Source m s h a g (s.calls i).state d calledAt

def Authenticated (m : Manager) (strict : Prop) (s : Sys) (h : Requests) (i : Nat) : Prop :=
  ∃ d, (∃ at_, .lookedUp i (s.calls i).state d at_ ∈ s.log ∧ at_ ≤ d.expiresAt) ∧
    ∃ a g calledAt, Source m s h a g (s.calls i).state d calledAt ∧
      (strict → s.auths a =
        .returned (.ok (g.getAuthURL (s.calls i).state d.nonce (m.generateCodeChallenge d.codeVerifier)))) ∧
      ∃ rawIDToken idToken, idToken.nonce = d.nonce ∧
        h.library i = [.exchange (s.calls i).code [("code_verifier", d.codeVerifier)],
          .verified rawIDToken idToken]

def CallOk (m : Manager) (strict : Prop) (s : Sys) (h : Requests) (i : Nat) : CallPc → Prop
  | .idle | .lookup | .getStateData _ => h.library i = []
  | .callProvider _ d | .inProvider _ d => h.library i = [] ∧ Found m s h i d
  | .callHandler _ _ => Authenticated m strict s h i
  | .inHandler | .deleteState _ | .returned _ => True

structure RequestInv (m : Manager) (strict : Prop) (s : Sys) (h : Requests) : Prop where
  auth : AuthInv m strict s h
  entries : ∀ state d, s.storage.data state = some d → ∃ a g calledAt, Source m s h a g state d calledAt
  calls : ∀ i, CallOk m strict s h i (s.calls i).pc

/-! ### What each step keeps -/

section Steps

variable {m : Manager} {strict : Prop} {s t : Sys} {h k : Requests} {i : Nat}

theorem AuthOk.mono {a : Nat} {pc : AuthPc} (hregistered : ∀ g ∈ h.registered, g ∈ k.registered)
    (hdrawn : ∀ r ∈ h.drawn, r ∈ k.drawn) (hcalled : k.auths a = h.auths a) (hok : AuthOk m h a pc) :
    AuthOk m k a pc := by
  have hasked : ∀ p, Asked h a p → Asked k a p := by
    rintro p ⟨g, hg, hp, hname⟩
    exact ⟨g, hregistered g hg, hp, by rw [hcalled]; exact hname⟩
  cases pc with
  | idle | returned _ => trivial
  | lookup name =>
    rw [AuthOk, hcalled]
    exact hok
  | generate p => exact hasked p hok
  | now p state nonce codeVerifier => exact ⟨hasked p hok.1, hdrawn _ hok.2⟩
  | authURL p state nonce challenge => exact hdrawn _ hok
  | saveState p state nonce codeVerifier expiresAt =>
    obtain ⟨hp, hd, hc⟩ := hok
    exact ⟨hasked p hp, hdrawn _ hd, by rw [hcalled]; exact hc⟩

theorem CallOk.mono {j : Nat} {pc : CallPc} (hp : Persists m s h t k)
    (hstate : (t.calls j).state = (s.calls j).state) (hcode : (t.calls j).code = (s.calls j).code)
    (hlib : k.library j = h.library j) (hok : CallOk m strict s h j pc) : CallOk m strict t k j pc := by
  have hfound : ∀ d, Found m s h j d → Found m t k j d := by
    rintro d ⟨⟨at_, hlog, hle⟩, a, g, calledAt, hsrc⟩
    rw [Found, hstate]
    exact ⟨⟨at_, hp.log _ hlog, hle⟩, a, g, calledAt, hp.source _ _ _ _ _ hsrc⟩
  cases pc with
  | idle | lookup | getStateData _ => exact hlib.trans hok
  | callProvider _ d | inProvider _ d => exact ⟨hlib.trans hok.1, hfound d hok.2⟩
  | callHandler u tk =>
    obtain ⟨d, ⟨at_, hlog, hle⟩, a, g, calledAt, hsrc, hret, hcalls⟩ := hok
    show Authenticated m strict t k j
    rw [Authenticated, hstate, hcode, hlib]
    exact ⟨d, ⟨at_, hp.log _ hlog, hle⟩, a, g, calledAt, hp.source _ _ _ _ _ hsrc,
      fun hs => hp.returned _ _ (hret hs), hcalls⟩
  | inHandler | deleteState _ | returned _ => trivial

theorem AuthInv.frame (hs : AuthInv m strict s h) (hproviders : t.providers = s.providers)
    (hauths : t.auths = s.auths)
    (hissued : ∀ a name state nonce challenge, .issued a name state nonce challenge ∈ t.log →
      .issued a name state nonce challenge ∈ s.log)
    (hregistered : k.registered = h.registered) (hdrawn : k.drawn = h.drawn) (hcalled : k.auths = h.auths) :
    AuthInv m strict t k := by
  refine ⟨?_, ?_, ?_, ?_⟩
  · rw [hproviders, hregistered]
    exact hs.google
  · intro a
    rw [hauths]
    exact (hs.auths a).mono (by rw [hregistered]; exact fun _ => id) (by rw [hdrawn]; exact fun _ => id)
      (by rw [hcalled])
  · intro a name state nonce challenge hlog
    rw [hdrawn, hauths]
    exact hs.issued a name state nonce challenge (hissued _ _ _ _ _ hlog)
  · rw [hdrawn]
    exact hs.unique

/- `GetAuthURL` call `i`, which has not returned, moves on. -/
theorem AuthInv.moved {pc : AuthPc} (hs : AuthInv m strict s h) (hproviders : t.providers = s.providers)
    (hauths : t.auths = (s.setAuth i pc).auths)
    (hissued : ∀ a name state nonce challenge, .issued a name state nonce challenge ∈ t.log →
      .issued a name state nonce challenge ∈ s.log ∨
        a = i ∧ (i, state, nonce) ∈ k.drawn ∧ ∃ r, pc = .returned r)
    (hregistered : k.registered = h.registered) (hdrawn : ∀ r ∈ h.drawn, r ∈ k.drawn)
    (hcalled : ∀ a, a ≠ i → k.auths a = h.auths a)
    (hret : ∀ r, s.auths i ≠ .returned r) (hpc : AuthOk m k i pc)
    (hunique : strict → ∀ r ∈ k.drawn, ∀ r' ∈ k.drawn, r.2.2 = r'.2.2 → r.1 = r'.1) :
    AuthInv m strict t k := by
  have hself : t.auths i = pc := by rw [hauths, Sys.setAuth_self]
  have hother : ∀ a, a ≠ i → t.auths a = s.auths a := by
    intro a ha
    rw [hauths, Sys.setAuth_other s pc ha]
  refine ⟨?_, ?_, ?_, hunique⟩
  · rw [hproviders, hregistered]
    exact hs.google
  · intro a
    by_cases ha : a = i
    · rw [ha, hself]
      exact hpc
    · rw [hother a ha]
      exact (hs.auths a).mono (by rw [hregistered]; exact fun _ => id) hdrawn (hcalled a ha)
  · intro a name state nonce challenge hlog
    rcases hissued a name state nonce challenge hlog with hold | ⟨rfl, hd, r, hr⟩
    · obtain ⟨hd, r, hr⟩ := hs.issued a name state nonce challenge hold
      have hai : a ≠ i := fun hai => hret r (by rw [← hai]; exact hr)
      exact ⟨hdrawn _ hd, r, by rw [hother a hai]; exact hr⟩
    · exact ⟨hd, r, by rw [hself]; exact hr⟩

theorem Requests.nonce_mem_strings {r : Nat × String × String} (hr : r ∈ h.drawn) : r.2.2 ∈ h.strings :=
  List.mem_flatMap.mpr ⟨r, hr, by simp⟩

theorem AuthInv.unique_drawn {state nonce : String} (hs : AuthInv m strict s h)
    (hnew : strict → (state :: nonce :: h.strings).Nodup) (hstrict : strict) :
    ∀ r ∈ (i, state, nonce) :: h.drawn, ∀ r' ∈ (i, state, nonce) :: h.drawn, r.2.2 = r'.2.2 → r.1 = r'.1 := by
  have hfresh : ∀ r ∈ h.drawn, r.2.2 ≠ nonce := by
    intro r hr hrn
    have hnodup := (List.nodup_cons.mp (hnew hstrict)).2
    exact (List.nodup_cons.mp hnodup).1 (hrn ▸ Requests.nonce_mem_strings hr)
  intro r hr r' hr' heq
  rcases List.mem_cons.mp hr with rfl | hr
  · rcases List.mem_cons.mp hr' with rfl | hr'
    · rfl
    · exact absurd heq.symm (hfresh r' hr')
  · rcases List.mem_cons.mp hr' with rfl | hr'
    · exact absurd heq (hfresh r hr)
    · exact hs.unique hstrict r hr r' hr' heq

theorem requests_failed {r : Random} (hr : ∀ state nonce codeVerifier, r ≠ .drawn state nonce codeVerifier) :
    requests s (.manager (.auth i (.random r))) h = h := by
  cases r with
  | drawn state nonce codeVerifier => exact absurd rfl (hr state nonce codeVerifier)
  | _ => rfl

/- The last statement of `GetAuthURL`. -/
theorem persists_issued {p : Provider} {state nonce challenge : String} {e : Event}
    (hpc : s.auths i = .authURL p state nonce challenge) :
    Persists m s h ((s.emit e).setAuth i (.returned (.ok (p.getAuthURL state nonce challenge)))) h := by
  refine ⟨fun e he => List.mem_cons_of_mem _ he, ?_, ?_⟩
  · intro a r ha
    have hai : a ≠ i := by
      rintro rfl
      cases hpc.symm.trans ha
    rw [Sys.setAuth_other _ _ hai]
    exact ha
  · rintro a g st d calledAt ⟨hg, hd, hc, he, hu⟩
    refine ⟨hg, hd, hc, he, ?_⟩
    by_cases hai : a = i
    · subst hai
      rcases hu with hu | hu
      · cases hpc.symm.trans hu
        exact .inr (by rw [Sys.setAuth_self]; rfl)
      · cases hpc.symm.trans hu
    · rw [Sys.setAuth_other _ _ hai]
      exact hu

/- A move of call `i` before its last statement. -/
theorem AuthInv.moves {pc : AuthPc} (hs : AuthInv m strict s h) (hproviders : t.providers = s.providers)
    (hauths : t.auths = (s.setAuth i pc).auths) (hlog : ∀ e ∈ s.log, e ∈ t.log)
    (hissued : ∀ a name state nonce challenge, .issued a name state nonce challenge ∈ t.log →
      .issued a name state nonce challenge ∈ s.log)
    (hregistered : k.registered = h.registered) (hdrawn : ∀ r ∈ h.drawn, r ∈ k.drawn)
    (hcalled : ∀ a, a ≠ i → k.auths a = h.auths a)
    (hurl : ∀ p state nonce challenge, s.auths i ≠ .authURL p state nonce challenge)
    (hret : ∀ r, s.auths i ≠ .returned r) (hpc : AuthOk m k i pc)
    (hunique : strict → ∀ r ∈ k.drawn, ∀ r' ∈ k.drawn, r.2.2 = r'.2.2 → r.1 = r'.1) :
    AuthInv m strict t k ∧ Persists m s h t k :=
  ⟨hs.moved hproviders hauths (fun _ _ _ _ _ hl => .inl (hissued _ _ _ _ _ hl)) hregistered hdrawn hcalled hret hpc
    hunique, persists_setAuth hauths hlog hregistered hdrawn hcalled hurl hret⟩

theorem AuthInv.auth_step {c : Choice} (hs : AuthInv m strict s h)
    (hok : strict → Assumed (s, h) (.manager (.auth i c))) (hstep : AuthStep m s i c t) :
    AuthInv m strict t (requests s (.manager (.auth i c)) h) ∧
      Persists m s h t (requests s (.manager (.auth i c)) h) := by
  have hauth := hs.auths i
  cases hstep with
  | notFound name hpc =>
    simp only [requests, hpc]
    exact hs.moves rfl rfl (fun _ => id) (fun _ _ _ _ _ => id) rfl (fun _ => id) (fun _ _ => rfl)
      (by rw [hpc]; nofun) (by rw [hpc]; nofun) trivial hs.unique
  | found name p hpc hp =>
    rw [hpc] at hauth
    obtain ⟨g, hg, rfl, rfl⟩ := hs.google name p hp
    simp only [requests, hpc]
    exact hs.moves rfl rfl (fun _ => id) (fun _ _ _ _ _ => id) rfl (fun _ => id) (fun _ _ => rfl)
      (by rw [hpc]; nofun) (by rw [hpc]; nofun) ⟨g, hg, rfl, hauth⟩ hs.unique
  | failed p r e hpc hr =>
    rw [requests_failed hr]
    exact hs.moves rfl rfl (fun _ => id) (fun _ _ _ _ _ => id) rfl (fun _ => id) (fun _ _ => rfl)
      (by rw [hpc]; nofun) (by rw [hpc]; nofun) trivial hs.unique
  | drawn p state nonce codeVerifier hpc =>
    rw [hpc] at hauth
    exact hs.moves rfl rfl (fun _ => id) (fun _ _ _ _ _ => id) rfl (fun _ => List.mem_cons_of_mem _)
      (fun _ _ => rfl) (by rw [hpc]; nofun) (by rw [hpc]; nofun) ⟨hauth, List.mem_cons_self ..⟩
      (fun hstrict => hs.unique_drawn hok hstrict)
  | now p state nonce codeVerifier hpc =>
    rw [hpc] at hauth
    obtain ⟨⟨g, hg, hp, hname⟩, hdrawn⟩ := hauth
    simp only [requests, hpc]
    refine hs.moves rfl rfl (fun _ => id) (fun _ _ _ _ _ => id) rfl (fun _ => id)
      (fun a ha => Function.update_of_ne ha ..) (by rw [hpc]; nofun) (by rw [hpc]; nofun) ⟨⟨g, hg, hp, ?_⟩, hdrawn,
        s.now, ?_, rfl⟩ hs.unique
    · simp only [Function.update_self]
      exact hname
    · simp only [Function.update_self]
  | saved p state nonce codeVerifier expiresAt hpc =>
    rw [hpc] at hauth
    obtain ⟨-, hdrawn, -⟩ := hauth
    simp only [requests, hpc]
    exact hs.moves rfl rfl (fun _ => List.mem_cons_of_mem _) (fun _ _ _ _ _ hl => by simpa using hl) rfl
      (fun _ => id) (fun _ _ => rfl) (by rw [hpc]; nofun) (by rw [hpc]; nofun) hdrawn hs.unique
  | issued p state nonce challenge hpc =>
    rw [hpc] at hauth
    simp only [requests, hpc]
    refine ⟨hs.moved rfl rfl (fun a name st n ch hl => ?_) rfl (fun _ => id) (fun _ _ => rfl)
      (by rw [hpc]; nofun) trivial hs.unique, persists_issued hpc⟩
    rcases List.mem_cons.mp hl with hl | hl
    · cases hl
      exact .inr ⟨rfl, hauth, _, rfl⟩
    · exact .inl hl

/- The calls and the entries, when no callback moves and nothing is stored. -/
theorem RequestInv.of_auth (hs : RequestInv m strict s h) (hauth : AuthInv m strict t k)
    (hp : Persists m s h t k) (hcalls : t.calls = s.calls) (hlib : k.library = h.library)
    (hentries : ∀ state d, t.storage.data state = some d → s.storage.data state = some d) :
    RequestInv m strict t k := by
  refine ⟨hauth, ?_, ?_⟩
  · intro state d hd
    obtain ⟨a, g, calledAt, hsrc⟩ := hs.entries state d (hentries state d hd)
    exact ⟨a, g, calledAt, hp.source _ _ _ _ _ hsrc⟩
  · intro i
    rw [hcalls]
    exact (hs.calls i).mono hp (by rw [hcalls]) (by rw [hcalls]) (by rw [hlib])

theorem requests_auth_library (c : Choice) : (requests s (.manager (.auth i c)) h).library = h.library := by
  cases c with
  | go =>
    simp only [requests]
    split <;> rfl
  | random r => cases r <;> rfl
  | provider r | handler r => rfl

theorem RequestInv.auth_step {c : Choice} (hs : RequestInv m strict s h)
    (hok : strict → Assumed (s, h) (.manager (.auth i c))) (hstep : AuthStep m s i c t) :
    RequestInv m strict t (requests s (.manager (.auth i c)) h) := by
  obtain ⟨hauth, hp⟩ := hs.auth.auth_step hok hstep
  have hlib := requests_auth_library (s := s) (h := h) (i := i) c
  have hpcOk := hs.auth.auths i
  cases hstep with
  | saved p state nonce codeVerifier expiresAt hpc =>
    rw [hpc] at hpcOk
    obtain ⟨⟨g, hg, rfl, hname⟩, hdrawn, calledAt, hcalled, hexpires⟩ := hpcOk
    have hauths : h.auths i = ⟨some g.providerName, some calledAt⟩ := by rw [← hname, ← hcalled]
    simp only [requests, hpc] at hauth hp ⊢
    refine ⟨hauth, ?_, fun j => (hs.calls j).mono hp rfl rfl rfl⟩
    intro st d hd
    by_cases hst : st = state
    · have hdata : d = ⟨nonce, codeVerifier, expiresAt⟩ := by
        have hself : Function.update s.storage.data state (some ⟨nonce, codeVerifier, expiresAt⟩) st = some d := hd
        rw [hst, Function.update_self] at hself
        exact (Option.some.inj hself).symm
      subst hdata
      rw [hst]
      exact ⟨i, g, calledAt, hg, hdrawn, hauths, hexpires, .inl (Sys.setAuth_self ..)⟩
    · have hother : s.storage.data st = some d := by
        rw [← s.storage.saveState_other nonce codeVerifier expiresAt hst]
        exact hd
      obtain ⟨a, g', calledAt', hsrc⟩ := hs.entries st d hother
      exact ⟨a, g', calledAt', hp.source _ _ _ _ _ hsrc⟩
  | notFound | found | failed | drawn | now | issued =>
    exact hs.of_auth hauth hp rfl hlib (fun _ _ => id)

/- Callback `i` moves on. -/
theorem RequestInv.moved {pc : CallPc} (hs : RequestInv m strict s h) (hproviders : t.providers = s.providers)
    (hauths : t.auths = s.auths) (hcalls : t.calls = (s.setPc i pc).calls)
    (hentries : ∀ state d, t.storage.data state = some d → s.storage.data state = some d)
    (hlog : ∀ e ∈ s.log, e ∈ t.log)
    (hissued : ∀ a name state nonce challenge, .issued a name state nonce challenge ∈ t.log →
      .issued a name state nonce challenge ∈ s.log)
    (hregistered : k.registered = h.registered) (hdrawn : k.drawn = h.drawn) (hcalled : k.auths = h.auths)
    (hlib : ∀ j, j ≠ i → k.library j = h.library j)
    (hpc : Persists m s h t k → CallOk m strict t k i pc) : RequestInv m strict t k := by
  have hp : Persists m s h t k :=
    persists_of_auths hauths hlog (by rw [hregistered]; exact fun _ => id) hdrawn hcalled
  refine ⟨hs.auth.frame hproviders hauths hissued hregistered hdrawn hcalled, ?_, ?_⟩
  · intro state d hd
    obtain ⟨a, g, calledAt, hsrc⟩ := hs.entries state d (hentries state d hd)
    exact ⟨a, g, calledAt, hp.source _ _ _ _ _ hsrc⟩
  · intro j
    by_cases hj : j = i
    · subst hj
      rw [hcalls, Sys.setPc_self]
      exact hpc hp
    · have hsame : t.calls j = s.calls j := by rw [hcalls, Sys.setPc_other s pc hj]
      rw [hsame]
      exact (hs.calls j).mono hp (by rw [hsame]) (by rw [hsame]) (hlib j hj)

theorem RequestInv.call_step {c : Choice} (hs : RequestInv m strict s h) (hc : ∀ r, c ≠ .provider r)
    (hstep : CallStep s i c t) : RequestInv m strict t h := by
  have hcall := hs.calls i
  cases hstep with
  | notFound hpc =>
    exact hs.moved rfl rfl rfl (fun _ _ => id) (fun _ => id) (fun _ _ _ _ _ => id) rfl rfl rfl (fun _ _ => rfl)
      (fun _ => trivial)
  | found p hpc hp =>
    rw [hpc] at hcall
    exact hs.moved rfl rfl rfl (fun _ _ => id) (fun _ => id) (fun _ _ _ _ _ => id) rfl rfl rfl (fun _ _ => rfl)
      (fun _ => hcall)
  | lookedUp p d hpc hd he =>
    rw [hpc] at hcall
    refine hs.moved rfl rfl rfl (fun _ _ => id) (fun _ => List.mem_cons_of_mem _)
      (fun _ _ _ _ _ hl => by simpa using hl) rfl rfl rfl (fun _ _ => rfl) (fun hp => ⟨hcall, ?_⟩)
    obtain ⟨a, g, calledAt, hsrc⟩ := hs.entries _ d hd
    rw [Found, Sys.setPc_state]
    exact ⟨⟨s.now, List.mem_cons_self .., (d.not_expired_iff s.now).mp he⟩, a, g, calledAt,
      hp.source _ _ _ _ _ hsrc⟩
  | refused p e st hpc hg hst =>
    have hentries : ∀ state d, st.data state = some d → s.storage.data state = some d := by
      intro state d hd
      rcases hst with rfl | rfl
      · exact hd
      · exact s.storage.deleteState_some hd
    exact hs.moved rfl rfl rfl hentries (fun _ => id) (fun _ _ _ _ _ => id) rfl rfl rfl (fun _ _ => rfl)
      (fun _ => trivial)
  | callProvider p d hpc =>
    rw [hpc] at hcall
    refine hs.moved rfl rfl rfl (fun _ _ => id) (fun _ => List.mem_cons_of_mem _)
      (fun _ _ _ _ _ hl => by simpa using hl) rfl rfl rfl (fun _ _ => rfl) (fun hp => ?_)
    exact hcall.mono hp (Sys.setPc_state ..) (Sys.setPc_code ..) rfl
  | providerFailed p d e hpc => exact absurd rfl (hc _)
  | providerDone p d u tk hpc => exact absurd rfl (hc _)
  | callHandler u tk hpc =>
    exact hs.moved rfl rfl rfl (fun _ _ => id) (fun _ => List.mem_cons_of_mem _)
      (fun _ _ _ _ _ hl => by simpa using hl) rfl rfl rfl (fun _ _ => rfl) (fun _ => trivial)
  | handled r ret hpc =>
    exact hs.moved rfl rfl rfl (fun _ _ => id) (fun _ => id) (fun _ _ _ _ _ => id) rfl rfl rfl (fun _ _ => rfl)
      (fun _ => trivial)
  | deleted r hpc =>
    exact hs.moved rfl rfl rfl (fun _ _ => s.storage.deleteState_some) (fun _ => id) (fun _ _ _ _ _ => id) rfl rfl rfl
      (fun _ _ => rfl) (fun _ => trivial)

/- A genuine token with the nonce of a stored state: the URL of that state has
been returned, since no other call has drawn the nonce. -/
theorem AuthInv.returned_of_genuine {g : GoogleOIDCProvider} {state rawIDToken : String} {d : StateData} {a : Nat}
    {calledAt : Time} {idToken : IDToken} (hs : AuthInv m strict s h)
    (hsrc : Source m s h a g state d calledAt) (hnonce : idToken.nonce = d.nonce) (hstrict : strict)
    (hgenuine : (LibraryCall.verified rawIDToken idToken).Genuine (s, h)) :
    s.auths a = .returned (.ok (g.getAuthURL state d.nonce (m.generateCodeChallenge d.codeVerifier))) := by
  have hmem : idToken.nonce ∈ h.strings := by
    rw [hnonce]
    exact Requests.nonce_mem_strings hsrc.drawn
  obtain ⟨e, he, hcarries⟩ := List.any_eq_true.mp (hgenuine hmem)
  cases e with
  | issued b name st n challenge =>
    have hn : n = d.nonce := by
      rw [← hnonce]
      exact beq_iff_eq.mp hcarries
    obtain ⟨hdrawn, r, hr⟩ := hs.issued b name st n challenge he
    have hab : a = b := hs.unique hstrict _ hsrc.drawn _ hdrawn hn.symm
    rcases hsrc.url with hurl | hurl
    · rw [hab] at hurl
      cases hurl.symm.trans hr
    · exact hurl
  | saved | lookedUp | providerCalled | handlerCalled => cases hcarries

theorem RequestInv.provider_step {lib : Library} {p : Provider} {d : StateData} (hs : RequestInv m strict s h)
    (hok : strict → Assumed (s, h) (.providerReturns i lib)) (hpc : (s.calls i).pc = .inProvider p d)
    (hstep : CallStep s i (.provider (handleCallback p.getName lib s.now (s.calls i).code (s.calls i).state
      d.nonce d.codeVerifier).2) t) : RequestInv m strict t (requests s (.providerReturns i lib) h) := by
  have hcalls : libraryCalls s i lib = (handleCallback p.getName lib s.now (s.calls i).code (s.calls i).state
      d.nonce d.codeVerifier).1 := by
    simp only [libraryCalls, hpc]
  have hothers : ∀ j, j ≠ i → (requests s (.providerReturns i lib) h).library j = h.library j :=
    fun j hj => Function.update_of_ne hj ..
  generalize hresult : (handleCallback p.getName lib s.now (s.calls i).code (s.calls i).state
    d.nonce d.codeVerifier).2 = result at hstep
  cases hstep with
  | providerFailed p' d' e hpc' =>
    exact hs.moved rfl rfl rfl (fun _ _ => id) (fun _ => id) (fun _ _ _ _ _ => id) rfl rfl rfl hothers (fun _ => trivial)
  | providerDone p' d' u tk hpc' =>
    refine hs.moved rfl rfl rfl (fun _ _ => id) (fun _ => id) (fun _ _ _ _ _ => id) rfl rfl rfl hothers (fun hp => ?_)
    obtain ⟨rawIDToken, idToken, hnonce, hmade⟩ := handleCallback_ok hresult
    have hcall := hs.calls i
    rw [hpc] at hcall
    obtain ⟨hnone, ⟨at_, hlog, hle⟩, a, g, calledAt, hsrc⟩ := hcall
    have hlibrary : (requests s (.providerReturns i lib) h).library i =
        [.exchange (s.calls i).code [("code_verifier", d.codeVerifier)], .verified rawIDToken idToken] := by
      show Function.update h.library i (h.library i ++ libraryCalls s i lib) i = _
      rw [Function.update_self, hnone, hcalls, hmade]
      rfl
    show Authenticated m strict _ _ i
    rw [Authenticated, Sys.setPc_state, Sys.setPc_code, hlibrary]
    refine ⟨d, ⟨at_, hp.log _ hlog, hle⟩, a, g, calledAt, hp.source _ _ _ _ _ hsrc, ?_, rawIDToken, idToken, hnonce,
      rfl⟩
    intro hstrict
    have hgenuine := hok hstrict (.verified rawIDToken idToken) (by rw [hcalls, hmade]; simp)
    exact hs.auth.returned_of_genuine hsrc hnonce hstrict hgenuine

theorem RequestInv.start {name code state : String} (hs : RequestInv m strict s h)
    (hidle : (s.calls i).pc = .idle) :
    RequestInv m strict { s with calls := Function.update s.calls i ⟨name, code, state, .lookup⟩ } h := by
  have hp : Persists m s h { s with calls := Function.update s.calls i ⟨name, code, state, .lookup⟩ } h :=
    persists_of_auths rfl (fun _ => id) (fun _ => id) rfl rfl
  refine ⟨hs.auth.frame rfl rfl (fun _ _ _ _ _ => id) rfl rfl rfl, ?_, ?_⟩
  · intro st d hd
    obtain ⟨a, g, calledAt, hsrc⟩ := hs.entries st d hd
    exact ⟨a, g, calledAt, hp.source _ _ _ _ _ hsrc⟩
  · intro j
    by_cases hj : j = i
    · have hcall := hs.calls i
      rw [hidle] at hcall
      simp only [hj, Function.update_self]
      exact hcall
    · have hsame : Function.update s.calls i ⟨name, code, state, .lookup⟩ j = s.calls j :=
        Function.update_of_ne hj ..
      show CallOk _ _ _ _ j (Function.update s.calls i ⟨name, code, state, .lookup⟩ j).pc
      rw [hsame]
      exact (hs.calls j).mono hp (congrArg Call.state hsame) (congrArg Call.code hsame) rfl

theorem AuthInv.register (g : GoogleOIDCProvider) (hs : AuthInv m strict s h) :
    AuthInv m strict { s with providers := Function.update s.providers g.getName (some g.provider) }
      { h with registered := g :: h.registered } := by
  have hgrow : ∀ g' ∈ h.registered, g' ∈ g :: h.registered := fun _ => List.mem_cons_of_mem _
  refine ⟨?_, fun a => (hs.auths a).mono hgrow (fun _ => id) rfl, hs.issued, hs.unique⟩
  intro name p hp
  by_cases hname : name = g.getName
  · subst hname
    simp only [Function.update_self, Option.some.injEq] at hp
    exact ⟨g, List.mem_cons_self .., hp.symm, rfl⟩
  · simp only [Function.update_of_ne hname] at hp
    obtain ⟨g', hg', hp', hname'⟩ := hs.google name p hp
    exact ⟨g', hgrow g' hg', hp', hname'⟩

/- A call starts. -/
theorem AuthInv.asks (name : String) (hs : AuthInv m strict s h) (hidle : s.auths i = .idle) :
    AuthInv m strict (s.setAuth i (.lookup name)) (requests s (.manager (.startAuth i name)) h) ∧
      Persists m s h (s.setAuth i (.lookup name)) (requests s (.manager (.startAuth i name)) h) := by
  refine hs.moves rfl rfl (fun _ => id) (fun _ _ _ _ _ => id) rfl (fun _ => id)
    (fun a ha => Function.update_of_ne ha ..) (by rw [hidle]; nofun) (by rw [hidle]; nofun) ?_ hs.unique
  simp only [AuthOk, requests, Function.update_self]

theorem requestInv_step {a : GoogleAction} (hs : RequestInv m strict s h) (hok : strict → Assumed (s, h) a)
    (hstep : googleStep m s a = some t) : RequestInv m strict t (requests s a h) := by
  cases googleStep_step hstep with
  | registerProvider g =>
    exact hs.of_auth (hs.auth.register g)
      (persists_of_auths rfl (fun _ => id) (fun _ => List.mem_cons_of_mem _) rfl rfl) rfl rfl (fun _ _ => id)
  | manager b t hprov hreturn hsys =>
    cases hsys with
    | tick d =>
      exact hs.of_auth (hs.auth.frame rfl rfl (fun _ _ _ _ _ => id) rfl rfl rfl)
        (persists_of_auths rfl (fun _ => id) (fun _ => id) rfl rfl) rfl rfl (fun _ _ => id)
    | removeExpired =>
      exact hs.of_auth (hs.auth.frame rfl rfl (fun _ _ _ _ _ => id) rfl rfl rfl)
        (persists_of_auths rfl (fun _ => id) (fun _ => id) rfl rfl) rfl rfl (fun _ _ => s.storage.removeExpired_some)
    | registerProvider p => exact absurd rfl (hprov p)
    | startAuth i name hpc =>
      obtain ⟨hauth, hp⟩ := hs.auth.asks name hpc
      exact hs.of_auth hauth hp rfl rfl (fun _ _ => id)
    | auth i c t hauth => exact hs.auth_step hok hauth
    | startCallback i name code state hpc => exact hs.start hpc
    | callback i c t hcall => exact hs.call_step (fun r hc => hreturn i r (by rw [hc])) hcall
  | providerReturns i lib p d t hpc hcall => exact hs.provider_step hok hpc hcall

end Steps

theorem requestInv_newManager (m : Manager) (strict : Prop) (now : Time) :
    RequestInv m strict (newManager now) .empty := by
  refine ⟨⟨?_, fun _ => trivial, ?_, ?_⟩, ?_, fun _ => rfl⟩
  · intro name p hp
    cases hp
  · intro a name state nonce challenge hl
    cases hl
  · intro _ r hr
    cases hr
  · intro state d hd
    cases hd

theorem requestInv_run {m : Manager} {strict : Prop} {now : Time} {as : List GoogleAction} {s : Sys} {h : Requests}
    (hrun : exec (noted (googleStep m) requests) (newManager now, .empty) as = some (s, h))
    (hok : strict → Meets (noted (googleStep m) requests) Assumed (newManager now, .empty) as) :
    RequestInv m strict s h := by
  have hstep : ∀ p a q, RequestInv m strict p.1 p.2 → (strict → Assumed p a) →
      noted (googleStep m) requests p a = some q → RequestInv m strict q.1 q.2 := by
    intro p a q hp hok hq
    obtain ⟨hs, hk⟩ := noted_eq_some.mp hq
    rw [hk]
    exact requestInv_step hp hok hs
  exact exec_invariant_meets (I := fun p => RequestInv m strict p.1 p.2) hstep (requestInv_newManager m strict now)
    (meets_imp hok) hrun

/-- Authentication is bound to the request that started it. In every run, when
`HandleCallback` is about to invoke the callback handler, a `GetAuthURL` call for a
registered provider has stored the state with a nonce and a verifier; the lookup was
no later than the clock reading of that call plus the timeout; the code was exchanged
once, with that verifier; one ID token was verified, with that nonce; and the result
of the call, if only at its return statement, is a URL that carries that state, that
nonce and the challenge of that verifier. Under the assumptions on random strings and
tokens the call has returned it. -/
theorem handler_bound_to_request (m : Manager) (now : Time) (as : List GoogleAction) (s : Sys) (h : Requests)
    (hrun : exec (noted (googleStep m) requests) (newManager now, .empty) as = some (s, h))
    (i : Nat) (u : UserInfo) (tk : TokenSet) (hpc : (s.calls i).pc = .callHandler u tk) :
    ∃ a g nonce codeVerifier calledAt lookedUpAt rawIDToken idToken url,
      g ∈ h.registered ∧ h.auths a = ⟨some g.providerName, some calledAt⟩ ∧
      .lookedUp i (s.calls i).state ⟨nonce, codeVerifier, calledAt + m.stateTimeout⟩ lookedUpAt ∈ s.log ∧
      lookedUpAt ≤ calledAt + m.stateTimeout ∧
      h.library i = [.exchange (s.calls i).code [("code_verifier", codeVerifier)], .verified rawIDToken idToken] ∧
      idToken.nonce = nonce ∧
      url = g.getAuthURL (s.calls i).state nonce (m.generateCodeChallenge codeVerifier) ∧
      queryParam url "state" = (s.calls i).state ∧ queryParam url "nonce" = nonce ∧
      queryParam url "code_challenge" = m.generateCodeChallenge codeVerifier ∧
      queryParam url "code_challenge_method" = "S256" ∧
      (s.auths a = .authURL g.provider (s.calls i).state nonce (m.generateCodeChallenge codeVerifier) ∨
        s.auths a = .returned (.ok url)) ∧
      (Meets (noted (googleStep m) requests) Assumed (newManager now, .empty) as →
        s.auths a = .returned (.ok url)) := by
  have hinv : RequestInv m (Meets (noted (googleStep m) requests) Assumed (newManager now, .empty) as) s h :=
    requestInv_run hrun id
  have hcall := hinv.calls i
  rw [hpc] at hcall
  obtain ⟨⟨nonce, codeVerifier, expiresAt⟩, ⟨at_, hlog, hle⟩, a, g, calledAt, hsrc, hret, raw, tok, hnonce, hlib⟩ :=
    hcall
  have hexpires : expiresAt = calledAt + m.stateTimeout := hsrc.expires
  subst hexpires
  obtain ⟨hs, hn, hc, hmethod⟩ :=
    g.getAuthURL_carries (s.calls i).state nonce (m.generateCodeChallenge codeVerifier)
  exact ⟨a, g, nonce, codeVerifier, calledAt, at_, raw, tok, _, hsrc.registered, hsrc.called, hlog, hle, hlib, hnonce,
    rfl, hs, hn, hc, hmethod, hsrc.url, hret⟩

/-! ### One login -/

/-- The user takes the URL, comes back after a minute, and is let through to the
callback handler. -/
def login : List GoogleAction :=
  [.registerProvider accounts, .manager (.startAuth 0 "google"), .manager (.auth 0 .go),
   .manager (.auth 0 (.random (.drawn loginState loginNonce loginVerifier))),
   .manager (.auth 0 .go), .manager (.auth 0 .go), .manager (.auth 0 .go), .manager (.tick 60000000000),
   .manager (.startCallback 0 "google" "4/code" loginState), .manager (.callback 0 .go),
   .manager (.callback 0 .go), .manager (.callback 0 .go), .providerReturns 0 loginLibrary]

theorem handler_bound_to_request_login :
    ∃ s h u tk, exec (noted (googleStep loginManager) requests) (newManager 0, .empty) login = some (s, h) ∧
      Meets (noted (googleStep loginManager) requests) Assumed (newManager 0, .empty) login ∧
      (s.calls 0).pc = .callHandler u tk ∧
      ∃ a url, s.auths a = .returned (.ok url) ∧ queryParam url "state" = loginState := by
  have hok : Meets (noted (googleStep loginManager) requests) Assumed (newManager 0, .empty) login :=
    meets_of_checks (by decide +kernel)
  have hend : (exec (noted (googleStep loginManager) requests) (newManager 0, .empty) login).map (fun p =>
      (p.1.calls 0).pc.atHandler && decide ((p.1.calls 0).state = loginState)) = some true := by
    decide +kernel
  obtain ⟨⟨s, h⟩, hrun, hat⟩ := Option.map_eq_some_iff.mp hend
  simp only [Bool.and_eq_true, decide_eq_true_eq] at hat
  cases hpc : (s.calls 0).pc with
  | callHandler u tk =>
    obtain ⟨a, -, -, -, -, -, -, -, url, -, -, -, -, -, -, -, hstate, -, -, -, -, hret⟩ :=
      handler_bound_to_request loginManager 0 login s h hrun 0 u tk hpc
    rw [hat.2] at hstate
    exact ⟨s, h, u, tk, hrun, hok, hpc, a, url, hret hok, hstate⟩
  | _ =>
    rw [hpc] at hat
    cases hat.1

end Ghost.OAuth2
