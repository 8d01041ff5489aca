import Mathlib.Data.List.Nodup
import Ghost.OAuth2.Google
import Ghost.OAuth2.Utils

/-!
# A code is bound to its request (oauth2/manager.go, oauth2/utils.go, oauth2/oidc_google.go)

PKCE. `GetAuthURL` puts the digest of a verifier into the URL and keeps the
verifier; `HandleCallback` sends the verifier along with the code. An
authorization server that compares the two gives no token for a code that was
granted on another URL, whoever sends the callback and whatever state it carries.
-/

namespace Ghost.OAuth2.CodeBinding
open Go Transition

/-- A code the authorization server has given out, with the challenge of the
request it was given for. -/
structure Grant where
  code : String
  codeChallenge : String
  deriving DecidableEq

/-- What a `GetAuthURL` call has drawn. -/
structure Draw where
  auth : Nat
  state : String
  codeVerifier : String
  deriving DecidableEq

structure Net where
  sys : Sys
  draws : List Draw
  grants : List Grant

/-- Beside the manager's own steps: `GetAuthURL` call `i` reads random bytes, and
the server grants a code to anyone, for any challenge. -/
inductive Action where
  | manager (a : GoogleAction)
  | read (i : Nat) (state nonce codeVerifier : Read 32)
  | authorize (g : Grant)

def record (i : Nat) : Random → List Draw → List Draw
  | .drawn state _ codeVerifier, ds => ⟨i, state, codeVerifier⟩ :: ds
  | _, ds => ds

def step (m : Manager) (s : Net) : Action → Option Net
  | .manager (.manager (.auth _ (.random _))) => none
  | .manager a => (googleStep m s.sys a).map fun t => { s with sys := t }
  | .read i state nonce codeVerifier =>
    let r := Random.ofReads state nonce codeVerifier
    (googleStep m s.sys (.manager (.auth i (.random r)))).map fun t => ⟨t, record i r s.draws, s.grants⟩
  -- a server does not give out a code twice
  | .authorize g => if s.grants.any (·.code == g.code) then none else some { s with grants := g :: s.grants }

def start (now : Time) : Net := ⟨newManager now, [], []⟩

/-- A manager with the challenge function of the source. -/
def s256 (sum256 : List UInt8 → Vector UInt8 32) (stateTimeout : Int) : Manager :=
  ⟨stateTimeout, generateCodeChallenge sum256⟩

/-! ### The assumptions on digests and on the token endpoint -/

/-- The token endpoint's part in `HandleCallback` at `pc`: a token is given only for
a code granted on the challenge of the verifier. -/
def Redeems (sum256 : List UInt8 → Vector UInt8 32) (grants : List Grant) (code : String) (lib : Library) :
    CallPc → Prop
  | .inProvider _ d => (lib.exchange code [("code_verifier", d.codeVerifier)]).toBool = true →
      ⟨code, generateCodeChallenge sum256 d.codeVerifier⟩ ∈ grants
  | _ => True

instance (sum256 : List UInt8 → Vector UInt8 32) (grants : List Grant) (code : String) (lib : Library) :
    (pc : CallPc) → Decidable (Redeems sum256 grants code lib pc)
  | .inProvider _ d => inferInstanceAs (Decidable
      ((lib.exchange code [("code_verifier", d.codeVerifier)]).toBool = true →
        (⟨code, generateCodeChallenge sum256 d.codeVerifier⟩ : Grant) ∈ grants))
  | .idle | .lookup | .getStateData _ | .callProvider _ _ | .callHandler _ _ | .inHandler | .deleteState _
  | .returned _ => .isTrue trivial

/-- No two verifiers that are drawn have one digest, and the token endpoint checks
the challenge. -/
def Trusted (sum256 : List UInt8 → Vector UInt8 32) (s : Net) : Action → Prop
  | .read i state nonce codeVerifier =>
    ∀ d ∈ record i (Random.ofReads state nonce codeVerifier) [], ∀ d' ∈ s.draws,
      digest sum256 d'.codeVerifier ≠ digest sum256 d.codeVerifier
  | .manager (.providerReturns i lib) => Redeems sum256 s.grants (s.sys.calls i).code lib (s.sys.calls i).pc
  | .manager (.registerProvider _) | .manager (.manager _) | .authorize _ => True

instance (sum256 : List UInt8 → Vector UInt8 32) (s : Net) : (a : Action) → Decidable (Trusted sum256 s a)
  | .read i state nonce codeVerifier => inferInstanceAs (Decidable
      (∀ d ∈ record i (Random.ofReads state nonce codeVerifier) [], ∀ d' ∈ s.draws,
        digest sum256 d'.codeVerifier ≠ digest sum256 d.codeVerifier))
  | .manager (.providerReturns i lib) => inferInstanceAs (Decidable
      (Redeems sum256 s.grants (s.sys.calls i).code lib (s.sys.calls i).pc))
  | .manager (.registerProvider _) | .manager (.manager _) | .authorize _ => .isTrue trivial

/-! ### What a step of the net can do -/

inductive Step (m : Manager) (s : Net) : Action → Net → Prop where
  | manager (a : GoogleAction) (t : Sys) (ha : ∀ i r, a ≠ .manager (.auth i (.random r)))
      (h : GoogleStep m s.sys a t) : Step m s (.manager a) { s with sys := t }
  | read (i : Nat) (state nonce codeVerifier : Read 32) (t : Sys)
      (h : AuthStep m s.sys i (.random (.ofReads state nonce codeVerifier)) t) :
      Step m s (.read i state nonce codeVerifier)
        ⟨t, record i (.ofReads state nonce codeVerifier) s.draws, s.grants⟩
  | authorize (g : Grant) (hnew : ∀ g' ∈ s.grants, g'.code ≠ g.code) :
      Step m s (.authorize g) { s with grants := g :: s.grants }

theorem step_step {m : Manager} {s t : Net} {a : Action} (h : step m s a = some t) : Step m s a t := by
  unfold step at h
  split at h
  case h_1 => cases h
  case h_2 b hb =>
    obtain ⟨u, hu, rfl⟩ := Option.map_eq_some_iff.mp h
    exact .manager b u (fun i r hr => hb i r (by rw [hr])) (googleStep_step hu)
  case h_3 i state nonce codeVerifier =>
    obtain ⟨u, hu, rfl⟩ := Option.map_eq_some_iff.mp h
    exact .read i state nonce codeVerifier u (authStep_step hu)
  case h_4 g =>
    split at h
    · cases h
    · rename_i hnew
      cases h
      simp only [List.any_eq_true, beq_iff_eq, not_exists, not_and] at hnew
      exact .authorize g hnew

/-! ### The invariant -/

section Invariant

variable {sum256 : List UInt8 → Vector UInt8 32} {stateTimeout : Int} {s t : Net}

def AuthDrawn (sum256 : List UInt8 → Vector UInt8 32) (draws : List Draw) (a : Nat) : AuthPc → Prop
  | .now _ state _ codeVerifier | .saveState _ state _ codeVerifier _ => ⟨a, state, codeVerifier⟩ ∈ draws
  | .authURL _ state _ codeChallenge =>
    ∃ v, ⟨a, state, v⟩ ∈ draws ∧ codeChallenge = generateCodeChallenge sum256 v
  | .idle | .lookup _ | .generate _ | .returned _ => True

/-- The code was granted on the challenge of the verifier drawn with the state. -/
def Redeemed (sum256 : List UInt8 → Vector UInt8 32) (draws : List Draw) (grants : List Grant)
    (code state : String) : Prop :=
  ∃ a v, ⟨a, state, v⟩ ∈ draws ∧ ⟨code, generateCodeChallenge sum256 v⟩ ∈ grants

def CallDrawn (sum256 : List UInt8 → Vector UInt8 32) (draws : List Draw) (grants : List Grant) (c : Call) : Prop :=
  match c.pc with
  | .callProvider _ d | .inProvider _ d => ∃ a, ⟨a, c.state, d.codeVerifier⟩ ∈ draws
  | .callHandler _ _ => Redeemed sum256 draws grants c.code c.state
  | .idle | .lookup | .getStateData _ | .inHandler | .deleteState _ | .returned _ => True

structure Inv (sum256 : List UInt8 → Vector UInt8 32) (s : Net) : Prop where
  auths : ∀ a, AuthDrawn sum256 s.draws a (s.sys.auths a)
  entries : ∀ state d, s.sys.storage.data state = some d → ∃ a, ⟨a, state, d.codeVerifier⟩ ∈ s.draws
  calls : ∀ i, CallDrawn sum256 s.draws s.grants (s.sys.calls i)
  issued : ∀ a name state nonce challenge, .issued a name state nonce challenge ∈ s.sys.log →
    ∃ v, ⟨a, state, v⟩ ∈ s.draws ∧ challenge = generateCodeChallenge sum256 v
  distinct : (s.draws.map fun d => digest sum256 d.codeVerifier).Nodup
  valid : ∀ d ∈ s.draws, ValidVerifier d.codeVerifier
  codes : (s.grants.map Grant.code).Nodup

theorem inv_start (now : Time) : Inv sum256 (start now) := by
  refine ⟨fun _ => trivial, ?_, fun _ => trivial, ?_, List.nodup_nil, ?_, List.nodup_nil⟩
  · intro state d hd
    cases hd
  · intro a name state nonce challenge hlog
    cases hlog
  · intro d hd
    cases hd

theorem AuthDrawn.mono {draws draws' : List Draw} {a : Nat} {pc : AuthPc} (h : AuthDrawn sum256 draws a pc)
    (hsub : ∀ d ∈ draws, d ∈ draws') : AuthDrawn sum256 draws' a pc := by
  cases pc with
  | idle | lookup _ | generate _ | returned _ => trivial
  | now p state nonce v => exact hsub _ h
  | saveState p state nonce v expiresAt => exact hsub _ h
  | authURL p state nonce challenge =>
    obtain ⟨v, hv, hchallenge⟩ := h
    exact ⟨v, hsub _ hv, hchallenge⟩

theorem CallDrawn.mono {draws draws' : List Draw} {grants grants' : List Grant} {c : Call}
    (h : CallDrawn sum256 draws grants c) (hdraws : ∀ d ∈ draws, d ∈ draws')
    (hgrants : ∀ g ∈ grants, g ∈ grants') : CallDrawn sum256 draws' grants' c := by
  unfold CallDrawn at h ⊢
  split at h
  case h_1 | h_2 =>
    obtain ⟨a, ha⟩ := h
    exact ⟨a, hdraws _ ha⟩
  case h_3 =>
    obtain ⟨a, v, hv, hg⟩ := h
    exact ⟨a, v, hdraws _ hv, hgrants _ hg⟩
  case h_4 | h_5 | h_6 | h_7 | h_8 | h_9 => trivial

/-- A step that draws nothing and grants nothing: the parts of the manager it
changes have to be accounted for. -/
theorem Inv.moved {u : Sys} (hs : Inv sum256 s)
    (hauths : ∀ a, u.auths a = s.sys.auths a ∨ AuthDrawn sum256 s.draws a (u.auths a))
    (hentries : ∀ state d, u.storage.data state = some d →
      s.sys.storage.data state = some d ∨ ∃ a, ⟨a, state, d.codeVerifier⟩ ∈ s.draws)
    (hcalls : ∀ i, u.calls i = s.sys.calls i ∨ CallDrawn sum256 s.draws s.grants (u.calls i))
    (hlog : ∀ a name state nonce challenge, .issued a name state nonce challenge ∈ u.log →
      .issued a name state nonce challenge ∈ s.sys.log ∨
        ∃ v, ⟨a, state, v⟩ ∈ s.draws ∧ challenge = generateCodeChallenge sum256 v) :
    Inv sum256 { s with sys := u } := by
  refine ⟨?_, ?_, ?_, ?_, hs.distinct, hs.valid, hs.codes⟩
  · intro a
    rcases hauths a with h | h
    · show AuthDrawn sum256 s.draws a (u.auths a)
      rw [h]
      exact hs.auths a
    · exact h
  · intro state d hd
    rcases hentries state d hd with h | h
    · exact hs.entries state d h
    · exact h
  · intro i
    rcases hcalls i with h | h
    · show CallDrawn sum256 s.draws s.grants (u.calls i)
      rw [h]
      exact hs.calls i
    · exact h
  · intro a name state nonce challenge hmem
    rcases hlog a name state nonce challenge hmem with h | h
    · exact hs.issued _ _ _ _ _ h
    · exact h

theorem auths_moved {u : Sys} {i : Nat} {pc : AuthPc} {draws : List Draw}
    (hauths : u.auths = Function.update s.sys.auths i pc) (hpc : AuthDrawn sum256 draws i pc) (a : Nat) :
    u.auths a = s.sys.auths a ∨ AuthDrawn sum256 draws a (u.auths a) := by
  rw [hauths]
  by_cases ha : a = i
  · subst ha
    rw [Function.update_self]
    exact .inr hpc
  · exact .inl (Function.update_of_ne ha ..)

theorem calls_moved {u : Sys} {i : Nat} {c : Call} {draws : List Draw} {grants : List Grant}
    (hcalls : u.calls = Function.update s.sys.calls i c) (hc : CallDrawn sum256 draws grants c) (j : Nat) :
    u.calls j = s.sys.calls j ∨ CallDrawn sum256 draws grants (u.calls j) := by
  rw [hcalls]
  by_cases hj : j = i
  · subst hj
    rw [Function.update_self]
    exact .inr hc
  · exact .inl (Function.update_of_ne hj ..)

/-! ### What each step keeps -/

theorem Inv.auth_step {i : Nat} {c : Choice} {u : Sys} (hs : Inv sum256 s) (hc : ∀ r, c ≠ .random r)
    (h : AuthStep (s256 sum256 stateTimeout) s.sys i c u) : Inv sum256 { s with sys := u } := by
  have hpc := hs.auths i
  cases h with
  | notFound name hat | found name p hat hp =>
    exact hs.moved (auths_moved rfl trivial) (fun _ _ => .inl) (fun _ => .inl rfl) (fun _ _ _ _ _ => .inl)
  | failed p r e hat hr => exact absurd rfl (hc r)
  | drawn p state nonce codeVerifier hat => exact absurd rfl (hc _)
  | now p state nonce codeVerifier hat =>
    rw [hat] at hpc
    exact hs.moved (auths_moved rfl hpc) (fun _ _ => .inl) (fun _ => .inl rfl) (fun _ _ _ _ _ => .inl)
  | saved p state nonce codeVerifier expiresAt hat =>
    rw [hat] at hpc
    refine hs.moved (auths_moved rfl ⟨codeVerifier, hpc, rfl⟩) ?_ (fun _ => .inl rfl) ?_
    · intro st d hd
      by_cases hst : st = state
      · subst hst
        have hd' : ⟨nonce, codeVerifier, expiresAt⟩ = d := by
          simpa [Sys.setAuth, Sys.emit, Sys.setStorage, InMemoryStorage.saveState] using hd
        cases hd'
        exact .inr ⟨i, hpc⟩
      · exact .inl ((s.sys.storage.saveState_other nonce codeVerifier expiresAt hst).symm.trans hd)
    · intro a name st n challenge hmem
      exact .inl (by simpa using hmem)
  | issued p state nonce codeChallenge hat =>
    rw [hat] at hpc
    refine hs.moved (auths_moved rfl trivial) (fun _ _ => .inl) (fun _ => .inl rfl) ?_
    intro a name st n challenge hmem
    rcases List.mem_cons.mp hmem with heq | hold
    · cases heq
      exact .inr hpc
    · exact .inl hold

theorem exchange_of_handleCallback_ok {providerName code state nonce codeVerifier : String} {lib : Library}
    {now : Time} {u : UserInfo × TokenSet}
    (h : (handleCallback providerName lib now code state nonce codeVerifier).2 = .ok u) :
    (lib.exchange code [("code_verifier", codeVerifier)]).toBool = true := by
  cases hexchange : lib.exchange code [("code_verifier", codeVerifier)] with
  | error e =>
    unfold handleCallback at h
    dsimp only at h
    rw [hexchange] at h
    cases h
  | ok token => rfl

theorem Inv.call_step {i : Nat} {c : Choice} {u : Sys} (hs : Inv sum256 s) (h : CallStep s.sys i c u)
    (hprovider : ∀ r p d, c = .provider (.ok r) → (s.sys.calls i).pc = .inProvider p d →
      ⟨(s.sys.calls i).code, generateCodeChallenge sum256 d.codeVerifier⟩ ∈ s.grants) :
    Inv sum256 { s with sys := u } := by
  have hat := hs.calls i
  cases h with
  | notFound hpc | found p hpc hp | providerFailed p d e hpc | handled r ret hpc =>
    exact hs.moved (fun _ => .inl rfl) (fun _ _ => .inl) (calls_moved rfl trivial) (fun _ _ _ _ _ => .inl)
  | lookedUp p d hpc hd he =>
    refine hs.moved (fun _ => .inl rfl) (fun _ _ => .inl) (calls_moved rfl (hs.entries _ d hd)) ?_
    intro a name st n challenge hmem
    exact .inl (by simpa using hmem)
  | refused p e st hpc hg hst =>
    refine hs.moved (fun _ => .inl rfl) ?_ (calls_moved rfl trivial) (fun _ _ _ _ _ => .inl)
    rcases hst with rfl | rfl
    · exact fun _ _ => .inl
    · exact fun _ _ hd => .inl (s.sys.storage.deleteState_some hd)
  | callProvider p d hpc =>
    rw [CallDrawn, hpc] at hat
    refine hs.moved (fun _ => .inl rfl) (fun _ _ => .inl) (calls_moved rfl hat) ?_
    intro a name st n challenge hmem
    exact .inl (by simpa using hmem)
  | providerDone p d info tk hpc =>
    rw [CallDrawn, hpc] at hat
    obtain ⟨a, ha⟩ := hat
    exact hs.moved (fun _ => .inl rfl) (fun _ _ => .inl)
      (calls_moved rfl ⟨a, d.codeVerifier, ha, hprovider _ p d rfl hpc⟩) (fun _ _ _ _ _ => .inl)
  | callHandler info tk hpc =>
    refine hs.moved (fun _ => .inl rfl) (fun _ _ => .inl) (calls_moved rfl trivial) ?_
    intro a name st n challenge hmem
    exact .inl (by simpa using hmem)
  | deleted r hpc =>
    exact hs.moved (fun _ => .inl rfl) (fun _ _ hd => .inl (s.sys.storage.deleteState_some hd))
      (calls_moved rfl trivial) (fun _ _ _ _ _ => .inl)

theorem Inv.google_step {a : GoogleAction} {u : Sys} (hs : Inv sum256 s)
    (ha : ∀ i r, a ≠ .manager (.auth i (.random r))) (hok : Trusted sum256 s (.manager a))
    (h : GoogleStep (s256 sum256 stateTimeout) s.sys a u) : Inv sum256 { s with sys := u } := by
  cases h with
  | registerProvider g =>
    exact hs.moved (fun _ => .inl rfl) (fun _ _ => .inl) (fun _ => .inl rfl) (fun _ _ _ _ _ => .inl)
  | providerReturns i lib p d t hpc hcall =>
    refine hs.call_step hcall ?_
    intro r p' d' hr hpc'
    have hok' : Redeems sum256 s.grants (s.sys.calls i).code lib (s.sys.calls i).pc := hok
    rw [hpc] at hok'
    cases hpc'.symm.trans hpc
    exact hok' (exchange_of_handleCallback_ok (Choice.provider.inj hr))
  | manager b t hprov hreturn hsys =>
    cases hsys with
    | tick d =>
      exact hs.moved (fun _ => .inl rfl) (fun _ _ => .inl) (fun _ => .inl rfl) (fun _ _ _ _ _ => .inl)
    | removeExpired =>
      exact hs.moved (fun _ => .inl rfl) (fun _ _ hd => .inl (s.sys.storage.removeExpired_some hd))
        (fun _ => .inl rfl) (fun _ _ _ _ _ => .inl)
    | registerProvider p => exact absurd rfl (hprov p)
    | startAuth i name hpc =>
      exact hs.moved (auths_moved rfl trivial) (fun _ _ => .inl) (fun _ => .inl rfl) (fun _ _ _ _ _ => .inl)
    | auth i c t hauth => exact hs.auth_step (fun r hr => ha i r (by rw [hr])) hauth
    | startCallback i name code state hpc =>
      exact hs.moved (fun _ => .inl rfl) (fun _ _ => .inl) (calls_moved rfl trivial) (fun _ _ _ _ _ => .inl)
    | callback i c t hcall =>
      exact hs.call_step hcall (fun r p d hc _ => absurd (by rw [hc]) (hreturn i (.ok r)))

theorem Inv.read_step {i : Nat} {state nonce codeVerifier : Read 32} {u : Sys} (hs : Inv sum256 s)
    (hok : Trusted sum256 s (.read i state nonce codeVerifier))
    (h : AuthStep (s256 sum256 stateTimeout) s.sys i (.random (.ofReads state nonce codeVerifier)) u) :
    Inv sum256 ⟨u, record i (.ofReads state nonce codeVerifier) s.draws, s.grants⟩ := by
  generalize hr : Random.ofReads state nonce codeVerifier = r at h
  cases h with
  | failed p r e hpc hfail =>
    have hnone : record i r s.draws = s.draws := by
      cases r with
      | drawn st n v => exact absurd rfl (hfail st n v)
      | stateError e | nonceError e | verifierError e => rfl
    rw [hnone]
    exact hs.moved (auths_moved rfl trivial) (fun _ _ => .inl) (fun _ => .inl rfl) (fun _ _ _ _ _ => .inl)
  | drawn p st n v hpc =>
    have hvalid : ValidVerifier v := Random.ofReads_drawn hr
    have hnew : ∀ d' ∈ s.draws, digest sum256 d'.codeVerifier ≠ digest sum256 v := by
      have hok' := hok ⟨i, st, v⟩
      rw [hr] at hok'
      exact hok' (List.mem_singleton.mpr rfl)
    have hgrow : ∀ d ∈ s.draws, d ∈ (⟨i, st, v⟩ : Draw) :: s.draws := fun _ => List.mem_cons_of_mem _
    refine ⟨?_, ?_, ?_, ?_, ?_, ?_, hs.codes⟩
    · intro a
      have hpc : AuthDrawn sum256 ((⟨i, st, v⟩ : Draw) :: s.draws) i (.now p st n v) := List.mem_cons_self
      rcases auths_moved (u := s.sys.setAuth i (.now p st n v)) rfl hpc a with h | h
      · show AuthDrawn sum256 (⟨i, st, v⟩ :: s.draws) a ((s.sys.setAuth i (.now p st n v)).auths a)
        rw [h]
        exact (hs.auths a).mono hgrow
      · exact h
    · intro st' d hd
      obtain ⟨a, ha⟩ := hs.entries st' d hd
      exact ⟨a, hgrow _ ha⟩
    · exact fun j => (hs.calls j).mono hgrow (fun _ => id)
    · intro a name st' n' challenge hmem
      obtain ⟨w, hw, hchallenge⟩ := hs.issued a name st' n' challenge hmem
      exact ⟨w, hgrow _ hw, hchallenge⟩
    · refine List.nodup_cons.mpr ⟨?_, hs.distinct⟩
      intro hmem
      obtain ⟨d', hd', heq⟩ := List.mem_map.mp hmem
      exact hnew d' hd' heq
    · intro d hd
      rcases List.mem_cons.mp hd with rfl | hd
      · exact hvalid
      · exact hs.valid d hd

theorem inv_step {a : Action} (hs : Inv sum256 s) (hok : Trusted sum256 s a)
    (h : step (s256 sum256 stateTimeout) s a = some t) : Inv sum256 t := by
  cases step_step h with
  | manager b u hb hgoogle => exact hs.google_step hb hok hgoogle
  | read i state nonce codeVerifier u hauth => exact hs.read_step hok hauth
  | authorize g hnew =>
    have hgrow : ∀ g' ∈ s.grants, g' ∈ g :: s.grants := fun _ => List.mem_cons_of_mem _
    refine ⟨hs.auths, hs.entries, fun i => (hs.calls i).mono (fun _ => id) hgrow, hs.issued, hs.distinct,
      hs.valid, ?_⟩
    refine List.nodup_cons.mpr ⟨?_, hs.codes⟩
    intro hmem
    obtain ⟨g', hg', heq⟩ := List.mem_map.mp hmem
    exact hnew g' hg' heq

end Invariant

/-- A code is bound to its request. In every run in which verifiers have distinct
digests and the token endpoint checks the challenge: when `HandleCallback` is about
to invoke the callback handler, its code was granted once, on the challenge of a valid
verifier that one `GetAuthURL` call drew together with the state of the callback,
and every URL with that challenge is that call's and carries that state. -/
theorem code_bound_to_request (sum256 : List UInt8 → Vector UInt8 32) (stateTimeout : Int) (now : Time)
    (as : List Action) (s : Net)
    (hrun : exec (step (s256 sum256 stateTimeout)) (start now) as = some s)
    (hok : Meets (step (s256 sum256 stateTimeout)) (Trusted sum256) (start now) as)
    (i : Nat) (u : UserInfo) (tk : TokenSet) (hpc : (s.sys.calls i).pc = .callHandler u tk) :
    ∃ g a verifier, g ∈ s.grants ∧ g.code = (s.sys.calls i).code ∧
      (∀ g' ∈ s.grants, g'.code = (s.sys.calls i).code → g' = g) ∧
      ⟨a, (s.sys.calls i).state, verifier⟩ ∈ s.draws ∧ ValidVerifier verifier ∧
      g.codeChallenge = generateCodeChallenge sum256 verifier ∧
      ∀ b name state nonce, .issued b name state nonce g.codeChallenge ∈ s.sys.log →
        b = a ∧ state = (s.sys.calls i).state := by
  have hinv : Inv sum256 s :=
    exec_invariant_meets (fun s a t hs hok h => inv_step hs hok h) (inv_start now) hok hrun
  have hcall := hinv.calls i
  rw [CallDrawn, hpc] at hcall
  obtain ⟨a, v, hdrawn, hgrant⟩ := hcall
  refine ⟨⟨_, _⟩, a, v, hgrant, rfl, ?_, hdrawn, hinv.valid _ hdrawn, rfl, ?_⟩
  · intro g hg hcode
    exact List.inj_on_of_nodup_map hinv.codes hg hgrant hcode
  · intro b name state nonce hissued
    obtain ⟨w, hw, heq⟩ := hinv.issued b name state nonce _ hissued
    have hdigest : digest sum256 w = digest sum256 v := digest_eq_of_challenge_eq heq.symm
    cases List.inj_on_of_nodup_map hinv.distinct hw hdrawn hdigest
    exact ⟨rfl, rfl⟩

/-! ### One login -/

def stateBytes : Vector UInt8 32 := #v[1, 35, 69, 103, 137, 171, 205, 239, 1, 35, 69, 103, 137, 171, 205, 239,
  1, 35, 69, 103, 137, 171, 205, 239, 1, 35, 69, 103, 137, 171, 205, 239]

def nonceBytes : Vector UInt8 32 := #v[254, 220, 186, 152, 118, 84, 50, 16, 254, 220, 186, 152, 118, 84, 50, 16,
  254, 220, 186, 152, 118, 84, 50, 16, 254, 220, 186, 152, 118, 84, 50, 16]

def verifierBytes : Vector UInt8 32 := #v[116, 24, 223, 180, 151, 153, 224, 37, 79, 250, 96, 125, 216, 173, 187, 186,
  22, 212, 37, 77, 105, 214, 191, 240, 91, 88, 5, 88, 83, 132, 141, 121]

-- the SHA-256 digest of the one verifier that is drawn
def loginDigest : Vector UInt8 32 := #v[19, 211, 30, 150, 26, 26, 216, 236, 47, 22, 177, 12, 76, 152, 46, 8,
  118, 168, 120, 173, 109, 241, 68, 86, 110, 225, 137, 74, 203, 112, 249, 195]

def loginSum256 (_ : List UInt8) : Vector UInt8 32 := loginDigest

def granted : Grant := ⟨"4/code", loginManager.generateCodeChallenge loginVerifier⟩

def asked : List GoogleAction :=
  [.manager (.auth 0 .go), .manager (.auth 0 .go), .manager (.auth 0 .go)]

def answered : List GoogleAction :=
  [.manager (.startCallback 0 "google" "4/code" loginState), .manager (.callback 0 .go), .manager (.callback 0 .go),
   .manager (.callback 0 .go), .providerReturns 0 loginLibrary]

def login : List Action :=
  .manager (.registerProvider accounts) :: .manager (.manager (.startAuth 0 "google")) ::
    .manager (.manager (.auth 0 .go)) :: .read 0 (.ok stateBytes) (.ok nonceBytes) (.ok verifierBytes) ::
    asked.map Action.manager ++ .authorize granted :: answered.map Action.manager

theorem code_bound_to_request_login :
    ∃ s u tk, exec (step (s256 loginSum256 600000000000)) (start 0) login = some s ∧
      (s.sys.calls 0).pc = .callHandler u tk ∧
      ∃ g a verifier, g ∈ s.grants ∧ ⟨a, loginState, verifier⟩ ∈ s.draws ∧ ValidVerifier verifier ∧
        g.codeChallenge = generateCodeChallenge loginSum256 verifier := by
  have hok : Meets (step (s256 loginSum256 600000000000)) (Trusted loginSum256) (start 0) login :=
    meets_of_checks (by decide +kernel)
  have hend : (exec (step (s256 loginSum256 600000000000)) (start 0) login).map (fun s =>
      (s.sys.calls 0).pc.atHandler && decide ((s.sys.calls 0).state = loginState)) = some true := by
    decide +kernel
  obtain ⟨s, hrun, hat⟩ := Option.map_eq_some_iff.mp hend
  simp only [Bool.and_eq_true, decide_eq_true_eq] at hat
  obtain ⟨hat, hstate⟩ := hat
  cases hpc : (s.sys.calls 0).pc with
  | callHandler u tk =>
    obtain ⟨g, a, v, hg, -, -, hdrawn, hvalid, hchallenge, -⟩ :=
      code_bound_to_request loginSum256 600000000000 0 login s hrun hok 0 u tk hpc
    rw [hstate] at hdrawn
    exact ⟨s, u, tk, hrun, hpc, g, a, v, hg, hdrawn, hvalid, hchallenge⟩
  | _ =>
    rw [hpc] at hat
    cases hat

end Ghost.OAuth2.CodeBinding
