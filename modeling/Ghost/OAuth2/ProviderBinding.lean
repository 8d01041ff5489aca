import Ghost.OAuth2.Steps
import Ghost.Transition.History

/-!
# Which provider a state belongs to (oauth2/manager.go, oauth2/state.go)

`StateData` holds the nonce, the verifier and the expiry of a state, but not the
provider that `GetAuthURL` made it for, and the lookup of `HandleCallback` goes
by the state alone. A state is bound to its provider only as far as the callers
of `HandleCallback` bind it.
-/

namespace Ghost.OAuth2
open Go Transition

/-- The provider of the `GetAuthURL` call that stored a state last; and for each
call that has looked its state up, that provider as it was then. -/
structure Binding where
  issuer : String → Option String
  lookups : List (Nat × Option String)

def bindings (s : Sys) (a : Action) (b : Binding) : Binding :=
  match a with
  | .auth i .go =>
    match s.auths i with
    | .saveState p state _ _ _ => { b with issuer := Function.update b.issuer state (some p.getName) }
    | _ => b
  | .callback i .go =>
    match (s.calls i).pc with
    | .getStateData _ => { b with lookups := (i, b.issuer (s.calls i).state) :: b.lookups }
    | _ => b
  | _ => b

def Binding.empty : Binding := ⟨fun _ => none, []⟩

/-- The call has returned `ErrInvalidState` and never entered a provider. -/
def Refused (s : Sys) (i : Nat) : Prop :=
  (∃ e, (s.calls i).pc = .returned (.error (errInvalidState.wrapf e))) ∧
    ∀ name code state nonce codeVerifier,
      .providerCalled i name code state nonce codeVerifier ∉ s.log

/-- A callback whose state was not issued for its own provider is refused. -/
def StateBound (p : Sys × Binding) : Prop :=
  ∀ l ∈ p.2.lookups, l.2 ≠ some (p.1.calls l.1).providerName → Refused p.1 l.1

-- the lookup is still to come
def CallPc.pending : CallPc → Bool
  | .lookup | .getStateData _ => true
  | _ => false

/- A callback that carries the state of a live entry names the provider the state
was issued for; and no state is stored that a callback for another provider carries
and has still to look up. -/
def OwnState (p : Sys × Binding) : Action → Prop
  | .startCallback _ name _ state =>
      ∀ d, p.1.storage.data state = some d → d.expired p.1.now = false → p.2.issuer state = some name
  | .auth i .go => ∀ q state nonce codeVerifier expiresAt,
      p.1.auths i = .saveState q state nonce codeVerifier expiresAt → p.1.now ≤ expiresAt →
      ∀ j, (p.1.calls j).state = state → (p.1.calls j).pc.pending = true →
        (p.1.calls j).providerName = q.getName
  | _ => True

/-! ### The invariant -/

-- `provider.HandleCallback` is still to be entered
def CallPc.unsent : CallPc → Bool
  | .idle | .lookup | .getStateData _ | .callProvider _ _ => true
  | _ => false

structure OwnInv (s : Sys) (b : Binding) : Prop where
  live : ∀ j, (s.calls j).pc.pending = true → ∀ d, s.storage.data (s.calls j).state = some d →
    d.expired s.now = false → b.issuer (s.calls j).state = some (s.calls j).providerName
  unsent : ∀ j, (s.calls j).pc.unsent = true → ∀ name code state nonce codeVerifier,
    .providerCalled j name code state nonce codeVerifier ∉ s.log
  looked : ∀ l ∈ b.lookups, (s.calls l.1).pc ≠ .idle
  bound : StateBound (s, b)

section Steps

variable {m : Manager} {s t : Sys} {b : Binding} {i : Nat} {pc : CallPc}

-- No entry is live in `t` that was not live in `s`.
def NoNewEntry (s t : Sys) : Prop :=
  ∀ state d, t.storage.data state = some d → d.expired t.now = false →
    s.storage.data state = some d ∧ d.expired s.now = false

theorem noNewEntry_of_eq (hstorage : t.storage = s.storage) (hnow : t.now = s.now) : NoNewEntry s t := by
  intro state d
  rw [hstorage, hnow]
  exact fun hd he => ⟨hd, he⟩

theorem noNewEntry_tick (s : Sys) (d : Nat) : NoNewEntry s { s with now := s.now + d } := by
  intro state e hd he
  refine ⟨hd, ?_⟩
  have hle : s.now + (d : Int) ≤ e.expiresAt := (e.not_expired_iff _).mp he
  exact (e.not_expired_iff _).mpr (Int.le_trans (Int.le_add_of_nonneg_right (Int.natCast_nonneg d)) hle)

theorem noNewEntry_removeExpired (s : Sys) :
    NoNewEntry s (s.setStorage (s.storage.removeExpired s.now)) := by
  intro state d hd he
  exact ⟨s.storage.removeExpired_some hd, he⟩

theorem noNewEntry_deleteState (s : Sys) (state : String) :
    NoNewEntry s (s.setStorage (s.storage.deleteState state)) := by
  intro other d hd he
  exact ⟨s.storage.deleteState_some hd, he⟩

/- Steps that leave the calls alone and store nothing. -/
theorem OwnInv.frame (hs : OwnInv s b) (hcalls : t.calls = s.calls)
    (hlog : ∀ j name code state nonce codeVerifier,
      .providerCalled j name code state nonce codeVerifier ∈ t.log →
        .providerCalled j name code state nonce codeVerifier ∈ s.log)
    (hlive : NoNewEntry s t) : OwnInv t b := by
  refine ⟨?_, ?_, ?_, ?_⟩
  · intro j
    rw [hcalls]
    intro hj d hd he
    obtain ⟨hd', he'⟩ := hlive _ d hd he
    exact hs.live j hj d hd' he'
  · intro j
    rw [hcalls]
    exact fun hj name code state nonce v h => hs.unsent j hj name code state nonce v (hlog _ _ _ _ _ _ h)
  · rw [hcalls]
    exact hs.looked
  · intro l hl
    show l.2 ≠ some (t.calls l.1).providerName → Refused t l.1
    rw [Refused, hcalls]
    intro hne
    obtain ⟨hret, hno⟩ := hs.bound l hl hne
    exact ⟨hret, fun name code state nonce v h => hno name code state nonce v (hlog _ _ _ _ _ _ h)⟩

theorem OwnInv.saved {q : Provider} {state nonce codeVerifier : String} {expiresAt : Time} {pc : AuthPc}
    (hs : OwnInv s b)
    (hok : s.now ≤ expiresAt → ∀ j, (s.calls j).state = state → (s.calls j).pc.pending = true →
      (s.calls j).providerName = q.getName) :
    OwnInv (((s.setStorage (s.storage.saveState state nonce codeVerifier expiresAt)).emit
        (.saved i state ⟨nonce, codeVerifier, expiresAt⟩)).setAuth i pc)
      { b with issuer := Function.update b.issuer state (some q.getName) } := by
  refine ⟨?_, ?_, hs.looked, ?_⟩
  · intro j hj d hd he
    show Function.update b.issuer state (some q.getName) (s.calls j).state = some (s.calls j).providerName
    by_cases hstate : (s.calls j).state = state
    · have hdata : d = ⟨nonce, codeVerifier, expiresAt⟩ := by
        have hself : Function.update s.storage.data state (some ⟨nonce, codeVerifier, expiresAt⟩)
            (s.calls j).state = some d := hd
        rw [hstate, Function.update_self] at hself
        exact (Option.some.inj hself).symm
      have hlive : s.now ≤ expiresAt := by
        have hle := (d.not_expired_iff s.now).mp he
        rw [hdata] at hle
        exact hle
      rw [hstate, Function.update_self, hok hlive j hstate hj]
    · rw [Function.update_of_ne hstate]
      refine hs.live j hj d ?_ he
      rw [← s.storage.saveState_other nonce codeVerifier expiresAt hstate]
      exact hd
  · intro j hj name code st o v h
    exact hs.unsent j hj name code st o v (by simpa using h)
  · intro l hl hne
    obtain ⟨hret, hno⟩ := hs.bound l hl hne
    exact ⟨hret, fun name code st o v h => hno name code st o v (by simpa using h)⟩

/- Call `i`, which has not returned, moves on; it looks nothing up. -/
theorem OwnInv.moved (hs : OwnInv s b) (hcalls : t.calls = (s.setPc i pc).calls)
    (hlog : ∀ j name code state nonce codeVerifier,
      .providerCalled j name code state nonce codeVerifier ∈ t.log →
        .providerCalled j name code state nonce codeVerifier ∈ s.log ∨ j = i ∧ pc.unsent = false)
    (hlive : NoNewEntry s t) (hreturned : ∀ r, (s.calls i).pc ≠ .returned r)
    (hpending : pc.pending = true → (s.calls i).pc.pending = true)
    (hunsent : pc.unsent = true → (s.calls i).pc.unsent = true) (hidle : pc ≠ .idle) : OwnInv t b := by
  have hself : t.calls i = { s.calls i with pc := pc } := by rw [hcalls, Sys.setPc_self]
  have hother : ∀ j, j ≠ i → t.calls j = s.calls j := by
    intro j hj
    rw [hcalls, Sys.setPc_other s pc hj]
  refine ⟨?_, ?_, ?_, ?_⟩
  · intro j hj d hd he
    obtain ⟨hd', he'⟩ := hlive _ d hd he
    by_cases hji : j = i
    · subst hji
      rw [hself] at hj hd' ⊢
      exact hs.live j (hpending hj) d hd' he'
    · rw [hother j hji] at hj hd' ⊢
      exact hs.live j hj d hd' he'
  · intro j hj name code state nonce v h
    by_cases hji : j = i
    · subst hji
      rw [hself] at hj
      rcases hlog _ _ _ _ _ _ h with h | ⟨-, hsent⟩
      · exact hs.unsent j (hunsent hj) name code state nonce v h
      · cases hj.symm.trans hsent
    · rw [hother j hji] at hj
      rcases hlog _ _ _ _ _ _ h with h | ⟨hj', -⟩
      · exact hs.unsent j hj name code state nonce v h
      · exact hji hj'
  · intro l hl
    by_cases hli : l.1 = i
    · rw [hli, hself]
      exact hidle
    · rw [hother _ hli]
      exact hs.looked l hl
  · intro l hl hne
    by_cases hli : l.1 = i
    · -- a refused call has returned, so it is not the one that moves
      have hname : (t.calls l.1).providerName = (s.calls l.1).providerName := by
        rw [hli, hself]
      obtain ⟨⟨e, hret⟩, -⟩ := hs.bound l hl (by rw [← hname]; exact hne)
      rw [hli] at hret
      exact absurd hret (hreturned _)
    · have hsame : t.calls l.1 = s.calls l.1 := hother _ hli
      obtain ⟨hret, hno⟩ := hs.bound l hl (by rw [← hsame]; exact hne)
      refine ⟨by rw [hsame]; exact hret, fun name code state nonce v h => ?_⟩
      rcases hlog _ _ _ _ _ _ h with h | ⟨hj, -⟩
      · exact hno name code state nonce v h
      · exact hli hj

/- A lookup is recorded for a call that is refused unless its state is its own. -/
theorem OwnInv.looks {issuer : Option String} (hs : OwnInv s b) (hidle : (s.calls i).pc ≠ .idle)
    (hnew : issuer ≠ some (s.calls i).providerName → Refused s i) :
    OwnInv s { b with lookups := (i, issuer) :: b.lookups } := by
  refine ⟨hs.live, hs.unsent, ?_, ?_⟩
  · intro l hl
    rcases List.mem_cons.mp hl with rfl | hl
    · exact hidle
    · exact hs.looked l hl
  · intro l hl
    rcases List.mem_cons.mp hl with rfl | hl
    · exact hnew
    · exact hs.bound l hl

theorem OwnInv.call {c : Choice} (hs : OwnInv s b) (h : CallStep s i c t) :
    OwnInv t (bindings s (.callback i c) b) := by
  cases h with
  | notFound hpc =>
    simp only [bindings, hpc]
    exact hs.moved rfl (fun _ _ _ _ _ _ h => .inl h) (noNewEntry_of_eq rfl rfl)
      (fun _ h => by cases hpc.symm.trans h) (fun h => by cases h) (fun h => by cases h) nofun
  | found p hpc hp =>
    simp only [bindings, hpc]
    exact hs.moved rfl (fun _ _ _ _ _ _ h => .inl h) (noNewEntry_of_eq rfl rfl)
      (fun _ h => by cases hpc.symm.trans h) (fun _ => by rw [hpc]; rfl) (fun _ => by rw [hpc]; rfl) nofun
  | lookedUp p d hpc hd he =>
    have hmoved : OwnInv ((s.emit (.lookedUp i (s.calls i).state d s.now)).setPc i (.callProvider p d)) b :=
      hs.moved rfl (fun _ _ _ _ _ _ h => .inl (by simpa using h)) (noNewEntry_of_eq rfl rfl)
        (fun _ h => by cases hpc.symm.trans h) (fun h => by cases h) (fun _ => by rw [hpc]; rfl) nofun
    have hissuer := hs.live i (by rw [hpc]; rfl) d hd he
    simp only [bindings, hpc]
    refine hmoved.looks (by rw [Sys.setPc_self]; nofun) fun hne => ?_
    rw [Sys.setPc_self] at hne
    exact absurd hissuer hne
  | refused p e st hpc hg hst =>
    have hentries : NoNewEntry s (s.setStorage st) := by
      rcases hst with rfl | rfl
      · exact noNewEntry_of_eq rfl rfl
      · exact noNewEntry_deleteState s _
    have hmoved : OwnInv ((s.setStorage st).setPc i (.returned (.error (errInvalidState.wrapf e)))) b :=
      hs.moved rfl (fun _ _ _ _ _ _ h => .inl h) hentries (fun _ h => by cases hpc.symm.trans h)
        (fun h => by cases h) (fun h => by cases h) nofun
    simp only [bindings, hpc]
    refine hmoved.looks (by rw [Sys.setPc_self]; nofun) fun _ => ?_
    exact ⟨⟨e, by rw [Sys.setPc_self]⟩, hs.unsent i (by rw [hpc]; rfl)⟩
  | callProvider p d hpc =>
    simp only [bindings, hpc]
    refine hs.moved rfl (fun j name code state nonce v h => ?_) (noNewEntry_of_eq rfl rfl)
      (fun _ h => by cases hpc.symm.trans h) (fun h => by cases h) (fun h => by cases h) nofun
    rcases List.mem_cons.mp h with h | h
    · cases h
      exact .inr ⟨rfl, rfl⟩
    · exact .inl h
  | providerFailed p d e hpc | providerDone p d u tk hpc | handled r ret hpc =>
    exact hs.moved rfl (fun _ _ _ _ _ _ h => .inl h) (noNewEntry_of_eq rfl rfl)
      (fun _ h => by cases hpc.symm.trans h) (fun h => by cases h) (fun h => by cases h) nofun
  | callHandler u tk hpc =>
    simp only [bindings, hpc]
    exact hs.moved rfl (fun _ _ _ _ _ _ h => .inl (by simpa using h)) (noNewEntry_of_eq rfl rfl)
      (fun _ h => by cases hpc.symm.trans h) (fun h => by cases h) (fun h => by cases h) nofun
  | deleted r hpc =>
    simp only [bindings, hpc]
    exact hs.moved rfl (fun _ _ _ _ _ _ h => .inl h) (noNewEntry_deleteState s _)
      (fun _ h => by cases hpc.symm.trans h) (fun h => by cases h) (fun h => by cases h) nofun

theorem OwnInv.auth {c : Choice} (hs : OwnInv s b) (hok : OwnState (s, b) (.auth i c))
    (h : AuthStep m s i c t) : OwnInv t (bindings s (.auth i c) b) := by
  cases h with
  | saved q state nonce codeVerifier expiresAt hpc =>
    simp only [bindings, hpc]
    exact hs.saved (hok q state nonce codeVerifier expiresAt hpc)
  | notFound name hpc | found name p hpc hp | now p state nonce codeVerifier hpc =>
    simp only [bindings, hpc]
    exact hs.frame rfl (fun _ _ _ _ _ _ h => h) (noNewEntry_of_eq rfl rfl)
  | failed p r e hpc hr | drawn p state nonce codeVerifier hpc =>
    exact hs.frame rfl (fun _ _ _ _ _ _ h => h) (noNewEntry_of_eq rfl rfl)
  | issued p state nonce codeChallenge hpc =>
    simp only [bindings, hpc]
    exact hs.frame rfl (fun _ _ _ _ _ _ h => by simpa using h) (noNewEntry_of_eq rfl rfl)

theorem OwnInv.start {name code state : String} (hs : OwnInv s b) (hidle : (s.calls i).pc = .idle)
    (hok : OwnState (s, b) (.startCallback i name code state)) :
    OwnInv { s with calls := Function.update s.calls i ⟨name, code, state, .lookup⟩ } b := by
  refine ⟨?_, ?_, ?_, ?_⟩
  · intro j hj d hd he
    by_cases hji : j = i
    · subst hji
      simp only [Function.update_self] at hd ⊢
      exact hok d hd he
    · simp only [Function.update_of_ne hji] at hj hd ⊢
      exact hs.live j hj d hd he
  · intro j hj
    by_cases hji : j = i
    · subst hji
      exact hs.unsent j (by rw [hidle]; rfl)
    · simp only [Function.update_of_ne hji] at hj
      exact hs.unsent j hj
  · intro l hl
    have hli : l.1 ≠ i := fun hli => hs.looked l hl (by rw [hli]; exact hidle)
    simp only [Function.update_of_ne hli]
    exact hs.looked l hl
  · intro l hl
    have hli : l.1 ≠ i := fun hli => hs.looked l hl (by rw [hli]; exact hidle)
    simp only [Refused, Function.update_of_ne hli]
    exact hs.bound l hl

theorem ownInv_step {a : Action} (hs : OwnInv s b) (hok : OwnState (s, b) a) (h : step m s a = some t) :
    OwnInv t (bindings s a b) := by
  cases step_sysStep h with
  | tick d => exact hs.frame rfl (fun _ _ _ _ _ _ h => h) (noNewEntry_tick s d)
  | removeExpired => exact hs.frame rfl (fun _ _ _ _ _ _ h => h) (noNewEntry_removeExpired s)
  | registerProvider p => exact hs.frame rfl (fun _ _ _ _ _ _ h => h) (noNewEntry_of_eq rfl rfl)
  | startAuth i name hpc => exact hs.frame rfl (fun _ _ _ _ _ _ h => h) (noNewEntry_of_eq rfl rfl)
  | auth i c t hauth => exact hs.auth hok hauth
  | startCallback i name code state hpc => exact hs.start hpc hok
  | callback i c t hcall => exact hs.call hcall

end Steps

theorem ownInv_newManager (now : Time) : OwnInv (newManager now) .empty := by
  refine ⟨?_, ?_, ?_, ?_⟩
  · intro j hj
    cases hj
  · intro j _ _ _ _ _ _ h
    cases h
  · intro l hl
    cases hl
  · intro l hl
    cases hl

/-! ### Exactness -/

section Exactness

variable {m : Manager} {s : Sys} {b : Binding} {i : Nat} {d : StateData}

theorem lookup_accepts {p : Provider} (hpc : (s.calls i).pc = .getStateData p)
    (hd : s.storage.data (s.calls i).state = some d) (he : d.expired s.now = false)
    (hother : b.issuer (s.calls i).state ≠ some (s.calls i).providerName) :
    ∃ u, noted (step m) bindings (s, b) (.callback i .go) = some u ∧ ¬ StateBound u := by
  obtain ⟨t, ht⟩ : ∃ t, t = (s.emit (.lookedUp i (s.calls i).state d s.now)).setPc i (.callProvider p d) :=
    ⟨_, rfl⟩
  have h : step m s (.callback i .go) = some t := by
    simp [ht, step, callbackStep, hpc, InMemoryStorage.getStateData, hd, he, Sys.setStorage]
  have hb : bindings s (.callback i .go) b =
      { b with lookups := (i, b.issuer (s.calls i).state) :: b.lookups } := by
    simp only [bindings, hpc]
  have hself : t.calls i = { s.calls i with pc := .callProvider p d } := by
    rw [ht, Sys.setPc_self]
    rfl
  refine ⟨(t, { b with lookups := (i, b.issuer (s.calls i).state) :: b.lookups }),
    noted_eq_some.mpr ⟨h, hb.symm⟩, fun hbound => ?_⟩
  obtain ⟨⟨e, hret⟩, -⟩ := hbound (i, b.issuer (s.calls i).state) (List.mem_cons_self ..)
    (by rw [hself]; exact hother)
  rw [hself] at hret
  cases hret

/- A pending callback for another provider is let through, once its provider is
registered. -/
theorem pending_accepts (hpc : (s.calls i).pc.pending = true)
    (hd : s.storage.data (s.calls i).state = some d) (he : d.expired s.now = false)
    (hother : b.issuer (s.calls i).state ≠ some (s.calls i).providerName) :
    ∃ more u, exec (noted (step m) bindings) (s, b) more = some u ∧ ¬ StateBound u := by
  cases hcase : (s.calls i).pc with
  | getStateData p =>
    obtain ⟨u, hu, hbad⟩ := lookup_accepts (m := m) hcase hd he hother
    exact ⟨_, u, exec_single hu, hbad⟩
  | lookup =>
    let p : Provider := ⟨(s.calls i).providerName, fun _ _ _ => ""⟩
    let s₁ : Sys := { s with providers := Function.update s.providers p.getName (some p) }
    have h₁ : noted (step m) bindings (s, b) (.registerProvider p) = some (s₁, b) :=
      noted_eq_some.mpr ⟨rfl, rfl⟩
    have h₂ : noted (step m) bindings (s₁, b) (.callback i .go) = some (s₁.setPc i (.getStateData p), b) := by
      refine noted_eq_some.mpr ⟨?_, ?_⟩
      · simp [step, callbackStep, s₁, hcase, p]
      · simp [bindings, s₁, hcase]
    obtain ⟨u, hu, hbad⟩ := lookup_accepts (m := m) (s := s₁.setPc i (.getStateData p)) (b := b) (i := i) (d := d)
      (by rw [Sys.setPc_self]) (by rw [Sys.setPc_self]; exact hd) he (by rw [Sys.setPc_self]; exact hother)
    exact ⟨_, u, exec_trans (exec_single h₁) (exec_trans (exec_single h₂) (exec_single hu)), hbad⟩
  | _ =>
    rw [hcase] at hpc
    cases hpc

end Exactness

/-- A state is bound to its provider exactly as long as every callback that
carries the state of a live entry names the provider it was issued for. -/
theorem stateBound_exactGuard (m : Manager) (now : Time) :
    ExactGuard (noted (step m) bindings) (newManager now, .empty) OwnState StateBound where
  holds as p h hok := by
    have hstep : ∀ p a q, OwnInv p.1 p.2 → OwnState p a → noted (step m) bindings p a = some q →
        OwnInv q.1 q.2 := by
      intro p a q hp hok hq
      obtain ⟨hs, hb⟩ := noted_eq_some.mp hq
      rw [hb]
      exact ownInv_step hp hok hs
    exact (exec_invariant_meets (I := fun p => OwnInv p.1 p.2) hstep (ownInv_newManager now) hok h).bound
  fails as p a q h hstep hok := by
    obtain ⟨s, b⟩ := p
    obtain ⟨t, b'⟩ := q
    obtain ⟨hs, rfl⟩ := noted_eq_some.mp hstep
    cases a with
    | startCallback i name code state =>
      simp only [OwnState, not_forall] at hok
      obtain ⟨d, hd, he, hother⟩ := hok
      cases step_sysStep hs with
      | startCallback _ _ _ _ hpc =>
        refine pending_accepts (i := i) (d := d) ?_ ?_ he ?_
        · simp only [Function.update_self]
          rfl
        · simp only [Function.update_self]
          exact hd
        · simp only [Function.update_self]
          exact hother
    | auth i c =>
      cases c with
      | go =>
        simp only [OwnState, not_forall] at hok
        obtain ⟨q, state, nonce, codeVerifier, expiresAt, hpc, hlive, j, hstate, hpending, hother⟩ := hok
        cases step_sysStep hs with
        | auth _ _ _ hauth =>
          cases hauth with
          | saved q' state' nonce' codeVerifier' expiresAt' hpc' =>
            cases hpc.symm.trans hpc'
            have hdata : (s.storage.saveState state nonce codeVerifier expiresAt).data (s.calls j).state =
                some ⟨nonce, codeVerifier, expiresAt⟩ := by
              rw [hstate]
              exact Function.update_self ..
            have hissuer : (bindings s (.auth i .go) b).issuer (s.calls j).state = some q.getName := by
              simp only [bindings, hpc, hstate, Function.update_self]
            have hne : (bindings s (.auth i .go) b).issuer (s.calls j).state ≠
                some (s.calls j).providerName := by
              rw [hissuer]
              exact fun heq => hother (Option.some.inj heq).symm
            exact pending_accepts (i := j) hpending hdata ((StateData.not_expired_iff _ _).mpr hlive) hne
          | notFound _ hpc' | found _ _ hpc' | now _ _ _ _ hpc' | issued _ _ _ _ hpc' =>
            cases hpc.symm.trans hpc'
      | _ => exact absurd trivial hok
    | _ => exact absurd trivial hok

/-! ### A state of one provider, brought to another -/

/-- `GetAuthURL("google")` stores and hands out a state; a callback for the
other provider carries it. -/
def mixUp : List Action :=
  [.registerProvider (endpoint "google" "accounts.google.com"),
   .registerProvider (endpoint "custom" "idp.example.com"),
   .startAuth 0 "google", .auth 0 .go,
   .auth 0 (.random (.drawn loginState loginNonce loginVerifier)), .auth 0 .go, .auth 0 .go, .auth 0 .go,
   .startCallback 0 "custom" "code" loginState, .callback 0 .go, .callback 0 .go, .callback 0 .go]

theorem mixUp_hands_over_verifier :
    ∃ p, exec (noted (step loginManager) bindings) (newManager 0, .empty) mixUp = some p ∧
      p.2.lookups = [(0, some "google")] ∧
      .providerCalled 0 "custom" "code" loginState loginNonce loginVerifier ∈ p.1.log ∧
      ¬ StateBound p := by
  refine ⟨_, rfl, rfl, .head _, ?_⟩
  intro h
  obtain ⟨⟨e, hret⟩, -⟩ := h (0, some "google") (.head _) (by decide)
  cases hret

end Ghost.OAuth2
