import Ghost.OAuth2.Steps

/-!
# One-time use of a state

`HandleCallback` looks the state up in one critical section and deletes it in
another, after the provider and the application have been called. A second call
whose lookup falls between the two is let through as well. The exact guard is
that no lookup succeeds while another call still holds the same state.
-/

namespace Ghost.OAuth2
open Go Transition

/-- The call has looked its state up and has not deleted it yet. -/
def CallPc.holding : CallPc → Bool
  | .callProvider _ _ | .inProvider _ _ | .callHandler _ _ | .inHandler | .deleteState _ => true
  | _ => false

/-- The call holds its state and has entered `provider.HandleCallback`. -/
def CallPc.pastProvider : CallPc → Bool
  | .inProvider _ _ | .callHandler _ _ | .inHandler | .deleteState _ => true
  | _ => false

/-! ### The property and its guard -/

/-- Call `i` carried the state and entered `provider.HandleCallback`. -/
def ReachedProvider (s : Sys) (i : Nat) (state : String) : Prop :=
  ∃ name code nonce verifier, .providerCalled i name code state nonce verifier ∈ s.log

def ReachedHandler (s : Sys) (i : Nat) (state : String) : Prop :=
  ∃ name, .handlerCalled i name state ∈ s.log

def Event.saves (state : String) : Event → Bool
  | .saved _ other _ => other == state
  | _ => false

/-- How often `GetAuthURL` has saved the state. -/
def savedCount (s : Sys) (state : String) : Nat := s.log.countP (Event.saves state)

/-- A state saved at most once lets at most one call through to the provider,
and at most one to the callback handler. -/
def OneTimeUse (state : String) (s : Sys) : Prop :=
  savedCount s state ≤ 1 →
    (∀ i j, ReachedProvider s i state → ReachedProvider s j state → i = j) ∧
    (∀ i j, ReachedHandler s i state → ReachedHandler s j state → i = j)

def Holds (s : Sys) (i : Nat) (state : String) : Prop :=
  (s.calls i).state = state ∧ (s.calls i).pc.holding = true

/-- The lookup that call `i` makes next for `state` succeeds while another call
holds `state`. -/
def Overlaps (state : String) (s : Sys) (i : Nat) : Prop :=
  (s.calls i).state = state ∧ (∃ p, (s.calls i).pc = .getStateData p) ∧
    (∃ d, s.storage.data state = some d ∧ d.expired s.now = false) ∧
    ∃ j, j ≠ i ∧ Holds s j state

/-- The guard: a state saved once is not looked up while another call holds it. -/
def OneAtATime (state : String) (s : Sys) : Action → Prop
  | .callback i .go => savedCount s state ≤ 1 → ¬ Overlaps state s i
  | _ => True

/-! ### The invariants -/

/-- The call holds the state now, or has been let through with it before. -/
def Took (s : Sys) (i : Nat) (state : String) : Prop :=
  Holds s i state ∨ ReachedProvider s i state

/-- The log and the counters agree, in every run: the calls past the provider
call are logged there, and nobody reaches the handler without it. -/
structure Logged (s : Sys) : Prop where
  past : ∀ i, (s.calls i).pc.pastProvider = true → ReachedProvider s i (s.calls i).state
  handler : ∀ i state, ReachedHandler s i state → ReachedProvider s i state

/-- What the guard adds for one state: it has at most one taker, and its entry
is gone once that taker no longer holds it. -/
structure Inv (state : String) (s : Sys) : Prop where
  unsaved : savedCount s state = 0 → s.storage.data state = none ∧ ∀ i, ¬ Took s i state
  unique : savedCount s state ≤ 1 → ∀ i j, Took s i state → Took s j state → i = j
  gone : savedCount s state ≤ 1 → ∀ i, Took s i state → ¬ Holds s i state →
    s.storage.data state = none

theorem logged_newManager (now : Time) : Logged (newManager now) := by
  refine ⟨?_, ?_⟩
  · intro i h
    cases h
  · rintro i state ⟨_, h⟩
    cases h

theorem inv_newManager (state : String) (now : Time) : Inv state (newManager now) := by
  have hno : ∀ i, ¬ Took (newManager now) i state := by
    rintro i (⟨_, h⟩ | ⟨_, _, _, _, h⟩)
    · cases h
    · cases h
  exact ⟨fun _ => ⟨rfl, hno⟩, fun _ i _ h => absurd h (hno i), fun _ i h => absurd h (hno i)⟩

theorem logged_of_grow {s t : Sys} (hl : Logged s) (hsub : ∀ e ∈ s.log, e ∈ t.log)
    (hnew : ∀ i n st, .handlerCalled i n st ∈ t.log → .handlerCalled i n st ∈ s.log)
    (hpast : ∀ i, (t.calls i).pc.pastProvider = true →
      (s.calls i).pc.pastProvider = true ∧ (t.calls i).state = (s.calls i).state) : Logged t := by
  have hmono : ∀ i st, ReachedProvider s i st → ReachedProvider t i st := by
    rintro i st ⟨n, c, o, v, h⟩
    exact ⟨n, c, o, v, hsub _ h⟩
  refine ⟨?_, ?_⟩
  · intro i h
    obtain ⟨hp, hst⟩ := hpast i h
    rw [hst]
    exact hmono _ _ (hl.past i hp)
  · rintro i st ⟨n, h⟩
    exact hmono _ _ (hl.handler i st ⟨n, hnew i n st h⟩)

/-- A step after which the same calls hold and have taken the state, and which
makes no entry of it appear, keeps the invariant. -/
theorem inv_of_same_takers {state : String} {s t : Sys} (hi : Inv state s)
    (hcount : savedCount t state = savedCount s state)
    (hholds : ∀ i, Holds t i state ↔ Holds s i state)
    (htook : ∀ i, Took t i state ↔ Took s i state)
    (hdata : s.storage.data state = none → t.storage.data state = none) : Inv state t := by
  refine ⟨?_, ?_, ?_⟩
  · intro h
    rw [hcount] at h
    obtain ⟨hnone, hno⟩ := hi.unsaved h
    exact ⟨hdata hnone, fun i => by rw [htook]; exact hno i⟩
  · intro h i j
    rw [hcount] at h
    rw [htook, htook]
    exact hi.unique h i j
  · intro h i
    rw [hcount] at h
    rw [htook, hholds]
    exact fun ht hh => hdata (hi.gone h i ht hh)

/-- The case of a step that logs no provider call. -/
theorem inv_of_quiet {state : String} {s t : Sys} (hi : Inv state s)
    (hprov : ∀ i st, ReachedProvider t i st ↔ ReachedProvider s i st)
    (hcount : savedCount t state = savedCount s state)
    (hholds : ∀ i, Holds t i state ↔ Holds s i state)
    (hdata : s.storage.data state = none → t.storage.data state = none) : Inv state t := by
  refine inv_of_same_takers hi hcount hholds ?_ hdata
  intro i
  simp only [Took, hholds, hprov]

/-! ### One lemma per kind of step -/

theorem reachedProvider_cons {s t : Sys} {e : Event} (hl : t.log = e :: s.log)
    (he : ∀ i n c st o v, e ≠ .providerCalled i n c st o v) (i : Nat) (st : String) :
    ReachedProvider t i st ↔ ReachedProvider s i st := by
  have hne : ∀ n c o v, Event.providerCalled i n c st o v ≠ e := fun n c o v =>
    (he i n c st o v).symm
  simp only [ReachedProvider, hl, List.mem_cons, hne, false_or]

theorem savedCount_cons {s t : Sys} {e : Event} {state : String} (hl : t.log = e :: s.log)
    (he : e.saves state = false) : savedCount t state = savedCount s state := by
  simp [savedCount, hl, he]

/-- Moving one call between counters that hold nothing changes no holder, and
neither does moving it between counters that both hold. -/
theorem holds_setPc {s : Sys} {i : Nat} {pc : CallPc} (state : String)
    (hpc : pc.holding = (s.calls i).pc.holding) (j : Nat) :
    Holds (s.setPc i pc) j state ↔ Holds s j state := by
  by_cases hj : j = i
  · subst hj; simp [Holds, hpc]
  · simp [Holds, hj]

theorem past_setPc {s : Sys} {i : Nat} {pc : CallPc}
    (hpc : pc.pastProvider = true → (s.calls i).pc.pastProvider = true) (j : Nat)
    (h : ((s.setPc i pc).calls j).pc.pastProvider = true) :
    (s.calls j).pc.pastProvider = true ∧ ((s.setPc i pc).calls j).state = (s.calls j).state := by
  refine ⟨?_, s.setPc_state i j pc⟩
  by_cases hj : j = i
  · subst hj
    simp only [Sys.setPc_self] at h
    exact hpc h
  · simpa [hj] using h

theorem logged_callback {s t : Sys} {i : Nat} {c : Choice} (hl : Logged s) (h : CallStep s i c t) : Logged t := by
  cases h with
  | notFound hpc | found p hpc hp =>
    exact logged_of_grow hl (fun e h => h) (fun i n st h => h) (past_setPc fun hp => by cases hp)
  | lookedUp p d hpc hd he =>
    exact logged_of_grow hl (fun e h => List.mem_cons_of_mem _ h) (by simp)
      (past_setPc (s := s.emit _) fun hp => by cases hp)
  | refused p e st hpc hg hst =>
    exact logged_of_grow hl (fun e h => h) (fun i n st h => h)
      (past_setPc (s := s.setStorage st) fun hp => by cases hp)
  | callProvider p d hpc =>
    -- the call itself is the only one the new event is about
    refine ⟨?_, ?_⟩
    · intro j h
      rw [Sys.setPc_state]
      by_cases hj : j = i
      · subst hj
        exact ⟨_, _, _, _, List.mem_cons_self ..⟩
      · obtain ⟨n, c, o, v, hlog⟩ := hl.past j (by simpa [hj] using h)
        exact ⟨n, c, o, v, List.mem_cons_of_mem _ hlog⟩
    · rintro j st ⟨n, h⟩
      obtain ⟨n, c, o, v, hlog⟩ := hl.handler j st ⟨n, by simpa using h⟩
      exact ⟨n, c, o, v, List.mem_cons_of_mem _ hlog⟩
  | providerFailed p d e hpc | providerDone p d u tk hpc | handled r ret hpc =>
    exact logged_of_grow hl (fun e h => h) (fun i n st h => h) (past_setPc fun _ => by rw [hpc]; rfl)
  | callHandler u tk hpc =>
    have hpast : (s.calls i).pc.pastProvider = true := by rw [hpc]; rfl
    have hprov : ∀ j st, ReachedProvider ((s.emit (.handlerCalled i (s.calls i).providerName
        (s.calls i).state)).setPc i .inHandler) j st ↔ ReachedProvider s j st :=
      reachedProvider_cons rfl (by simp)
    refine ⟨?_, ?_⟩
    · intro j h
      obtain ⟨hp, hst⟩ := past_setPc (s := s.emit _) (fun _ => hpast) j h
      rw [hst, hprov]
      exact hl.past j hp
    · rintro j st ⟨n, h⟩
      rw [hprov]
      rcases List.mem_cons.mp h with h | h
      · cases h
        exact hl.past i hpast
      · exact hl.handler j st ⟨n, h⟩
  | deleted r hpc =>
    exact logged_of_grow hl (fun e h => h) (fun i n st h => h)
      (past_setPc (s := s.setStorage _) fun hp => by cases hp)

theorem inv_saved {state saved : String} {s t : Sys} {i : Nat} {d : StateData}
    (hi : Inv state s) (hlog : t.log = .saved i saved d :: s.log) (hcalls : t.calls = s.calls)
    (hdata : ∀ other, other ≠ saved → t.storage.data other = s.storage.data other) :
    Inv state t := by
  have hprov := reachedProvider_cons hlog (by simp)
  have hholds : ∀ j, Holds t j state ↔ Holds s j state := by
    simp only [Holds, hcalls, implies_true]
  by_cases hs : saved = state
  · subst hs
    have hcount : savedCount t saved = savedCount s saved + 1 := by
      simp [savedCount, hlog, Event.saves]
    -- before the first save of the state nobody can have taken it
    have hno : savedCount t saved ≤ 1 → ∀ j, ¬ Took t j saved := by
      intro h j hj
      refine (hi.unsaved (by omega)).2 j ?_
      simpa only [Took, hholds, hprov] using hj
    refine ⟨fun h => by omega, ?_, ?_⟩
    · exact fun h j k hj => absurd hj (hno h j)
    · exact fun h j hj => absurd hj (hno h j)
  · exact inv_of_quiet hi hprov (savedCount_cons hlog (by simp [Event.saves, hs])) hholds
      (fun h => (hdata state (Ne.symm hs)).trans h)

/-- A lookup that succeeds under the guard: nobody has taken the state, since a
call that has and no longer holds it has deleted the entry. -/
theorem inv_lookedUp {state : String} {s : Sys} {i : Nat} {p : Provider} {d : StateData}
    (hi : Inv state s) (hpc : (s.calls i).pc = .getStateData p)
    (hd : s.storage.data (s.calls i).state = some d) (he : d.expired s.now = false)
    (hok : savedCount s state ≤ 1 → ¬ Overlaps state s i) :
    Inv state ((s.emit (.lookedUp i (s.calls i).state d s.now)).setPc i (.callProvider p d)) := by
  generalize ht : (s.emit (.lookedUp i (s.calls i).state d s.now)).setPc i (.callProvider p d) = t
  have hlog : t.log = .lookedUp i (s.calls i).state d s.now :: s.log := by rw [← ht]; rfl
  have hcount : savedCount t state = savedCount s state := savedCount_cons hlog rfl
  have hprov := reachedProvider_cons hlog (by simp)
  have hself : t.calls i = { s.calls i with pc := .callProvider p d } := by
    rw [← ht]; simp
  have hother : ∀ j, j ≠ i → t.calls j = s.calls j := by
    intro j hj
    rw [← ht]; simp [hj]
  have hstore : t.storage = s.storage := by rw [← ht]; rfl
  by_cases hst : (s.calls i).state = state
  · rw [hst] at hd
    have hnone : savedCount s state ≤ 1 → ∀ j, ¬ Took s j state := by
      intro hc j hj
      by_cases hh : Holds s j state
      · by_cases hji : j = i
        · subst hji
          have := hh.2
          rw [hpc] at this
          cases this
        · exact hok hc ⟨hst, ⟨p, hpc⟩, ⟨d, hd, he⟩, j, hji, hh⟩
      · rw [hi.gone hc j hj hh] at hd
        cases hd
    have honly : savedCount s state ≤ 1 → ∀ j, Took t j state → j = i := by
      intro hc j hj
      by_contra hji
      refine hnone hc j ?_
      simpa only [Took, Holds, hother j hji, hprov] using hj
    refine ⟨?_, ?_, ?_⟩
    · intro hc
      rw [hcount] at hc
      rw [(hi.unsaved hc).1] at hd
      cases hd
    · intro hc j k hj hk
      rw [hcount] at hc
      rw [honly hc j hj, honly hc k hk]
    · intro hc j hj hh
      rw [hcount] at hc
      have hji := honly hc j hj
      subst hji
      exact absurd ⟨by rw [hself]; exact hst, by rw [hself]; rfl⟩ hh
  · refine inv_of_quiet hi hprov hcount ?_ (fun h => by rw [hstore]; exact h)
    intro j
    by_cases hj : j = i
    · subst hj; simp [Holds, hself, hst]
    · simp [Holds, hother j hj]

/-- Entering the provider makes no new taker: the call held the state already. -/
theorem inv_providerCalled {state : String} {s : Sys} {i : Nat} {p : Provider} {d : StateData}
    (hi : Inv state s) (hpc : (s.calls i).pc = .callProvider p d) :
    Inv state ((s.emit (.providerCalled i p.getName (s.calls i).code (s.calls i).state d.nonce
      d.codeVerifier)).setPc i (.inProvider p d)) := by
  generalize he : Event.providerCalled i p.getName (s.calls i).code (s.calls i).state d.nonce
    d.codeVerifier = e
  have hprov : ∀ j st, ReachedProvider ((s.emit e).setPc i (.inProvider p d)) j st ↔
      (j = i ∧ st = (s.calls i).state) ∨ ReachedProvider s j st := by
    intro j st
    constructor
    · rintro ⟨n, c, o, v, h⟩
      rcases List.mem_cons.mp h with h | h
      · rw [← he] at h
        cases h
        exact .inl ⟨rfl, rfl⟩
      · exact .inr ⟨n, c, o, v, h⟩
    · rintro (⟨rfl, rfl⟩ | ⟨n, c, o, v, h⟩)
      · exact ⟨_, _, _, _, List.mem_cons.mpr (.inl he)⟩
      · exact ⟨n, c, o, v, List.mem_cons_of_mem _ h⟩
  have hheld : (s.calls i).pc.holding = true := by rw [hpc]; rfl
  have hholds : ∀ j, Holds ((s.emit e).setPc i (.inProvider p d)) j state ↔ Holds s j state :=
    holds_setPc (s := s.emit e) state hheld.symm
  refine inv_of_same_takers hi (savedCount_cons rfl (by rw [← he]; rfl)) hholds ?_ (fun h => h)
  intro j
  simp only [Took, hholds, hprov]
  constructor
  · rintro (h | ⟨rfl, rfl⟩ | h)
    · exact .inl h
    · exact .inl ⟨rfl, hheld⟩
    · exact .inr h
  · rintro (h | h)
    · exact .inl h
    · exact .inr (.inr h)

/-- The deferred deletion ends the holding and removes the entry in one step. -/
theorem inv_deleted {state : String} {s : Sys} {i : Nat} {r : Except Error CallbackInfo}
    (hi : Inv state s) :
    Inv state ((s.setStorage (s.storage.deleteState (s.calls i).state)).setPc i
      (.returned r)) := by
  generalize ht : (s.setStorage (s.storage.deleteState (s.calls i).state)).setPc i
    (.returned r) = t
  have hlog : t.log = s.log := by rw [← ht]; rfl
  have hcount : savedCount t state = savedCount s state := by simp only [savedCount, hlog]
  have hother : ∀ j, j ≠ i → t.calls j = s.calls j := by
    intro j hj
    rw [← ht]; simp [hj]
  have hself : t.calls i = { s.calls i with pc := .returned r } := by
    rw [← ht]; simp
  have hdata : s.storage.data state = none → t.storage.data state = none := by
    rw [← ht]
    exact s.storage.deleteState_none _ _
  have htook : ∀ j, Took t j state → Took s j state := by
    rintro j (⟨hst, hh⟩ | h)
    · by_cases hj : j = i
      · subst hj
        rw [hself] at hh
        cases hh
      · rw [hother j hj] at hst hh
        exact .inl ⟨hst, hh⟩
    · exact .inr (by simpa only [ReachedProvider, hlog] using h)
  refine ⟨?_, ?_, ?_⟩
  · intro hc
    rw [hcount] at hc
    obtain ⟨hnone, hno⟩ := hi.unsaved hc
    exact ⟨hdata hnone, fun j hj => hno j (htook j hj)⟩
  · intro hc j k hj hk
    rw [hcount] at hc
    exact hi.unique hc j k (htook j hj) (htook k hk)
  · intro hc j hj hh
    rw [hcount] at hc
    by_cases hst : (s.calls i).state = state
    · rw [← ht, ← hst]
      exact s.storage.deleteState_self _
    · refine hdata (hi.gone hc j (htook j hj) (fun hs => hh ?_))
      by_cases hji : j = i
      · subst hji
        exact absurd hs.1 hst
      · exact ⟨by rw [hother j hji]; exact hs.1, by rw [hother j hji]; exact hs.2⟩

theorem inv_callback {state : String} {s t : Sys} {i : Nat} {c : Choice} (hi : Inv state s)
    (hok : OneAtATime state s (.callback i c)) (h : CallStep s i c t) : Inv state t := by
  cases h with
  | notFound hpc | found p hpc hp =>
    exact inv_of_quiet hi (fun _ _ => Iff.rfl) rfl (holds_setPc state (by rw [hpc]; rfl)) (fun h => h)
  | lookedUp p d hpc hd he => exact inv_lookedUp hi hpc hd he hok
  | refused p e st hpc hg hst =>
    refine inv_of_quiet hi (fun _ _ => Iff.rfl) rfl
      (holds_setPc (s := s.setStorage st) state (by simp [hpc, CallPc.holding])) (fun hn => ?_)
    rcases hst with rfl | rfl
    · exact hn
    · exact s.storage.deleteState_none _ _ hn
  | callProvider p d hpc => exact inv_providerCalled hi hpc
  | providerFailed p d e hpc | providerDone p d u tk hpc | handled r ret hpc =>
    exact inv_of_quiet hi (fun _ _ => Iff.rfl) rfl (holds_setPc state (by rw [hpc]; rfl)) (fun h => h)
  | callHandler u tk hpc =>
    exact inv_of_quiet hi (reachedProvider_cons rfl (by simp)) (savedCount_cons rfl rfl)
      (holds_setPc (s := s.emit _) state (by simp [hpc, CallPc.holding])) (fun h => h)
  | deleted r hpc => exact inv_deleted hi

/-- Starting a call of an idle goroutine changes neither holders nor the calls
past the provider. -/
theorem startCallback_frame {s : Sys} {i : Nat} (hidle : (s.calls i).pc = .idle)
    (name code st state : String) (j : Nat) :
    let t : Sys := { s with calls := Function.update s.calls i ⟨name, code, st, .lookup⟩ }
    (Holds t j state ↔ Holds s j state) ∧
      ((t.calls j).pc.pastProvider = true →
        (s.calls j).pc.pastProvider = true ∧ (t.calls j).state = (s.calls j).state) := by
  by_cases hj : j = i
  · subst hj; simp [Holds, hidle, CallPc.holding, CallPc.pastProvider]
  · simp [Holds, hj]

/-- The steps that touch neither the calls nor the log. -/
theorem inv_of_frame {state : String} {s t : Sys} (hi : Inv state s) (hlog : t.log = s.log)
    (hcalls : t.calls = s.calls)
    (hdata : s.storage.data state = none → t.storage.data state = none) : Inv state t := by
  refine inv_of_quiet hi ?_ ?_ ?_ hdata
  · simp only [ReachedProvider, hlog, implies_true]
  · simp only [savedCount, hlog]
  · simp only [Holds, hcalls, implies_true]

theorem inv_step {m : Manager} {state : String} (s : Sys) (a : Action) (t : Sys)
    (hi : Inv state s) (hok : OneAtATime state s a) (h : step m s a = some t) : Inv state t := by
  cases step_sysStep h with
  | tick d => exact inv_of_frame hi rfl rfl (fun h => h)
  | removeExpired => exact inv_of_frame hi rfl rfl (s.storage.removeExpired_none _ _)
  | registerProvider p => exact inv_of_frame hi rfl rfl (fun h => h)
  | startAuth i name hpc => exact inv_of_frame hi rfl rfl (fun h => h)
  | auth i c t hauth =>
    cases hauth with
    | saved p st nonce codeVerifier expiresAt hpc =>
      exact inv_saved hi rfl rfl (fun other hne => s.storage.saveState_other _ _ _ hne)
    | issued p st nonce codeChallenge hpc =>
      exact inv_of_quiet hi (reachedProvider_cons rfl (by simp)) (savedCount_cons rfl rfl)
        (fun _ => Iff.rfl) (fun h => h)
    | notFound | found | failed | drawn | now => exact inv_of_frame hi rfl rfl (fun h => h)
  | startCallback i name code st hidle =>
    exact inv_of_quiet hi (fun _ _ => Iff.rfl) rfl
      (fun j => (startCallback_frame hidle name code st state j).1) (fun h => h)
  | callback i c t hcall => exact inv_callback hi hok hcall

theorem logged_step {m : Manager} (s : Sys) (a : Action) (t : Sys) (hl : Logged s)
    (h : step m s a = some t) : Logged t := by
  -- most steps leave the calls alone and log nothing a call does
  have hframe : ∀ u : Sys, u.calls = s.calls → (∀ e ∈ s.log, e ∈ u.log) →
      (∀ i n st, .handlerCalled i n st ∈ u.log → .handlerCalled i n st ∈ s.log) → Logged u := by
    intro u hcalls hsub hnew
    refine logged_of_grow hl hsub hnew (fun i hp => ?_)
    rw [hcalls] at hp ⊢
    exact ⟨hp, rfl⟩
  cases step_sysStep h with
  | tick | removeExpired | registerProvider | startAuth =>
    exact hframe _ rfl (fun e h => h) (fun i n st h => h)
  | auth i c t hauth =>
    cases hauth with
    | saved | issued => exact hframe _ rfl (fun e h => List.mem_cons_of_mem _ h) (by simp)
    | notFound | found | failed | drawn | now => exact hframe _ rfl (fun e h => h) (fun i n st h => h)
  | startCallback i name code st hidle =>
    exact logged_of_grow hl (fun e h => h) (fun i n st h => h)
      (fun j => (startCallback_frame hidle name code st st j).2)
  | callback i c t hcall => exact logged_callback hl hcall

theorem inv_oneTimeUse {state : String} {s : Sys} (hl : Logged s) (hi : Inv state s) :
    OneTimeUse state s := by
  intro hc
  refine ⟨fun i j h k => hi.unique hc i j (.inr h) (.inr k), fun i j h k => ?_⟩
  exact hi.unique hc i j (.inr (hl.handler i _ h)) (.inr (hl.handler j _ k))

/-! ### Exactness -/

/-- A call that holds its state has entered the provider, or enters it next. -/
theorem holder_reaches_provider {m : Manager} {state : String} {s : Sys} {j : Nat}
    (hl : Logged s) (hj : Holds s j state) :
    ∃ more t, exec (step m) s more = some t ∧ Logged t ∧
      savedCount t state = savedCount s state ∧ ReachedProvider t j state ∧
      (∀ k, ReachedProvider s k state → ReachedProvider t k state) ∧
      ∀ k, k ≠ j → t.calls k = s.calls k := by
  obtain ⟨hst, hh⟩ := hj
  by_cases hp : (s.calls j).pc.pastProvider = true
  · exact ⟨[], s, rfl, hl, rfl, by rw [← hst]; exact hl.past j hp, fun k h => h, fun k _ => rfl⟩
  · cases hpc : (s.calls j).pc <;> simp [hpc, CallPc.holding, CallPc.pastProvider] at hh hp
    rename_i p d
    have hstep : step m s (.callback j .go) = some ((s.emit (.providerCalled j p.getName
        (s.calls j).code (s.calls j).state d.nonce d.codeVerifier)).setPc j (.inProvider p d)) := by
      simp only [step, callbackStep, hpc]
    refine ⟨_, _, exec_single hstep, logged_step _ _ _ hl hstep, savedCount_cons rfl rfl, ?_, ?_,
      fun k hk => by simp [hk]⟩
    · exact ⟨_, _, _, _, List.mem_cons.mpr (.inl (by rw [hst]))⟩
    · rintro k ⟨n, c, o, v, h⟩
      exact ⟨n, c, o, v, List.mem_cons_of_mem _ h⟩

/-- A lookup that overlaps another holder lets both calls reach the provider. -/
theorem overlap_breaks {m : Manager} {state : String} {s t : Sys} {i : Nat} (hl : Logged s)
    (hc : savedCount s state ≤ 1) (hov : Overlaps state s i)
    (h : step m s (.callback i .go) = some t) :
    ∃ more u, exec (step m) t more = some u ∧ ¬ OneTimeUse state u := by
  obtain ⟨hst, ⟨p, hpc⟩, ⟨d, hd, he⟩, j, hji, hj⟩ := hov
  have ht : t = (s.emit (.lookedUp i (s.calls i).state d s.now)).setPc i (.callProvider p d) := by
    simp only [step, callbackStep, hpc, InMemoryStorage.getStateData, hst, hd, he] at h
    rw [← Option.some.inj h, hst]
    rfl
  have hlt := logged_step s _ t hl h
  have hct : savedCount t state ≤ 1 := by
    rw [ht, savedCount_cons (s := s) rfl rfl]
    exact hc
  have hholdj : Holds t j state := by
    rw [ht]
    exact ⟨by simp [hji, hj.1], by simp [hji, hj.2]⟩
  have hholdi : Holds t i state := by
    rw [ht]
    exact ⟨by simp [hst], by simp [CallPc.holding]⟩
  obtain ⟨as, u, hu, hlu, hcu, hpu, -, hframe⟩ := holder_reaches_provider (m := m) hlt hholdj
  have hholdi' : Holds u i state := by
    simpa only [Holds, hframe i (Ne.symm hji)] using hholdi
  obtain ⟨bs, v, hv, -, hcv, hpv, hkeep, -⟩ := holder_reaches_provider (m := m) hlu hholdi'
  refine ⟨as ++ bs, v, exec_trans hu hv, fun huse => hji ?_⟩
  exact (huse (by omega)).1 j i (hkeep j hpu) hpv

/-- A state is one-time exactly as long as no lookup of it overlaps another
call that holds it: this holds of every manager, state string and run. -/
theorem oneTimeUse_exactGuard (m : Manager) (now : Time) (state : String) :
    ExactGuard (step m) (newManager now) (OneAtATime state) (OneTimeUse state) where
  holds as s h hm := by
    have hl : Logged s := exec_invariant logged_step (logged_newManager now) h
    exact inv_oneTimeUse hl (exec_invariant_meets inv_step (inv_newManager state now) hm h)
  fails as s a t h hs hok := by
    have hl : Logged s := exec_invariant logged_step (logged_newManager now) h
    cases a with
    | callback i c =>
      cases c with
      | go =>
        simp only [OneAtATime, not_forall, not_not] at hok
        obtain ⟨hc, hov⟩ := hok
        exact overlap_breaks hl hc hov hs
      | random r => exact absurd trivial hok
      | provider r => exact absurd trivial hok
      | handler r => exact absurd trivial hok
    | tick d => exact absurd trivial hok
    | removeExpired => exact absurd trivial hok
    | registerProvider p => exact absurd trivial hok
    | startAuth i n => exact absurd trivial hok
    | auth i c => exact absurd trivial hok
    | startCallback i n c st => exact absurd trivial hok

/-! ### Two concurrent callbacks with one state -/

/-- One authorization request; then two callbacks carry its state, and both
look it up before either has come back from the provider. -/
def replayRun : List Action :=
  [.registerProvider (endpoint "google" "accounts.google.com"), .startAuth 0 "google", .auth 0 .go,
   .auth 0 (.random (.drawn loginState loginNonce loginVerifier)),
   .auth 0 .go, .auth 0 .go, .auth 0 .go,
   .startCallback 0 "google" "code" loginState, .startCallback 1 "google" "code" loginState,
   .callback 0 .go, .callback 1 .go, .callback 0 .go, .callback 1 .go,
   .callback 0 .go, .callback 1 .go]

theorem replay_reaches_provider_twice :
    ∃ s, exec (step loginManager) (newManager 0) replayRun = some s ∧
      savedCount s loginState = 1 ∧ ReachedProvider s 0 loginState ∧
      ReachedProvider s 1 loginState ∧ ¬ OneTimeUse loginState s := by
  refine ⟨_, rfl, rfl, ?zero, ?one, ?not⟩
  case zero => exact ⟨_, _, _, _, .tail _ (.head _)⟩
  case one => exact ⟨_, _, _, _, .head _⟩
  case not =>
    intro h
    have h01 := (h (Nat.le_refl 1)).1 0 1 ⟨_, _, _, _, .tail _ (.head _)⟩ ⟨_, _, _, _, .head _⟩
    cases h01

end Ghost.OAuth2
