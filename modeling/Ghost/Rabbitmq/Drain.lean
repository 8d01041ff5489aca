import Ghost.Rabbitmq.ChannelPool

/-!
# Draining the pool (rabbitmq/pool.go)

The loop of `drain` ends in the default of its select, which is taken only while
a receive would block. A receive from the closed Go channel never blocks: once
`close` has closed it, whoever is in `drain` or enters it stays there.
-/

namespace Ghost.Rabbitmq.ChannelPool
open Go Transition

variable {size : Nat} {p q : Shared} {pc next : Pc} {choice : Choice} {s t u : Sys} {g : Nat} {a : Action}

/-! ### Termination -/

def Action.isRound (g : Nat) : Action → Bool
  | .run k .go => k == g
  | _ => false

def AddsNone (size : Nat) (s : Sys) (a : Action) : Prop :=
  ∀ t, step size s a = some t → t.shared.channels.length ≤ s.shared.channels.length

-- The Go channel is not closed under a `drain`, and none is started after the close.
def DrainsOpen (s : Sys) : Action → Prop
  | .call _ .drain => s.shared.channelsClosed = false
  | .run k .go => s.pcs k = .closeChannels → s.shared.channelsClosed = false → ∀ g, s.pcs g ≠ .drain
  | _ => True

/-- Whoever is in `drain` can take its next step, and once it has taken more steps
than there were channels it has returned and left the pool empty, whatever the
others do meanwhile as long as nobody adds a channel. -/
def DrainsTerminate (size : Nat) (s : Sys) : Prop :=
  ∀ g, s.pcs g = .drain →
    (s.shared.panic = none → ∃ t, step size s (.run g .go) = some t) ∧
    ∀ more u, exec (step size) s more = some u →
      Meets (step size) (fun s a => AddsNone size s a ∧ DrainsOpen s a) s more →
      s.shared.channels.length < more.countP (Action.isRound g) →
      ∃ pre v, pre <+: more ∧ exec (step size) s pre = some v ∧ v.pcs g = .idle .nothing ∧
        v.shared.channels = []

/-! ### What a step does to a drain -/

theorem stepDrain_closed (hclosed : p.channelsClosed = true) :
    (stepDrain p).1.channelsClosed = true ∧ (stepDrain p).1.panic = p.panic ∧ (stepDrain p).2 = .drain := by
  unfold stepDrain
  cases p.channels with
  | nil => exact ⟨hclosed, rfl, if_pos hclosed⟩
  | cons ch rest => exact ⟨hclosed, rfl, rfl⟩

theorem step_keeps_drain (hs : s.pcs g = .drain) (hround : a.isRound g = false) (h : step size s a = some t) :
    t.pcs g = .drain := by
  cases a with
  | call k c =>
    have hkg : g ≠ k := by
      rintro rfl
      simp [step, hs] at h
    obtain ⟨-, rfl⟩ := step_call h
    exact (Function.update_of_ne hkg ..).trans hs
  | run k choice =>
    obtain ⟨-, q, next, hr, rfl⟩ := step_run h
    have hkg : g ≠ k := by
      rintro rfl
      cases choice with
      | go => simp [Action.isRound] at hround
      | fail e =>
        rw [hs] at hr
        cases hr
    exact (Function.update_of_ne hkg ..).trans hs
  | lost which =>
    cases h
    exact hs

theorem drain_round (hs : s.pcs g = .drain) (h : step size s (.run g .go) = some t) :
    t = ⟨(stepDrain s.shared).1, Function.update s.pcs g (stepDrain s.shared).2⟩ := by
  obtain ⟨-, q, next, hr, rfl⟩ := step_run h
  rw [hs] at hr
  rw [Option.some.inj hr]

theorem drain_enabled (size : Nat) (halive : s.shared.panic = none) (hs : s.pcs g = .drain) :
    step size s (.run g .go) =
      some ⟨(stepDrain s.shared).1, Function.update s.pcs g (stepDrain s.shared).2⟩ :=
  run_eq halive (by rw [hs]; rfl)

/-! ### On an open channel -/

theorem step_open (hs : s.pcs g = .drain) (hopen : s.shared.channelsClosed = false) (hok : DrainsOpen s a)
    (h : step size s a = some t) : t.shared.channelsClosed = false := by
  cases a with
  | call k c =>
    obtain ⟨-, rfl⟩ := step_call h
    exact hopen
  | run k choice =>
    obtain ⟨-, q, next, hr, rfl⟩ := step_run h
    cases (stepPc_effect hr).flags with
    | quiet _ hchannels => exact hchannels.trans hopen
    | checked _ hshared =>
      cases hshared
      exact hopen
    | swapped _ _ hchannels => exact hchannels.trans hopen
    | closed hpc =>
      cases choice with
      | go => exact absurd hs (hok hpc hopen g)
      | fail e =>
        rw [hpc] at hr
        cases hr
    | closedTwice _ hclosed | panicked _ hclosed => exact absurd (hopen.symm.trans hclosed) (by decide)
  | lost which =>
    cases h
    exact hopen

-- By induction on the run: a round of `g` takes one channel out, and no other step puts one in.
theorem drain_returns {more : List Action} (hs : s.pcs g = .drain) (hopen : s.shared.channelsClosed = false)
    (h : exec (step size) s more = some u)
    (hok : Meets (step size) (fun s a => AddsNone size s a ∧ DrainsOpen s a) s more)
    (hrounds : s.shared.channels.length < more.countP (Action.isRound g)) :
    ∃ pre v, pre <+: more ∧ exec (step size) s pre = some v ∧ v.pcs g = .idle .nothing ∧
      v.shared.channels = [] := by
  induction more generalizing s with
  | nil => simp at hrounds
  | cons a more ih =>
    obtain ⟨t, ht, hrest⟩ := exec_cons_eq_some.mp h
    have hadd := hok.1.1 t ht
    have hstays := step_open hs hopen hok.1.2 ht
    have hcons : ∀ pre v, pre <+: more → exec (step size) t pre = some v →
        a :: pre <+: a :: more ∧ exec (step size) s (a :: pre) = some v := by
      intro pre v hpre hv
      exact ⟨List.cons_prefix_cons.mpr ⟨rfl, hpre⟩, exec_cons_eq_some.mpr ⟨t, ht, hv⟩⟩
    cases hround : a.isRound g with
    | false =>
      rw [List.countP_cons_of_neg (by simp [hround])] at hrounds
      obtain ⟨pre, v, hpre, hv, hret⟩ := ih (step_keeps_drain hs hround ht) hstays hrest (hok.2 t ht) (by omega)
      obtain ⟨hpre, hv⟩ := hcons pre v hpre hv
      exact ⟨a :: pre, v, hpre, hv, hret⟩
    | true =>
      obtain rfl : a = .run g .go := by
        unfold Action.isRound at hround
        split at hround
        · rw [beq_iff_eq.mp hround]
        · cases hround
      rw [List.countP_cons_of_pos hround] at hrounds
      have hround := drain_round hs ht
      cases hchannels : s.shared.channels with
      | nil =>
        obtain ⟨hpre, hv⟩ := hcons [] t (List.nil_prefix ..) rfl
        have hdone : stepDrain s.shared = (s.shared, .idle .nothing) := by
          simp [stepDrain, hchannels, hopen]
        rw [hdone] at hround
        subst hround
        exact ⟨_, _, hpre, hv, Function.update_self .., hchannels⟩
      | cons ch rest =>
        have hnext : stepDrain s.shared = ({ s.shared with channels := rest }.closeCh ch, .drain) := by
          simp only [stepDrain, hchannels]
        rw [hnext] at hround
        subst hround
        rw [hchannels, List.length_cons] at hrounds
        have hfewer : rest.length < more.countP (Action.isRound g) := by omega
        obtain ⟨pre, v, hpre, hv, hret⟩ := ih (Function.update_self ..) hstays hrest (hok.2 _ ht) hfewer
        obtain ⟨hpre, hv⟩ := hcons pre v hpre hv
        exact ⟨_, v, hpre, hv, hret⟩

def NoLateDrain (s : Sys) : Prop := s.shared.channelsClosed = true → ∀ g, s.pcs g ≠ .drain

theorem step_noLateDrain (s : Sys) (a : Action) (t : Sys) (hs : NoLateDrain s) (hok : DrainsOpen s a)
    (h : step size s a = some t) : NoLateDrain t := by
  intro hclosed g hg
  cases a with
  | call k c =>
    obtain ⟨-, rfl⟩ := step_call h
    by_cases hkg : g = k
    · subst hkg
      have henter : c.enter = .drain := (Function.update_self (f := s.pcs) g c.enter).symm.trans hg
      cases c with
      | drain => exact absurd (hclosed.symm.trans hok) (by decide)
      | fill | get | returnCh | close => cases henter
    · exact hs hclosed g ((Function.update_of_ne hkg ..).symm.trans hg)
  | run k choice =>
    have hdrain : s.pcs g = .drain := by
      obtain ⟨-, q, next, hr, rfl⟩ := step_run h
      by_cases hkg : g = k
      · subst hkg
        have hnext : next = .drain := (Function.update_self (f := s.pcs) g next).symm.trans hg
        exact (stepPc_effect hr).drains hnext
      · exact (Function.update_of_ne hkg ..).symm.trans hg
    cases hopen : s.shared.channelsClosed with
    | true => exact hs hopen g hdrain
    | false => exact absurd (hclosed.symm.trans (step_open hdrain hopen hok h)) (by decide)
  | lost which =>
    cases h
    exact hs hclosed g hg

/-! ### On the closed channel -/

theorem step_spins (s : Sys) (a : Action) (t : Sys)
    (hs : s.pcs g = .drain ∧ s.shared.channelsClosed = true) (h : step size s a = some t) :
    t.pcs g = .drain ∧ t.shared.channelsClosed = true := by
  obtain ⟨hpc, hclosed⟩ := hs
  have hstays : t.shared.channelsClosed = true := by
    cases a with
    | call k c =>
      obtain ⟨-, rfl⟩ := step_call h
      exact hclosed
    | run k choice =>
      obtain ⟨-, q, next, hr, rfl⟩ := step_run h
      exact (stepPc_effect hr).stays hclosed
    | lost which =>
      cases h
      exact hclosed
  refine ⟨?_, hstays⟩
  cases hround : a.isRound g with
  | false => exact step_keeps_drain hpc hround h
  | true =>
    unfold Action.isRound at hround
    split at hround
    · cases beq_iff_eq.mp hround
      rw [drain_round hpc h]
      exact (Function.update_self ..).trans (stepDrain_closed hclosed).2.2
    · cases hround

/-- Once the Go channel is closed, no run brings a goroutine out of `drain`. -/
theorem drain_spins {more : List Action} (hpc : s.pcs g = .drain) (hclosed : s.shared.channelsClosed = true)
    (h : exec (step size) s more = some u) : u.pcs g = .drain :=
  (exec_invariant (I := fun s => s.pcs g = .drain ∧ s.shared.channelsClosed = true) step_spins
    ⟨hpc, hclosed⟩ h).1

theorem rounds_enabled (size n : Nat) (halive : s.shared.panic = none) (hpc : s.pcs g = .drain)
    (hclosed : s.shared.channelsClosed = true) :
    (∃ u, exec (step size) s (List.replicate n (.run g .go)) = some u) ∧
      Meets (step size) (fun s a => AddsNone size s a ∧ DrainsOpen s a) s (List.replicate n (.run g .go)) := by
  induction n generalizing s with
  | zero => exact ⟨⟨s, rfl⟩, trivial⟩
  | succ n ih =>
    have hstep := drain_enabled size halive hpc
    obtain ⟨hstays, hpanic, hnext⟩ := stepDrain_closed hclosed
    obtain ⟨⟨u, hu⟩, hmeets⟩ := ih (s := ⟨(stepDrain s.shared).1, Function.update s.pcs g (stepDrain s.shared).2⟩)
      (hpanic.trans halive) ((Function.update_self ..).trans hnext) hstays
    refine ⟨⟨u, exec_cons_eq_some.mpr ⟨_, hstep, hu⟩⟩, ⟨?_, ?_⟩, ?_⟩
    · intro t ht
      cases hstep.symm.trans ht
      show (stepDrain s.shared).1.channels.length ≤ _
      unfold stepDrain
      split
      · rename_i hchannels
        rw [hchannels]
        exact Nat.le_succ _
      · exact Nat.le_refl _
    · intro hother
      rw [hpc] at hother
      cases hother
    · intro t ht
      cases hstep.symm.trans ht
      exact hmeets

theorem spinning_not_terminates (halive : s.shared.panic = none) (hpc : s.pcs g = .drain)
    (hclosed : s.shared.channelsClosed = true) : ¬ DrainsTerminate size s := by
  intro hterm
  obtain ⟨⟨u, hu⟩, hmeets⟩ := rounds_enabled size (s.shared.channels.length + 1) halive hpc hclosed
  have hcount : s.shared.channels.length <
      (List.replicate (s.shared.channels.length + 1) (Action.run g .go)).countP (Action.isRound g) := by
    rw [List.countP_replicate, if_pos (show Action.isRound g (.run g .go) = true from beq_self_eq_true g)]
    exact Nat.lt_succ_self _
  obtain ⟨pre, v, -, hv, hret, -⟩ := (hterm g hpc).2 _ u hu hmeets hcount
  have hspins := drain_spins hpc hclosed hv
  rw [hret] at hspins
  cases hspins

/-- For a pool of any size and any goroutines over it: every `drain` terminates and
leaves the pool empty in a run in which the Go channel is closed only while
nobody drains and no `drain` starts afterwards; one step outside that leaves a
goroutine in `drain` for ever. -/
theorem drain_exactGuard (size : Nat) :
    ExactGuard (step size) newChannelPool DrainsOpen (DrainsTerminate size) where
  holds := by
    intro as s h hok g hpc
    have hlate := exec_invariant_meets step_noLateDrain (show NoLateDrain newChannelPool from nofun) hok h
    have hopen : s.shared.channelsClosed = false := by
      rw [Bool.eq_false_iff]
      intro hclosed
      exact hlate hclosed g hpc
    refine ⟨fun halive => ⟨_, drain_enabled size halive hpc⟩, ?_⟩
    intro more u hu hmeets hrounds
    exact drain_returns hpc hopen hu hmeets hrounds
  fails := by
    intro as s a t _ ha hbad
    cases a with
    | call g c =>
      cases c with
      | drain =>
        obtain ⟨halive, rfl⟩ := step_call ha
        have hclosed : s.shared.channelsClosed = true := eq_true_of_ne_false hbad
        exact ⟨[], _, rfl, spinning_not_terminates halive (Function.update_self ..) hclosed⟩
      | fill | get | returnCh | close => exact absurd trivial hbad
    | run k choice =>
      cases choice with
      | go =>
        simp only [DrainsOpen, not_forall, not_not] at hbad
        obtain ⟨hpc, hopen, g, hg⟩ := hbad
        obtain ⟨halive, q, next, hr, rfl⟩ := step_run ha
        have hkg : g ≠ k := by
          rintro rfl
          rw [hg] at hpc
          cases hpc
        simp only [hpc, stepPc, hopen, Bool.false_eq_true, if_false, Option.some.injEq, Prod.mk.injEq] at hr
        obtain ⟨rfl, rfl⟩ := hr
        refine ⟨[], _, rfl, spinning_not_terminates (g := g) halive ?_ rfl⟩
        exact (Function.update_of_ne hkg ..).trans hg
      | fail e => exact absurd trivial hbad
    | lost which => exact absurd trivial hbad

-- `close` has run to its end; then a close handler drains.
def drainAfterClose : List Action :=
  [.call 0 .close, .run 0 .go, .run 0 .go, .run 0 .go, .run 0 .go, .call 1 .drain]

theorem drainAfterClose_spins :
    ∃ s, exec (step 1) newChannelPool drainAfterClose = some s ∧ s.shared.channels = [] ∧
      (∀ n, ∃ u, exec (step 1) s (List.replicate n (.run 1 .go)) = some u) ∧
      ∀ more u, exec (step 1) s more = some u → u.pcs 1 = .drain := by
  refine ⟨_, rfl, rfl, ?_, ?_⟩
  · intro n
    exact (rounds_enabled 1 n rfl rfl rfl).1
  · intro more u hu
    exact drain_spins rfl rfl hu

end Ghost.Rabbitmq.ChannelPool
