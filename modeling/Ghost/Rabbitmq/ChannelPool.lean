import Ghost.Go.Errors
import Ghost.Transition.Run

/-!
# The channel pool and the goroutines that use it (rabbitmq/pool.go)

`channelPool` without the client around it. Any number of goroutines call
`fill`, `get`, `returnCh`, `drain` and `close`, each as often as it likes; one
step is one access to `closed`, to `mu` or to the Go channel `channels`, or one
call into the AMQP library. The listeners that `fill` starts for returned
messages do not touch the pool and are left out.
-/

namespace Ghost.Rabbitmq.ChannelPool
open Go Transition

inductive Panic where
  | sendOnClosed
  | closeOfClosed
  deriving DecidableEq, Repr

structure Shared where
  -- the buffer of the Go channel `channels`, and whether that is closed
  channels : List Nat
  channelsClosed : Bool
  closed : Bool
  mu : Bool
  nextChan : Nat
  -- `ch.IsClosed()`
  isClosed : Nat → Bool
  -- a panic ends the process
  panic : Option Panic

def Shared.closeCh (p : Shared) (ch : Nat) : Shared :=
  { p with isClosed := Function.update p.isClosed ch true }

def Shared.openCh (p : Shared) : Shared :=
  { p with nextChan := p.nextChan + 1, isClosed := Function.update p.isClosed p.nextChan false }

inductive Call where
  | fill (enableConfirms : Bool)
  | get
  | returnCh (ch : Option Nat)
  | drain
  | close

inductive Returned where
  | nothing
  | filled (err : Option Error)
  | got (ch : Except Error Nat)

inductive Pc where
  -- between two calls, with what the last one returned
  | idle (r : Returned)
  | fill (enableConfirms : Bool) (i : Nat)
  | confirm (i ch : Nat)
  | send (enableConfirms : Bool) (i ch : Nat)
  | getClosed
  | receive
  | returnOpen (ch : Option Nat)
  | returnClosed (ch : Nat)
  | returnSend (ch : Nat)
  | drain
  | swap
  | lock
  | closeChannels
  | closeDrain

-- how a call into the AMQP library or a select ends
inductive Choice where
  | go
  | fail (e : Error)

def errPoolClosed : Error := .new "get.closed" "channel pool is closed"
def errChannelClosed : Error := .new "get.channel" "channel is closed"

def Call.enter : Call → Pc
  | .fill enableConfirms => .fill enableConfirms 0
  | .get => .getClosed
  | .returnCh ch => .returnOpen ch
  | .drain => .drain
  | .close => .swap

def stepFill (size : Nat) (p : Shared) (enableConfirms : Bool) (i : Nat) : Choice → Shared × Pc
  | .go =>
    if i < size then
      (p.openCh, if enableConfirms then .confirm i p.nextChan else .send enableConfirms i p.nextChan)
    else (p, .idle (.filled none))
  | .fail e =>
    if i < size then
      (p, .idle (.filled (some (e.annotate ("failed to create channel " ++ toString i)))))
    else (p, .idle (.filled none))

def stepConfirm (p : Shared) (i ch : Nat) : Choice → Shared × Pc
  | .go => (p, .send true i ch)
  | .fail e =>
    (p.closeCh ch, .idle (.filled (some (e.annotate ("failed to enable confirms on channel " ++ toString i)))))

-- A full buffer blocks, a closed one panics.
def stepSend (size : Nat) (p : Shared) (enableConfirms : Bool) (i ch : Nat) : Option (Shared × Pc) :=
  if p.channelsClosed then some ({ p with panic := some .sendOnClosed }, .idle .nothing)
  else if p.channels.length < size then
    some ({ p with channels := p.channels ++ [ch] }, .fill enableConfirms (i + 1))
  else none

-- A receive from a closed and empty channel yields nil at once.
def stepReceive (p : Shared) : Choice → Option (Shared × Pc)
  | .go =>
    match p.channels with
    | ch :: rest =>
      some ({ p with channels := rest },
        .idle (.got (if p.isClosed ch then .error errChannelClosed else .ok ch)))
    | [] => if p.channelsClosed then some (p, .idle (.got (.error errChannelClosed))) else none
  | .fail ctxErr => some (p, .idle (.got (.error ctxErr)))

def stepReturnSend (size : Nat) (p : Shared) (ch : Nat) : Shared × Pc :=
  if p.channelsClosed then ({ p with panic := some .sendOnClosed }, .idle .nothing)
  else if p.channels.length < size then ({ p with channels := p.channels ++ [ch] }, .idle .nothing)
  else (p.closeCh ch, .idle .nothing)

-- One round of `drain`. The default is taken only on an open and empty channel.
def stepDrain (p : Shared) : Shared × Pc :=
  match p.channels with
  | ch :: rest => ({ p with channels := rest }.closeCh ch, .drain)
  | [] => (p, if p.channelsClosed then .drain else .idle .nothing)

def stepCloseDrain (p : Shared) : Shared × Pc :=
  match p.channels with
  | ch :: rest => ({ p with channels := rest }.closeCh ch, .closeDrain)
  | [] => ({ p with mu := false }, .idle .nothing)

def stepPc (size : Nat) (p : Shared) : Pc → Choice → Option (Shared × Pc)
  | .fill enableConfirms i, choice => some (stepFill size p enableConfirms i choice)
  | .confirm i ch, choice => some (stepConfirm p i ch choice)
  | .send enableConfirms i ch, .go => stepSend size p enableConfirms i ch
  | .getClosed, .go =>
    some (p, if p.closed then .idle (.got (.error errPoolClosed)) else .receive)
  | .receive, choice => stepReceive p choice
  | .returnOpen none, .go => some (p, .idle .nothing)
  | .returnOpen (some ch), .go => some (p, if p.isClosed ch then .idle .nothing else .returnClosed ch)
  | .returnClosed ch, .go =>
    if p.closed then some (p.closeCh ch, .idle .nothing) else some (p, .returnSend ch)
  | .returnSend ch, .go => some (stepReturnSend size p ch)
  | .drain, .go => some (stepDrain p)
  | .swap, .go =>
    if p.closed then some (p, .idle .nothing) else some ({ p with closed := true }, .lock)
  | .lock, .go => if p.mu then none else some ({ p with mu := true }, .closeChannels)
  | .closeChannels, .go =>
    if p.channelsClosed then some ({ p with panic := some .closeOfClosed }, .idle .nothing)
    else some ({ p with channelsClosed := true }, .closeDrain)
  | .closeDrain, .go => some (stepCloseDrain p)
  | _, _ => none

structure Sys where
  shared : Shared
  pcs : Nat → Pc

inductive Action where
  | call (g : Nat) (c : Call)
  | run (g : Nat) (choice : Choice)
  -- the broker closes some channels, or a connection is lost with all of its channels
  | lost (which : Nat → Bool)

def step (size : Nat) (s : Sys) : Action → Option Sys
  | .call g c =>
    match s.shared.panic, s.pcs g with
    | none, .idle _ => some { s with pcs := Function.update s.pcs g c.enter }
    | _, _ => none
  | .run g choice =>
    if s.shared.panic.isSome then none
    else (stepPc size s.shared (s.pcs g) choice).map fun r => ⟨r.1, Function.update s.pcs g r.2⟩
  | .lost which =>
    some { s with shared := { s.shared with isClosed := fun ch => which ch || s.shared.isClosed ch } }

/-- `newChannelPool`, before any call. -/
def newChannelPool : Sys where
  shared := ⟨[], false, false, false, 0, fun _ => false, none⟩
  pcs := fun _ => .idle .nothing

/-! ### What a step does to the flags -/

-- The goroutine may still send on `channels` in the call it is in.
def Pc.maySend (size : Nat) : Pc → Bool
  | .fill _ i => decide (i < size)
  | .confirm _ _ | .send _ _ _ | .returnSend _ => true
  | _ => false

-- The goroutine has won the swap of `closed` and has not closed `channels` yet.
def Pc.closing : Pc → Bool
  | .lock | .closeChannels => true
  | _ => false

inductive Flags (size : Nat) (p : Shared) (pc : Pc) (q : Shared) (next : Pc) : Prop where
  | quiet (hclosed : q.closed = p.closed) (hchannels : q.channelsClosed = p.channelsClosed)
      (hpanic : q.panic = p.panic) (hsend : next.maySend size = true → pc.maySend size = true)
      (hclosing : next.closing = true → pc.closing = true)
  | checked (hopen : p.closed = false) (hshared : q = p) (hclosing : next.closing = false)
  | swapped (hopen : p.closed = false) (hclosed : q.closed = true)
      (hchannels : q.channelsClosed = p.channelsClosed) (hpanic : q.panic = p.panic)
      (hsend : next.maySend size = false)
  | closed (hpc : pc = .closeChannels) (hclosed : q.closed = p.closed) (hchannels : q.channelsClosed = true)
      (hpanic : q.panic = p.panic) (hsend : next.maySend size = false) (hclosing : next.closing = false)
  | closedTwice (hpc : pc = .closeChannels) (hchannels : p.channelsClosed = true)
  | panicked (hsend : pc.maySend size = true) (hchannels : p.channelsClosed = true)

/- Whatever it does to the flags, no step opens the Go channel again, and only `drain`
itself goes on in `drain`. -/
structure Effect (size : Nat) (p : Shared) (pc : Pc) (q : Shared) (next : Pc) : Prop where
  flags : Flags size p pc q next
  stays : p.channelsClosed = true → q.channelsClosed = true
  drains : next = .drain → pc = .drain

variable {size : Nat} {p q : Shared} {pc next : Pc} {choice : Choice}

-- A step that leaves the flags alone and ends in a place from which nothing is sent or closed.
theorem effect_out (hclosed : q.closed = p.closed) (hchannels : q.channelsClosed = p.channelsClosed)
    (hpanic : q.panic = p.panic) (hsend : next.maySend size = false) (hclosing : next.closing = false)
    (hdrain : next ≠ .drain) : Effect size p pc q next := by
  refine ⟨.quiet hclosed hchannels hpanic ?_ ?_, fun h => hchannels.trans h, fun h => absurd h hdrain⟩
  · rw [hsend]
    exact nofun
  · rw [hclosing]
    exact nofun

theorem stepFill_effect (enableConfirms : Bool) (i : Nat) :
    Effect size p (.fill enableConfirms i) (stepFill size p enableConfirms i choice).1
      (stepFill size p enableConfirms i choice).2 := by
  by_cases hi : i < size
  · cases choice with
    | go =>
      have hfrom : (Pc.fill enableConfirms i).maySend size = true := decide_eq_true hi
      simp only [stepFill, if_pos hi]
      cases enableConfirms with
      | true => exact ⟨.quiet rfl rfl rfl (fun _ => hfrom) nofun, id, nofun⟩
      | false => exact ⟨.quiet rfl rfl rfl (fun _ => hfrom) nofun, id, nofun⟩
    | fail e =>
      simp only [stepFill, if_pos hi]
      exact effect_out rfl rfl rfl rfl rfl nofun
  · cases choice with
    | go =>
      simp only [stepFill, if_neg hi]
      exact effect_out rfl rfl rfl rfl rfl nofun
    | fail e =>
      simp only [stepFill, if_neg hi]
      exact effect_out rfl rfl rfl rfl rfl nofun

theorem stepSend_effect {enableConfirms : Bool} {i ch : Nat} {r : Shared × Pc}
    (h : stepSend size p enableConfirms i ch = some r) :
    Effect size p (.send enableConfirms i ch) r.1 r.2 := by
  unfold stepSend at h
  split at h
  · rename_i hclosed
    cases h
    exact ⟨.panicked rfl hclosed, id, nofun⟩
  · split at h
    · cases h
      exact ⟨.quiet rfl rfl rfl (fun _ => rfl) nofun, id, nofun⟩
    · cases h

theorem stepReceive_effect {r : Shared × Pc} (h : stepReceive p choice = some r) :
    Effect size p .receive r.1 r.2 := by
  unfold stepReceive at h
  split at h
  · split at h
    · cases h
      exact effect_out rfl rfl rfl rfl rfl nofun
    · split at h
      · cases h
        exact effect_out rfl rfl rfl rfl rfl nofun
      · cases h
  · cases h
    exact effect_out rfl rfl rfl rfl rfl nofun

theorem stepReturnSend_effect (ch : Nat) :
    Effect size p (.returnSend ch) (stepReturnSend size p ch).1 (stepReturnSend size p ch).2 := by
  unfold stepReturnSend
  split
  · rename_i hclosed
    exact ⟨.panicked rfl hclosed, id, nofun⟩
  · split
    · exact effect_out rfl rfl rfl rfl rfl nofun
    · exact effect_out rfl rfl rfl rfl rfl nofun

theorem stepDrain_effect : Effect size p .drain (stepDrain p).1 (stepDrain p).2 := by
  unfold stepDrain
  split
  · exact ⟨.quiet rfl rfl rfl nofun nofun, id, fun _ => rfl⟩
  · cases p.channelsClosed with
    | true => exact ⟨.quiet rfl rfl rfl nofun nofun, id, fun _ => rfl⟩
    | false => exact effect_out rfl rfl rfl rfl rfl nofun

theorem stepCloseDrain_effect : Effect size p pc (stepCloseDrain p).1 (stepCloseDrain p).2 := by
  unfold stepCloseDrain
  split
  · exact effect_out rfl rfl rfl rfl rfl nofun
  · exact effect_out rfl rfl rfl rfl rfl nofun

theorem stepPc_effect {r : Shared × Pc} (h : stepPc size p pc choice = some r) :
    Effect size p pc r.1 r.2 := by
  unfold stepPc at h
  split at h
  · cases h
    exact stepFill_effect ..
  · cases choice with
    | go =>
      cases h
      exact ⟨.quiet rfl rfl rfl (fun _ => rfl) nofun, id, nofun⟩
    | fail e =>
      cases h
      exact effect_out rfl rfl rfl rfl rfl nofun
  · exact stepSend_effect h
  · cases h
    cases p.closed with
    | true => exact effect_out rfl rfl rfl rfl rfl nofun
    | false => exact effect_out rfl rfl rfl rfl rfl nofun
  · exact stepReceive_effect h
  · cases h
    exact effect_out rfl rfl rfl rfl rfl nofun
  · rename_i ch
    cases h
    cases p.isClosed ch with
    | true => exact effect_out rfl rfl rfl rfl rfl nofun
    | false => exact effect_out rfl rfl rfl rfl rfl nofun
  · split at h
    · cases h
      exact effect_out rfl rfl rfl rfl rfl nofun
    · rename_i hopen
      cases h
      exact ⟨.checked (Bool.eq_false_iff.mpr hopen) rfl rfl, id, nofun⟩
  · cases h
    exact stepReturnSend_effect _
  · cases h
    exact stepDrain_effect
  · split at h
    · cases h
      exact effect_out rfl rfl rfl rfl rfl nofun
    · rename_i hopen
      cases h
      exact ⟨.swapped (Bool.eq_false_iff.mpr hopen) rfl rfl rfl rfl, id, nofun⟩
  · split at h
    · cases h
    · cases h
      exact ⟨.quiet rfl rfl rfl nofun (fun _ => rfl), id, nofun⟩
  · split at h
    · rename_i hclosed
      cases h
      exact ⟨.closedTwice rfl hclosed, id, nofun⟩
    · cases h
      exact ⟨.closed rfl rfl rfl rfl rfl rfl, fun _ => rfl, nofun⟩
  · cases h
    exact stepCloseDrain_effect
  · cases h

/-! ### Shutting the pool down -/

def NeverPanics (s : Sys) : Prop := s.shared.panic = none

/- `close` closes `channels` only while no call of another goroutine may still
send there, and no `fill` that sends anything starts afterwards. -/
def NoSender (size : Nat) (s : Sys) : Action → Prop
  | .call _ (.fill _) => s.shared.channelsClosed = true → size = 0
  | .run g .go => s.pcs g = .closeChannels → ∀ k, (s.pcs k).maySend size = false
  | _ => True

structure Safe (size : Nat) (s : Sys) : Prop where
  alive : s.shared.panic = none
  closers : ∀ g, (s.pcs g).closing = true → s.shared.closed = true ∧ s.shared.channelsClosed = false
  oneCloser : ∀ g k, (s.pcs g).closing = true → (s.pcs k).closing = true → g = k
  flagged : s.shared.channelsClosed = true → s.shared.closed = true
  senders : s.shared.channelsClosed = true → ∀ g, (s.pcs g).maySend size = false

theorem newChannelPool_safe : Safe size newChannelPool :=
  ⟨rfl, nofun, nofun, nofun, nofun⟩

theorem update_of_imp {f : Pc → Bool} {pcs : Nat → Pc} {g : Nat}
    (h : f next = true → f (pcs g) = true) {k : Nat} (hk : f (Function.update pcs g next k) = true) :
    f (pcs k) = true := by
  by_cases hkg : k = g
  · subst hkg
    rw [Function.update_self] at hk
    exact h hk
  · rwa [Function.update_of_ne hkg] at hk

theorem enter_safe {s : Sys} (hs : Safe size s) (g : Nat) (hclosing : next.closing = false)
    (hsend : s.shared.channelsClosed = true → next.maySend size = false) :
    Safe size { s with pcs := Function.update s.pcs g next } := by
  have himp : next.closing = true → (s.pcs g).closing = true := by
    rw [hclosing]
    exact nofun
  refine ⟨hs.alive, fun k hk => hs.closers k (update_of_imp himp hk), ?_, hs.flagged, ?_⟩
  · intro k l hk hl
    exact hs.oneCloser k l (update_of_imp himp hk) (update_of_imp himp hl)
  · intro hclosed k
    by_cases hkg : k = g
    · subst hkg
      show (Function.update s.pcs k next k).maySend size = false
      rw [Function.update_self]
      exact hsend hclosed
    · show (Function.update s.pcs g next k).maySend size = false
      rw [Function.update_of_ne hkg]
      exact hs.senders hclosed k

section Flags

variable {s : Sys} {g : Nat}

-- The goroutine that wins the swap of `closed` is the one that closes.
theorem Safe.swapped (hs : Safe size s) (hopen : s.shared.closed = false) (hclosed : q.closed = true)
    (hchannels : q.channelsClosed = s.shared.channelsClosed) (hpanic : q.panic = s.shared.panic) :
    Safe size ⟨q, Function.update s.pcs g next⟩ := by
  have hnone : ∀ k, (s.pcs k).closing = false := by
    intro k
    by_contra hk
    have hwon := (hs.closers k (eq_true_of_ne_false hk)).1
    rw [hopen] at hwon
    cases hwon
  have hself : ∀ k, (Function.update s.pcs g next k).closing = true → k = g := by
    intro k hk
    by_contra hkg
    rw [Function.update_of_ne hkg, hnone k] at hk
    cases hk
  have hunclosed : s.shared.channelsClosed = false := by
    by_contra hc
    have hflag := hs.flagged (eq_true_of_ne_false hc)
    rw [hopen] at hflag
    cases hflag
  refine ⟨hpanic.trans hs.alive, ?_, ?_, fun _ => hclosed, ?_⟩
  · intro k _
    exact ⟨hclosed, hchannels.trans hunclosed⟩
  · intro k l hk hl
    rw [hself k hk, hself l hl]
  · intro hc
    rw [hchannels, hunclosed] at hc
    cases hc

-- After the close nobody closes, and nobody may send.
theorem Safe.closed (hs : Safe size s) (hpc : s.pcs g = .closeChannels) (hclosed : q.closed = s.shared.closed)
    (hpanic : q.panic = s.shared.panic) (hsend : next.maySend size = false) (hclosing : next.closing = false)
    (hok : ∀ k, (s.pcs k).maySend size = false) : Safe size ⟨q, Function.update s.pcs g next⟩ := by
  have hwon : (s.pcs g).closing = true := by
    rw [hpc]
    rfl
  have hnone : ∀ k, (Function.update s.pcs g next k).closing = false := by
    intro k
    by_cases hkg : k = g
    · subst hkg
      rw [Function.update_self]
      exact hclosing
    · rw [Function.update_of_ne hkg]
      by_contra hk
      exact hkg (hs.oneCloser k g (eq_true_of_ne_false hk) hwon)
  refine ⟨hpanic.trans hs.alive, ?_, ?_, fun _ => hclosed.trans (hs.closers g hwon).1, ?_⟩
  · intro k hk
    rw [hnone k] at hk
    cases hk
  · intro k l hk
    rw [hnone k] at hk
    cases hk
  · intro _ k
    show (Function.update s.pcs g next k).maySend size = false
    by_cases hkg : k = g
    · subst hkg
      rw [Function.update_self]
      exact hsend
    · rw [Function.update_of_ne hkg]
      exact hok k

theorem flags_safe (hs : Safe size s) (h : Flags size s.shared (s.pcs g) q next)
    (hok : s.pcs g = .closeChannels → ∀ k, (s.pcs k).maySend size = false) :
    Safe size ⟨q, Function.update s.pcs g next⟩ := by
  cases h with
  | quiet hclosed hchannels hpanic hsend hclosing =>
    refine ⟨hpanic.trans hs.alive, ?_, ?_, ?_, ?_⟩
    · intro k hk
      rw [hclosed, hchannels]
      exact hs.closers k (update_of_imp hclosing hk)
    · intro k l hk hl
      exact hs.oneCloser k l (update_of_imp hclosing hk) (update_of_imp hclosing hl)
    · rw [hclosed, hchannels]
      exact hs.flagged
    · intro hc k
      have hbefore := hs.senders (hchannels.symm.trans hc)
      by_contra hk
      have hsent := update_of_imp (f := Pc.maySend size) hsend (eq_true_of_ne_false hk)
      rw [hbefore k] at hsent
      cases hsent
  | checked hopen hshared hclosing =>
    subst hshared
    apply enter_safe hs g hclosing
    intro hc
    rw [hs.flagged hc] at hopen
    cases hopen
  | swapped hopen hclosed hchannels hpanic hsend => exact hs.swapped hopen hclosed hchannels hpanic
  | closed hpc hclosed hchannels hpanic hsend hclosing => exact hs.closed hpc hclosed hpanic hsend hclosing (hok hpc)
  | closedTwice hpc hchannels =>
    have hopen := (hs.closers g (by rw [hpc]; rfl)).2
    rw [hchannels] at hopen
    cases hopen
  | panicked hsend hchannels =>
    rw [hs.senders hchannels g] at hsend
    cases hsend

end Flags

theorem step_call {s t : Sys} {g : Nat} {c : Call} (h : step size s (.call g c) = some t) :
    s.shared.panic = none ∧ t = ⟨s.shared, Function.update s.pcs g c.enter⟩ := by
  simp only [step] at h
  split at h
  · rename_i halive _
    cases h
    exact ⟨halive, rfl⟩
  · cases h

theorem step_run {s t : Sys} {g : Nat} {choice : Choice} (h : step size s (.run g choice) = some t) :
    s.shared.panic = none ∧ ∃ q next, stepPc size s.shared (s.pcs g) choice = some (q, next) ∧
      t = ⟨q, Function.update s.pcs g next⟩ := by
  simp only [step] at h
  split at h
  · cases h
  · rename_i halive
    obtain ⟨⟨q, next⟩, hr, rfl⟩ := Option.map_eq_some_iff.mp h
    exact ⟨Option.not_isSome_iff_eq_none.mp halive, q, next, hr, rfl⟩

theorem call_safe {s t : Sys} {g : Nat} {c : Call} (hs : Safe size s) (hok : NoSender size s (.call g c))
    (h : step size s (.call g c) = some t) : Safe size t := by
  obtain ⟨-, rfl⟩ := step_call h
  apply enter_safe hs g
  · cases c <;> rfl
  · intro hclosed
    cases c with
    | fill enableConfirms =>
      have hsize : size = 0 := hok hclosed
      subst hsize
      rfl
    | get | returnCh | drain | close => rfl

theorem step_safe (s : Sys) (a : Action) (t : Sys) (hs : Safe size s) (hok : NoSender size s a)
    (h : step size s a = some t) : Safe size t := by
  cases a with
  | call g c => exact call_safe hs hok h
  | run g choice =>
    obtain ⟨-, q, next, hr, rfl⟩ := step_run h
    apply flags_safe hs (stepPc_effect hr).flags
    intro hpc
    cases choice with
    | go => exact hok hpc
    | fail e =>
      rw [hpc] at hr
      cases hr
  | lost which =>
    cases h
    exact ⟨hs.alive, hs.closers, hs.oneCloser, hs.flagged, hs.senders⟩

/-! ### A send after the close -/

theorem run_eq {s : Sys} {g : Nat} {choice : Choice} (halive : s.shared.panic = none)
    (h : stepPc size s.shared (s.pcs g) choice = some (q, next)) :
    step size s (.run g choice) = some ⟨q, Function.update s.pcs g next⟩ := by
  simp only [step, halive, Option.isSome_none, Bool.false_eq_true, if_false, h, Option.map_some]

theorem send_panics {s : Sys} {g i ch : Nat} {enableConfirms : Bool} (halive : s.shared.panic = none)
    (hclosed : s.shared.channelsClosed = true) (hpc : s.pcs g = .send enableConfirms i ch) :
    ∃ more u, exec (step size) s more = some u ∧ ¬ NeverPanics u := by
  have hstep : stepPc size s.shared (s.pcs g) .go =
      some ({ s.shared with panic := some .sendOnClosed }, .idle .nothing) := by
    simp only [hpc, stepPc, stepSend, hclosed, if_true]
  exact ⟨_, _, exec_single (run_eq halive hstep), nofun⟩

-- A panic that can be reached after a step can be reached before it.
theorem panics_of_step {s : Sys} {g : Nat} (halive : s.shared.panic = none)
    (hstep : stepPc size s.shared (s.pcs g) .go = some (q, next))
    (h : ∃ more u, exec (step size) ⟨q, Function.update s.pcs g next⟩ more = some u ∧ ¬ NeverPanics u) :
    ∃ more u, exec (step size) s more = some u ∧ ¬ NeverPanics u := by
  obtain ⟨more, u, hu, hpanic⟩ := h
  exact ⟨.run g .go :: more, u, exec_cons_eq_some.mpr ⟨_, run_eq halive hstep, hu⟩, hpanic⟩

theorem confirm_panics {s : Sys} {g i ch : Nat} (halive : s.shared.panic = none)
    (hclosed : s.shared.channelsClosed = true) (hpc : s.pcs g = .confirm i ch) :
    ∃ more u, exec (step size) s more = some u ∧ ¬ NeverPanics u := by
  have hstep : stepPc size s.shared (s.pcs g) .go = some (s.shared, .send true i ch) := by
    simp only [hpc, stepPc, stepConfirm]
  apply panics_of_step halive hstep
  exact send_panics halive hclosed (Function.update_self ..)

theorem fill_panics {s : Sys} {g i : Nat} {enableConfirms : Bool} (halive : s.shared.panic = none)
    (hclosed : s.shared.channelsClosed = true) (hpc : s.pcs g = .fill enableConfirms i) (hi : i < size) :
    ∃ more u, exec (step size) s more = some u ∧ ¬ NeverPanics u := by
  cases enableConfirms with
  | true =>
    have hstep : stepPc size s.shared (s.pcs g) .go =
        some (s.shared.openCh, .confirm i s.shared.nextChan) := by
      simp only [hpc, stepPc, stepFill, if_pos hi, if_true]
    apply panics_of_step halive hstep
    exact confirm_panics halive hclosed (Function.update_self ..)
  | false =>
    have hstep : stepPc size s.shared (s.pcs g) .go =
        some (s.shared.openCh, .send false i s.shared.nextChan) := by
      simp only [hpc, stepPc, stepFill, if_pos hi, Bool.false_eq_true, if_false]
    apply panics_of_step halive hstep
    exact send_panics halive hclosed (Function.update_self ..)

/-- Whoever may still send on the closed channel can be run into it. -/
theorem sender_panics {s : Sys} (g : Nat) (halive : s.shared.panic = none)
    (hclosed : s.shared.channelsClosed = true) (hsend : (s.pcs g).maySend size = true) :
    ∃ more u, exec (step size) s more = some u ∧ ¬ NeverPanics u := by
  cases hpc : s.pcs g with
  | fill enableConfirms i =>
    rw [hpc] at hsend
    exact fill_panics halive hclosed hpc (of_decide_eq_true hsend)
  | confirm i ch => exact confirm_panics halive hclosed hpc
  | send enableConfirms i ch => exact send_panics halive hclosed hpc
  | returnSend ch =>
    have hstep : stepPc size s.shared (s.pcs g) .go =
        some ({ s.shared with panic := some .sendOnClosed }, .idle .nothing) := by
      simp only [hpc, stepPc, stepReturnSend, hclosed, if_true]
    exact ⟨_, _, exec_single (run_eq halive hstep), nofun⟩
  | _ =>
    rw [hpc] at hsend
    cases hsend

theorem fill_late_panics {s t : Sys} {g : Nat} {enableConfirms : Bool}
    (hclosed : s.shared.channelsClosed = true) (hsize : size ≠ 0)
    (h : step size s (.call g (.fill enableConfirms)) = some t) :
    ∃ more u, exec (step size) t more = some u ∧ ¬ NeverPanics u := by
  obtain ⟨halive, rfl⟩ := step_call h
  refine sender_panics g halive hclosed ?_
  show (Function.update s.pcs g _ g).maySend size = true
  rw [Function.update_self]
  exact decide_eq_true (Nat.pos_of_ne_zero hsize)

theorem close_under_sender_panics {s t : Sys} {g k : Nat} (hpc : s.pcs g = .closeChannels)
    (hsend : (s.pcs k).maySend size = true) (h : step size s (.run g .go) = some t) :
    ∃ more u, exec (step size) t more = some u ∧ ¬ NeverPanics u := by
  have hkg : k ≠ g := by
    intro hkg
    subst hkg
    rw [hpc] at hsend
    cases hsend
  obtain ⟨halive, q, next, hr, rfl⟩ := step_run h
  simp only [hpc, stepPc] at hr
  split at hr
  · cases hr
    exact ⟨[], _, rfl, nofun⟩
  · cases hr
    refine sender_panics k halive rfl ?_
    show (Function.update s.pcs g _ k).maySend size = true
    rw [Function.update_of_ne hkg]
    exact hsend

/-- For a pool of any size and any goroutines over it: nothing panics in a run in
which `close` closes the Go channel only while nobody may still send on it and
no `fill` starts afterwards; one step outside that leads to a panic. -/
theorem shutdown_exactGuard (size : Nat) :
    ExactGuard (step size) newChannelPool (NoSender size) NeverPanics where
  holds as s h hok := (exec_invariant_meets step_safe newChannelPool_safe hok h).alive
  fails := by
    intro as s a t _ ha hbad
    cases a with
    | call g c =>
      cases c with
      | fill enableConfirms =>
        simp only [NoSender, Classical.not_imp] at hbad
        exact fill_late_panics hbad.1 hbad.2 ha
      | get | returnCh | drain | close => exact absurd trivial hbad
    | run g choice =>
      cases choice with
      | go =>
        simp only [NoSender, not_forall, Bool.not_eq_false] at hbad
        obtain ⟨hpc, k, hsend⟩ := hbad
        exact close_under_sender_panics hpc hsend ha
      | fail e => exact absurd trivial hbad
    | lost which => exact absurd trivial hbad

/- One channel. Goroutine 1 has checked it out and returns it: `returnCh` has seen
`closed` unset when goroutine 2 runs `close` up to the close of the Go channel. -/
def returnDuringClose : List Action :=
  [.call 0 (.fill false), .run 0 .go, .run 0 .go, .run 0 .go, .call 1 .get, .run 1 .go, .run 1 .go,
    .call 1 (.returnCh (some 0)), .run 1 .go, .run 1 .go,
    .call 2 .close, .run 2 .go, .run 2 .go, .run 2 .go, .run 1 .go]

theorem returnDuringClose_panics :
    ∃ s, exec (step 1) newChannelPool returnDuringClose = some s ∧
      s.shared.panic = some .sendOnClosed ∧ ¬ NeverPanics s :=
  ⟨_, rfl, rfl, nofun⟩

end Ghost.Rabbitmq.ChannelPool
