import Ghost.Rabbitmq.Steps

/-!
# Who writes the connection state (rabbitmq/client.go)

Seven kinds of step touch the state or decide who will: the unconditional stores
of `connect`, of a reconnect loop that gives up and of `Close`, the
compare-and-swap of `triggerReconnect`, and the check that lets a loop dial.
Every other step leaves the state alone and brings nobody closer to writing it.
-/

namespace Ghost.Rabbitmq.Client
open Go Threads Transition

-- inside `connect`, before its store of `StateConnected`
def Goroutine.dials : Goroutine → Nat
  | .connect _ (.abort _) | .connect _ .watchPub | .connect _ .watchCons => 0
  | .connect _ _ => 1
  | _ => 0

-- a reconnect loop that is not dialling
def Goroutine.loops : Goroutine → Nat
  | .connect loop (.abort _) => if loop.isSome then 1 else 0
  | .waiting _ | .check _ | .stop => 1
  | _ => 0

-- still to run `triggerReconnect`, or to start someone who will
def Goroutine.triggers : Goroutine → Nat
  | .connect _ .watchPub | .connect _ .watchCons => 1
  | .watcher _ | .draining | .trigger | .cas _ => 1
  | _ => 0

variable {c : Config} {s : Shared} {g : Goroutine} {choice : Choice} {r : Result}

-- A count over what the goroutine becomes and the goroutines it starts.
def Result.count (f : Goroutine → Nat) (r : Result) : Nat := f r.next + total f r.spawned

/-- What a step of `g` does to the state and to the three counts. -/
inductive StateEffect (s : Shared) (g : Goroutine) (r : Result) : Prop where
  | keep (hstate : r.shared.state = s.state) (hstored : r.shared.closeStored = s.closeStored)
      (hdials : r.count Goroutine.dials ≤ g.dials)
      (hloops : r.count Goroutine.dials + r.count Goroutine.loops ≤ g.dials + g.loops)
      (htriggers : g.triggers = 0 → r.count Goroutine.triggers = 0)
  | storeConnecting (hstate : r.shared.state = .connecting)
      (hstored : r.shared.closeStored = s.closeStored)
      (hg : g.dials = 1) (hdials : r.count Goroutine.dials = 1)
      (hloops : r.count Goroutine.loops = 0) (htriggers : r.count Goroutine.triggers = 0)
  | storeConnected (hstate : r.shared.state = .connected)
      (hstored : r.shared.closeStored = s.closeStored)
      (hg : g.dials = 1) (hdials : r.count Goroutine.dials = 0) (hloops : r.count Goroutine.loops = 0)
  | mayDial (hclosing : s.state ≠ .closing) (hstate : r.shared.state = s.state)
      (hstored : r.shared.closeStored = s.closeStored) (hg : g.loops = 1)
      (hdials : r.count Goroutine.dials = 1) (hloops : r.count Goroutine.loops = 0)
      (htriggers : r.count Goroutine.triggers = 0)
  | stop (hstate : r.shared.state = .disconnected) (hstored : r.shared.closeStored = s.closeStored)
      (hg : g.loops = 1) (hdials : r.count Goroutine.dials = 0)
      (hloops : r.count Goroutine.loops = 0) (htriggers : r.count Goroutine.triggers = 0)
  | swap (hfrom : s.state = .connected ∨ s.state = .disconnected)
      (hstate : r.shared.state = .connecting) (hstored : r.shared.closeStored = s.closeStored)
      (hg : g.triggers = 1) (hdials : r.count Goroutine.dials = 0)
      (hloops : r.count Goroutine.loops = 1) (htriggers : r.count Goroutine.triggers = 0)
  | storeClosing (hg : g = .close .storeClosing) (hstate : r.shared.state = .closing)
      (hdials : r.count Goroutine.dials = 0) (hloops : r.count Goroutine.loops = 0)
      (htriggers : r.count Goroutine.triggers = 0)

-- A step after which the goroutine has no part in the state any more.
theorem keep_out (hstate : r.shared.state = s.state) (hstored : r.shared.closeStored = s.closeStored)
    (hspawned : r.spawned = []) (hdials : r.next.dials = 0) (hloops : r.next.loops = 0)
    (htriggers : r.next.triggers = 0) : StateEffect s g r := by
  refine .keep hstate hstored ?_ ?_ ?_ <;> simp [Result.count, hspawned, hdials, hloops, htriggers]

-- A step that changes only how far a goroutine has come in its part.
theorem keep_same (hstate : r.shared.state = s.state) (hstored : r.shared.closeStored = s.closeStored)
    (hspawned : r.spawned = []) (hdials : r.next.dials = g.dials) (hloops : r.next.loops = g.loops)
    (htriggers : r.next.triggers = g.triggers) : StateEffect s g r := by
  refine .keep hstate hstored ?_ ?_ ?_ <;> simp [Result.count, hspawned, hdials, hloops, htriggers]

theorem drainRound_state {again next : Goroutine} (ha : again = g) (hdials : next.dials = g.dials)
    (hloops : next.loops = g.loops) (htriggers : next.triggers = g.triggers) :
    StateEffect s g (drainRound s again next) := by
  subst ha
  unfold drainRound
  split
  · exact keep_same rfl rfl rfl rfl rfl rfl
  · cases s.channelsClosed with
    | true => exact keep_same rfl rfl rfl rfl rfl rfl
    | false => exact keep_same rfl rfl rfl hdials hloops htriggers

theorem closeStep_state {pc : ClosePc} (h : CloseStep s pc r) : StateEffect s (.close pc) r := by
  cases h with
  | storeClosing => exact .storeClosing rfl rfl rfl rfl rfl
  | closePub => cases s.publisherConn <;> exact keep_out rfl rfl rfl rfl rfl rfl
  | closeCons => cases s.consumerConn <;> exact keep_out rfl rfl rfl rfl rfl rfl
  | _ => exact keep_out rfl rfl rfl rfl rfl rfl

theorem producerStep_state {pc : ProducerPc} (h : ProducerStep c s pc r) :
    StateEffect s (.producer pc) r := by
  cases h <;> exact keep_out rfl rfl rfl rfl rfl rfl

theorem failed_state (loop : Option Int) : (failed c loop).dials = 0 ∧
    (failed c loop).loops = (Goroutine.connect loop (.abort [])).loops ∧
    (failed c loop).triggers = 0 := by
  cases loop <;> exact ⟨rfl, rfl, rfl⟩

-- A failed dial leaves a loop to wait for its next attempt, and nobody else.
theorem abort_state {loop : Option Int} {pc : ConnectPc} (hpc : (Goroutine.connect loop pc).dials = 1)
    (hstate : r.shared.state = s.state) (hstored : r.shared.closeStored = s.closeStored)
    {conns : List Nat} (hnext : r.next = .connect loop (.abort conns)) (hspawned : r.spawned = []) :
    StateEffect s (.connect loop pc) r := by
  have hloops : (Goroutine.connect loop (.abort conns)).loops ≤ 1 := by
    cases loop <;> simp [Goroutine.loops]
  refine .keep hstate hstored ?_ ?_ ?_
  · simp [Result.count, hnext, hspawned, Goroutine.dials]
  · simp only [Result.count, hnext, hspawned, total_nil, hpc]
    show 0 + 0 + (_ + 0) ≤ _
    omega
  · simp [Result.count, hnext, hspawned, Goroutine.triggers]

theorem watchCons_state (loop : Option Int) :
    StateEffect s (.connect loop .watchCons)
      ⟨(connected s loop).1, (connected s loop).2, [.watcher s.consumerConn]⟩ := by
  refine .keep ?_ ?_ ?_ ?_ ?_ <;> cases loop <;>
    simp [connected, Result.count, Goroutine.dials, Goroutine.loops, Goroutine.triggers]

theorem connectStep_state {loop : Option Int} {pc : ConnectPc} (h : ConnectStep c s loop pc r) :
    StateEffect s (.connect loop pc) r := by
  cases h with
  | storeConnecting => exact .storeConnecting rfl rfl rfl rfl rfl rfl
  | dialPub | dialCons | install | openConfirm | openSend | filled | confirm | send =>
    exact keep_same rfl rfl rfl rfl rfl rfl
  | dialPubFailed | dialConsFailed | openFailed | confirmFailed => exact abort_state rfl rfl rfl rfl rfl
  | drain => exact drainRound_state rfl rfl rfl rfl
  | sendClosed => exact keep_out rfl rfl rfl rfl rfl rfl
  | storeConnected => exact .storeConnected rfl rfl rfl rfl rfl
  | watchPub =>
    refine .keep rfl rfl ?_ ?_ ?_ <;>
      simp [Result.count, Goroutine.dials, Goroutine.loops, Goroutine.triggers]
  | watchCons => exact watchCons_state loop
  | aborted =>
    obtain ⟨hdials, hloops, htriggers⟩ := failed_state (c := c) loop
    exact keep_same rfl rfl rfl hdials hloops htriggers
  | abort => cases loop <;> exact keep_same rfl rfl rfl rfl rfl rfl

theorem loopStep_state (h : LoopStep c s g r) : StateEffect s g r := by
  cases h with
  | tick | quit | giveUp | trigger | lostSwap => exact keep_same rfl rfl rfl rfl rfl rfl
  | restore | restored | declared | refused | dismissed | noTrigger => exact keep_out rfl rfl rfl rfl rfl rfl
  | retry backoff hstate => exact .mayDial hstate rfl rfl rfl rfl rfl rfl
  | stop => exact .stop rfl rfl rfl rfl rfl rfl
  | drain => exact drainRound_state rfl rfl rfl rfl
  | connClosed =>
    refine .keep rfl rfl ?_ ?_ ?_ <;>
      simp [Result.count, Goroutine.dials, Goroutine.loops, Goroutine.triggers]
  | swap wasConnected hstate =>
    refine .swap ?_ rfl rfl rfl rfl rfl rfl
    cases wasConnected with
    | true => exact .inl hstate
    | false => exact .inr hstate

/-- Every step of a goroutine is of one of the seven kinds. -/
theorem stepGoroutine_state (h : stepGoroutine c s g choice = some r) : StateEffect s g r := by
  cases stepGoroutine_cases h with
  | connect hstep => exact connectStep_state hstep
  | producer hstep => exact producerStep_state hstep
  | close hstep => exact closeStep_state hstep
  | loop hstep => exact loopStep_state hstep

/-! ### Counts over all goroutines -/

def Sys.dials (s : Sys) : Nat := total Goroutine.dials s.gs
def Sys.loops (s : Sys) : Nat := total Goroutine.loops s.gs
def Sys.triggers (s : Sys) : Nat := total Goroutine.triggers s.gs

structure Counts (s t : Sys) (g : Goroutine) (r : Result) : Prop where
  dials : t.dials + g.dials = s.dials + r.count Goroutine.dials
  loops : t.loops + g.loops = s.loops + r.count Goroutine.loops
  triggers : t.triggers + g.triggers = s.triggers + r.count Goroutine.triggers
  dials_le : g.dials ≤ s.dials
  loops_le : g.loops ≤ s.loops
  triggers_le : g.triggers ≤ s.triggers

theorem counts_advance {s : Sys} {i : Nat} (hg : s.gs[i]? = some g) (r : Result) :
    Counts s ⟨r.shared, advance s.gs i r.next r.spawned⟩ g r := by
  have hmem := List.mem_of_getElem? hg
  have htotal : ∀ f : Goroutine → Nat, total f (advance s.gs i r.next r.spawned) + f g =
      total f s.gs + r.count f := by
    intro f
    have h := total_advance (f := f) r.next r.spawned hg
    simp only [Result.count]
    omega
  exact ⟨htotal _, htotal _, htotal _, le_total hmem, le_total hmem, le_total hmem⟩

/- A step of the broker, the start of a producer and the call of `Close` leave the
state and the three counts as they are. -/
theorem step_state {s t : Sys} {a : Action} (h : step c s a = some t) :
    (∃ i choice g r, a = .run i choice ∧ s.gs[i]? = some g ∧ t.shared = r.shared ∧
      StateEffect s.shared g r ∧ Counts s t g r) ∨
    (t.shared.state = s.shared.state ∧ t.shared.closeStored = s.shared.closeStored ∧
      t.dials = s.dials ∧ t.loops = s.loops ∧ t.triggers = s.triggers) := by
  cases step_sysStep h with
  | run i choice g r hg hr =>
    exact .inl ⟨i, choice, g, r, rfl, hg, rfl, stepGoroutine_state hr, counts_advance hg r⟩
  | connLost conn hopen | channelError ch hopen =>
    exact .inr ⟨rfl, rfl, rfl, rfl, rfl⟩
  | publish hready | close hready hnew =>
    exact .inr ⟨rfl, rfl, by simp [Sys.dials, Goroutine.dials], by simp [Sys.loops, Goroutine.loops],
      by simp [Sys.triggers, Goroutine.triggers]⟩

/-! ### One dialler -/

/- At most one goroutine dials or is a loop that may, nobody while the state is
`StateConnected`, and while it is `StateDisconnected` nobody besides `NewClient`,
which then has no rival. -/
structure OneDialler (s : Sys) : Prop where
  one : s.dials + s.loops ≤ 1
  connected : s.shared.state = .connected → s.dials + s.loops = 0
  disconnected : s.shared.state = .disconnected → s.dials + s.loops = 0 ∨ s.triggers = 0

theorem newClient_oneDialler : OneDialler newClient := by
  refine ⟨by decide, ?_, fun _ => .inr rfl⟩
  intro h
  cases h

theorem oneDialler_of_state {t : Sys} (hone : t.dials + t.loops ≤ 1)
    (hstate : t.shared.state = .connecting ∨ t.shared.state = .closing) : OneDialler t := by
  refine ⟨hone, ?_, ?_⟩
  · intro h
    rw [h] at hstate
    rcases hstate with hstate | hstate <;> cases hstate
  · intro h
    rw [h] at hstate
    rcases hstate with hstate | hstate <;> cases hstate

theorem step_oneDialler (s : Sys) (a : Action) (t : Sys) (hs : OneDialler s)
    (h : step c s a = some t) : OneDialler t := by
  obtain ⟨hone, hconn, hdisc⟩ := hs
  rcases step_state h with ⟨i, choice, g, r, -, -, hshared, heff, hd, hl, ht, hgd, hgl, hgt⟩ |
    ⟨hstate, -, hd, hl, ht⟩
  · cases heff with
    | keep hstate hstored hdials hloops htriggers =>
      have hsame : t.shared.state = s.shared.state := by rw [hshared, hstate]
      refine ⟨by omega, ?_, ?_⟩
      · intro hs'
        have h0 := hconn (hsame ▸ hs')
        omega
      · intro hs'
        rcases hdisc (hsame ▸ hs') with h0 | h0
        · left
          omega
        · right
          have hz := htriggers (by omega)
          omega
    | storeConnecting hstate hstored hgone hdials hloops htriggers =>
      exact oneDialler_of_state (by omega) (.inl (by rw [hshared, hstate]))
    | storeConnected hstate hstored hgone hdials hloops =>
      refine ⟨by omega, fun _ => by omega, ?_⟩
      intro hs'
      rw [hshared, hstate] at hs'
      cases hs'
    | mayDial hclosing hstate hstored hgone hdials hloops htriggers =>
      have hsame : t.shared.state = s.shared.state := by rw [hshared, hstate]
      refine ⟨by omega, ?_, ?_⟩
      · intro hs'
        have h0 := hconn (hsame ▸ hs')
        omega
      · intro hs'
        rcases hdisc (hsame ▸ hs') with h0 | h0
        · omega
        · right
          omega
    | stop hstate hstored hgone hdials hloops htriggers =>
      refine ⟨by omega, ?_, fun _ => .inl (by omega)⟩
      intro hs'
      rw [hshared, hstate] at hs'
      cases hs'
    | swap hfrom hstate hstored hgone hdials hloops htriggers =>
      -- the goroutine that swaps is counted among the triggers, so nobody dials
      have h0 : s.dials + s.loops = 0 := by
        rcases hfrom with hfrom | hfrom
        · exact hconn hfrom
        · rcases hdisc hfrom with h0 | h0
          · exact h0
          · omega
      exact oneDialler_of_state (by omega) (.inl (by rw [hshared, hstate]))
    | storeClosing hgone hstate hdials hloops htriggers =>
      exact oneDialler_of_state (by omega) (.inr (by rw [hshared, hstate]))
  · rw [← hd, ← hl] at hone hconn
    rw [← hd, ← hl, ← ht] at hdisc
    exact ⟨hone, fun hs' => hconn (hstate ▸ hs'), fun hs' => hdisc (hstate ▸ hs')⟩

theorem run_oneDialler {as : List Action} {s : Sys} (h : exec (step c) newClient as = some s) :
    OneDialler s :=
  exec_invariant step_oneDialler newClient_oneDialler h

end Ghost.Rabbitmq.Client
