import Ghost.Rabbitmq.Restore
import Ghost.Transition.Run
import Ghost.Transition.Threads
import Mathlib.Algebra.Ring.Int.Defs

/-!
# Client and channel pool (rabbitmq/client.go, rabbitmq/pool.go, rabbitmq/producer.go)

The client's shared memory and the goroutines over it: `NewClient`'s `connect`,
the close watchers, their drain-and-trigger goroutines, the reconnect loops,
`Close`, and the producers. One step of a goroutine is one atomic access to the
shared memory, one operation on the Go channel of the pool, or one call into the
AMQP library. The broker may drop a connection or close a single channel at any
time. `handleConnectionBlocked` only logs and is left out, as are deliveries.
-/

namespace Ghost.Rabbitmq.Client
open Go Threads

inductive ConnectionState where
  | disconnected
  | connecting
  | connected
  | closing
  deriving DecidableEq, Repr

/- Connections and channels are numbered in the order they are made. A channel is
usable while neither it nor its connection is closed. -/
structure Shared where
  state : ConnectionState
  -- `closeChan` is closed
  closeChan : Bool
  publisherConn : Option Nat
  consumerConn : Option Nat
  nextConn : Nat
  connOpen : Nat → Bool
  nextChan : Nat
  chanConn : Nat → Nat
  chanClosed : Nat → Bool
  -- the buffer of the Go channel `p.channels`, whether that is closed, and `p.closed`
  channels : List Nat
  channelsClosed : Bool
  poolClosed : Bool
  -- `mu`, held by `Close`
  mu : Bool
  topology : TopologyCache
  -- `NewClient` has returned the client, `Close` has been called
  ready : Bool
  closeCalled : Bool
  -- `Close` has stored `StateClosing`
  closeStored : Bool
  -- for each `fill` that returned nil: its connection, and the buffer at that moment
  fills : List (Nat × List Nat)
  panicked : Bool

namespace Shared

def chanOpen (s : Shared) (ch : Nat) : Bool := !s.chanClosed ch && s.connOpen (s.chanConn ch)

def closeConn (s : Shared) (c : Nat) : Shared := { s with connOpen := Function.update s.connOpen c false }

def closeCh (s : Shared) (ch : Nat) : Shared :=
  { s with chanClosed := Function.update s.chanClosed ch true }

def dial (s : Shared) : Shared :=
  { s with nextConn := s.nextConn + 1, connOpen := Function.update s.connOpen s.nextConn true }

def openCh (s : Shared) (conn : Nat) : Shared :=
  { s with
    nextChan := s.nextChan + 1
    chanConn := Function.update s.chanConn s.nextChan conn
    chanClosed := Function.update s.chanClosed s.nextChan false }

end Shared

def errNotConnected : Error := .new "ErrNotConnected" "rabbitmq: client not connected"

def isHealthy (s : Shared) : Bool := s.state = .connected

-- `got` is what the pool's `get` answers once the state has been read
def getPublisherChannel (s : Shared) (got : Except Error Nat) : Except Error Nat :=
  if s.state ≠ .connected then .error errNotConnected else got

-- `opened` is what `conn.Channel()` answers
def createConsumerChannel (s : Shared) (opened : Except Error Nat) : Except Error Nat :=
  if s.state ≠ .connected then .error errNotConnected
  else match opened with
    | .ok ch => .ok ch
    | .error e => .error (e.annotate "failed to create consumer channel")

/-! ### Goroutines -/

inductive ConnectPc where
  | storeConnecting
  | dialPub
  | dialCons (pub : Nat)
  | install (pub cons : Nat)
  | drain (pub cons : Nat)
  | fill (pub cons i : Nat)
  | confirm (pub cons i ch : Nat)
  | send (pub cons i ch : Nat)
  | storeConnected
  | watchPub
  | watchCons
  -- closing what was dialled, then returning the error
  | abort (conns : List Nat)
  deriving DecidableEq, Repr

inductive ClosePc where
  | storeClosing
  | closeChan
  | poolClosed
  | closeChannels
  | drainChannels
  | lock
  | closePub
  | closeCons
  deriving DecidableEq, Repr

inductive ProducerPc where
  | check (retried : Bool)
  | wait
  | poolCheck
  | receive
  | holding (ch : Nat)
  -- the three steps of `returnCh`
  | returnOpen (ch : Nat)
  | returnPool (ch : Nat)
  | returnSend (ch : Nat)
  deriving DecidableEq, Repr

inductive Goroutine where
  -- `connect`, called by `NewClient` or by a reconnect loop at some backoff
  | connect (loop : Option Int) (pc : ConnectPc)
  -- `reconnectWithBackoff`: in the select, before the state check, before its last store
  | waiting (backoff : Int)
  | check (backoff : Int)
  | stop
  | restore
  | restoring (rest : List Entry)
  | watcher (conn : Option Nat)
  -- the goroutine a watcher starts: `drain`, then `triggerReconnect`
  | draining
  | trigger
  -- before the compare-and-swap, from `StateConnected` or from `StateDisconnected`
  | cas (wasConnected : Bool)
  | close (pc : ClosePc)
  | producer (pc : ProducerPc)
  | done
  deriving DecidableEq

-- what the environment decides for a step
inductive Choice where
  | go
  | fail
  -- the `closeChan` case of a select
  | quit
  deriving DecidableEq, Repr

structure Result where
  shared : Shared
  next : Goroutine
  spawned : List Goroutine := []

-- an `int` of 64 bits
def wrap64 (x : Int) : Int := (x + 2 ^ 63) % 2 ^ 64 - 2 ^ 63

def nextBackoff (c : Config) (backoff : Int) : Int :=
  let backoff := wrap64 (backoff * 2)
  if backoff > c.reconnectMaxInterval then c.reconnectMaxInterval else backoff

def poolSize (c : Config) : Nat := c.channelPoolSize.toNat

-- One round of `drain`. On a closed channel the receive never falls through to the default.
def drainRound (s : Shared) (again next : Goroutine) : Result :=
  match s.channels with
  | ch :: rest => ⟨{ s with channels := rest }.closeCh ch, again, []⟩
  | [] => ⟨s, if s.channelsClosed then again else next, []⟩

-- the return of `connect`
def connected (s : Shared) : Option Int → Shared × Goroutine
  | none => ({ s with ready := true }, .done)
  | some _ => (s, .restore)

def failed (c : Config) : Option Int → Goroutine
  | none => .done
  | some backoff => .waiting (nextBackoff c backoff)

def stepConnect (c : Config) (s : Shared) (loop : Option Int) : ConnectPc → Choice → Option Result
  | .storeConnecting, .go => some ⟨{ s with state := .connecting }, .connect loop .dialPub, []⟩
  | .dialPub, .go => some ⟨s.dial, .connect loop (.dialCons s.nextConn), []⟩
  | .dialPub, .fail => some ⟨s, .connect loop (.abort []), []⟩
  | .dialCons pub, .go => some ⟨s.dial, .connect loop (.install pub s.nextConn), []⟩
  | .dialCons pub, .fail => some ⟨s, .connect loop (.abort [pub]), []⟩
  | .install pub cons, .go =>
    if s.mu then none
    else some ⟨{ s with publisherConn := some pub, consumerConn := some cons },
      .connect loop (.drain pub cons), []⟩
  | .drain pub cons, .go =>
    some (drainRound s (.connect loop (.drain pub cons)) (.connect loop (.fill pub cons 0)))
  | .fill pub cons i, .go =>
    if i < poolSize c then
      -- `conn.Channel()` succeeds only on an open connection
      if s.connOpen pub then
        some ⟨s.openCh pub, .connect loop (if c.publisherConfirms then .confirm pub cons i s.nextChan
          else .send pub cons i s.nextChan), []⟩
      else none
    else some ⟨{ s with fills := s.fills ++ [(pub, s.channels)] }, .connect loop .storeConnected, []⟩
  | .fill pub cons i, .fail =>
    if i < poolSize c then some ⟨s, .connect loop (.abort [pub, cons]), []⟩ else none
  | .confirm pub cons i ch, .go =>
    if s.chanOpen ch then some ⟨s, .connect loop (.send pub cons i ch), []⟩ else none
  | .confirm pub cons _ ch, .fail => some ⟨s.closeCh ch, .connect loop (.abort [pub, cons]), []⟩
  | .send pub cons i ch, .go =>
    if s.channelsClosed then some ⟨{ s with panicked := true }, .done, []⟩
    else if s.channels.length < poolSize c then
      some ⟨{ s with channels := s.channels ++ [ch] }, .connect loop (.fill pub cons (i + 1)), []⟩
    -- a full buffer blocks
    else none
  | .storeConnected, .go => some ⟨{ s with state := .connected }, .connect loop .watchPub, []⟩
  | .watchPub, .go => some ⟨s, .connect loop .watchCons, [.watcher s.publisherConn]⟩
  | .watchCons, .go =>
    some ⟨(connected s loop).1, (connected s loop).2, [.watcher s.consumerConn]⟩
  | .abort [], .go => some ⟨s, failed c loop, []⟩
  | .abort (conn :: conns), .go => some ⟨s.closeConn conn, .connect loop (.abort conns), []⟩
  | _, _ => none

def stepClose (s : Shared) : ClosePc → Option Result
  | .storeClosing => some ⟨{ s with state := .closing, closeStored := true }, .close .closeChan, []⟩
  | .closeChan =>
    if s.closeChan then some ⟨{ s with panicked := true }, .done, []⟩
    else some ⟨{ s with closeChan := true }, .close .poolClosed, []⟩
  | .poolClosed =>
    if s.poolClosed then some ⟨s, .close .lock, []⟩
    else some ⟨{ s with poolClosed := true }, .close .closeChannels, []⟩
  | .closeChannels => some ⟨{ s with channelsClosed := true }, .close .drainChannels, []⟩
  | .drainChannels =>
    match s.channels with
    | ch :: rest => some ⟨{ s with channels := rest }.closeCh ch, .close .drainChannels, []⟩
    | [] => some ⟨s, .close .lock, []⟩
  | .lock => if s.mu then none else some ⟨{ s with mu := true }, .close .closePub, []⟩
  | .closePub =>
    some ⟨match s.publisherConn with
      | none => s
      | some conn => s.closeConn conn, .close .closeCons, []⟩
  | .closeCons =>
    some ⟨{ (match s.consumerConn with
      | none => s
      | some conn => s.closeConn conn) with mu := false }, .done, []⟩

def stepProducer (c : Config) (s : Shared) : ProducerPc → Choice → Option Result
  | .check retried, .go =>
    some ⟨s, if s.state = .connected then .producer .poolCheck
      else if retried then .done else .producer .wait, []⟩
  | .wait, .go => some ⟨s, .producer (.check true), []⟩
  | .wait, .fail => some ⟨s, .done, []⟩
  | .poolCheck, .go => some ⟨s, if s.poolClosed then .done else .producer .receive, []⟩
  | .receive, .go =>
    match s.channels with
    | ch :: rest =>
      some ⟨{ s with channels := rest }, if s.chanOpen ch then .producer (.holding ch) else .done, []⟩
    | [] => if s.channelsClosed then some ⟨s, .done, []⟩ else none
  | .receive, .fail => some ⟨s, .done, []⟩
  -- the publish; whatever it returns, the deferred return follows
  | .holding ch, .go => some ⟨s, .producer (.returnOpen ch), []⟩
  | .returnOpen ch, .go => some ⟨s, if s.chanOpen ch then .producer (.returnPool ch) else .done, []⟩
  | .returnPool ch, .go =>
    if s.poolClosed then some ⟨s.closeCh ch, .done, []⟩ else some ⟨s, .producer (.returnSend ch), []⟩
  | .returnSend ch, .go =>
    if s.channelsClosed then some ⟨{ s with panicked := true }, .done, []⟩
    else if s.channels.length < poolSize c then
      some ⟨{ s with channels := s.channels ++ [ch] }, .done, []⟩
    else some ⟨s.closeCh ch, .done, []⟩
  | _, _ => none

def stepGoroutine (c : Config) (s : Shared) : Goroutine → Choice → Option Result
  | .connect loop pc, choice => stepConnect c s loop pc choice
  | .waiting backoff, .go => some ⟨s, .check backoff, []⟩
  | .waiting _, .quit => if s.closeChan then some ⟨s, .stop, []⟩ else none
  | .check backoff, .go =>
    some ⟨s, if s.state = .closing then .stop else .connect (some backoff) .storeConnecting, []⟩
  | .stop, .go => some ⟨{ s with state := .disconnected }, .done, []⟩
  | .restore, .go =>
    some ⟨{ s with topology := .empty }, .restoring s.topology.entries, []⟩
  | .restoring [], .go => some ⟨s, .done, []⟩
  | .restoring (e :: rest), .go =>
    if s.state = .connected then
      some ⟨{ s with topology := s.topology.add e }, .restoring rest, []⟩
    else none
  | .restoring (_ :: _), .fail => some ⟨s, .done, []⟩
  | .watcher (some conn), .go => if s.connOpen conn then none else some ⟨s, .done, [.draining]⟩
  | .watcher _, .quit => if s.closeChan then some ⟨s, .done, []⟩ else none
  | .draining, .go => some (drainRound s .draining .trigger)
  | .trigger, .go =>
    some ⟨s, match s.state with
      | .connected => .cas true
      | .disconnected => .cas false
      | .connecting | .closing => .done, []⟩
  | .cas wasConnected, .go =>
    if s.state = (if wasConnected then .connected else .disconnected) then
      some ⟨{ s with state := .connecting }, .done, [.waiting c.reconnectInitialInterval]⟩
    else some ⟨s, .trigger, []⟩
  | .close pc, .go => stepClose s pc
  | .producer pc, choice => stepProducer c s pc choice
  | _, _ => none

/-! ### The system -/

structure Sys where
  shared : Shared
  gs : List Goroutine

inductive Action where
  | run (i : Nat) (choice : Choice)
  | connLost (conn : Nat)
  | channelError (ch : Nat)
  | publish
  | close
  deriving DecidableEq

def step (c : Config) (s : Sys) : Action → Option Sys
  | .run i choice =>
    (s.gs[i]?).bind fun g => (stepGoroutine c s.shared g choice).map fun r =>
      ⟨r.shared, advance s.gs i r.next r.spawned⟩
  | .connLost conn =>
    if s.shared.connOpen conn then some { s with shared := s.shared.closeConn conn } else none
  | .channelError ch =>
    if s.shared.chanOpen ch then some { s with shared := s.shared.closeCh ch } else none
  | .publish =>
    if s.shared.ready then some { s with gs := s.gs ++ [.producer (.check false)] } else none
  -- `Close` is called once
  | .close =>
    if s.shared.ready ∧ s.shared.closeCalled = false then
      some ⟨{ s.shared with closeCalled := true }, s.gs ++ [.close .storeClosing]⟩
    else none

def newShared : Shared where
  state := .disconnected
  closeChan := false
  publisherConn := none
  consumerConn := none
  nextConn := 0
  connOpen := fun _ => false
  nextChan := 0
  chanConn := fun _ => 0
  chanClosed := fun _ => false
  channels := []
  channelsClosed := false
  poolClosed := false
  mu := false
  topology := .empty
  ready := false
  closeCalled := false
  closeStored := false
  fills := []
  panicked := false

/-- `NewClient` at its call of `connect`. -/
def newClient : Sys := ⟨newShared, [.connect none .storeConnecting]⟩

theorem step_run {c : Config} {s t : Sys} {i : Nat} {choice : Choice}
    (h : step c s (.run i choice) = some t) :
    ∃ g r, s.gs[i]? = some g ∧ stepGoroutine c s.shared g choice = some r ∧
      t = ⟨r.shared, advance s.gs i r.next r.spawned⟩ := by
  obtain ⟨g, hg, hr⟩ := Option.bind_eq_some_iff.mp h
  obtain ⟨r, hstep, hr⟩ := Option.map_eq_some_iff.mp hr
  exact ⟨g, r, hg, hstep, hr.symm⟩

end Ghost.Rabbitmq.Client
