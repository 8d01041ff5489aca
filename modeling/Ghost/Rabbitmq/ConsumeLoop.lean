import Ghost.Rabbitmq.Client
import Ghost.Rabbitmq.Consumer

/-!
# The consume loop (rabbitmq/consumer.go, StartConsumer)

`StartConsumer` together with the queue it consumes from. The broker sends
deliveries down the channel of the loop as far as the prefetch limit allows, may
cancel the consumer, and puts back what is unacknowledged when a channel ends. It
may also drop a waiting message: the queue has a limit or is purged or deleted,
the message expires or was not persistent, or another consumer takes it.
The context may end, the client may store any state (more than the goroutines of
the client can) and a channel may be lost at any time; with `AutoReconnect` the
loop is started again over a new channel.
-/

namespace Ghost.Rabbitmq.ConsumeLoop
open Go Amqp Transition

structure ConsumeOptions where
  queueName : String
  consumer : String := ""
  autoAck : Bool := false
  exclusive : Bool := false
  noLocal : Bool := false
  noWait : Bool := false
  args : Table := []
  autoReconnect : Bool := false
  deriving DecidableEq, Repr

/- What `ConsumeWithDefaults` passes on. -/
def consumeWithDefaults (queueName : String) : ConsumeOptions where
  queueName := queueName
  consumer := ""
  autoAck := false
  exclusive := false
  noLocal := false
  noWait := false
  args := []

structure Setting (V : Type) where
  config : Config
  opts : ConsumeOptions
  unmarshal : List UInt8 → Except Error V

def Setting.autoAck {V : Type} (w : Setting V) : Bool := if w.opts.autoAck then true else w.config.autoAck

/-! ### Channels and the queue -/

-- The tag counts the deliveries of a channel.
structure Delivery where
  chan : Nat
  tag : Nat
  message : Message
  deriving DecidableEq, Repr

-- the arguments of `ch.Consume`
structure Subscription where
  queue : String
  consumer : String
  autoAck : Bool
  exclusive : Bool
  noLocal : Bool
  noWait : Bool
  args : Table
  deriving DecidableEq, Repr

structure Chan where
  isOpen : Bool
  -- the limit the broker was told; zero is no limit
  prefetch : Nat
  subscription : Option Subscription
  -- how many deliveries were sent, and those of them the loop has not received
  sent : Nat
  buffer : List Delivery
  -- a cancellation in `cancelChan`
  cancelled : Option String

def Chan.opened : Chan := ⟨true, 0, none, 0, [], none⟩

/- Where `StartConsumer` stands. `closing` is the `ch.Close()` before the loop
returns `err`, `ended` the test of `startConsumerWithReconnect` on that error. -/
inductive Pc where
  | create
  | qos (ch : Nat)
  | consume (ch : Nat)
  | select (ch : Nat)
  | handling (ch : Nat) (d : Delivery)
  | settling (ch : Nat) (d : Delivery) (how : Settlement) (result : Option Error)
  | closing (ch : Nat) (err : Option Error)
  | ended (err : Option Error)
  | waiting
  | returned (err : Option Error)
  deriving DecidableEq

structure Sys where
  -- what the client's goroutines have stored last
  client : Client.Shared
  ctxErr : Option Error
  pc : Pc
  nextChan : Nat
  chans : Nat → Chan
  -- the queue: what waits, what was sent and not settled, and what has left it
  ready : List Message
  unacked : List Delivery
  acked : List Delivery
  rejected : List Delivery
  dropped : List Message
  published : List Message
  -- the loop: what it received, each handler call, each settling call, each error it logged
  received : List Delivery
  handled : List (Delivery × Option Error)
  settled : List (Delivery × Settlement)
  logged : List (Nat × Error)

namespace Sys

def start (client : Client.Shared) : Sys where
  client := client
  ctxErr := none
  pc := .create
  nextChan := 0
  chans := fun _ => { Chan.opened with isOpen := false }
  ready := []
  unacked := []
  acked := []
  rejected := []
  dropped := []
  published := []
  received := []
  handled := []
  settled := []
  logged := []

def setChan (s : Sys) (ch : Nat) (c : Chan) : Sys := { s with chans := Function.update s.chans ch c }

/- The end of a channel: whatever was sent down it and not settled waits again. -/
def lose (s : Sys) (ch : Nat) : Sys :=
  { s.setChan ch { s.chans ch with isOpen := false } with
    ready := (s.unacked.filter (·.chan == ch)).map (·.message) ++ s.ready
    unacked := s.unacked.filter (·.chan != ch) }

def unackedOn (s : Sys) (ch : Nat) : List Delivery := s.unacked.filter (·.chan == ch)

def send (s : Sys) (ch : Nat) (autoAck : Bool) (x : Message) (rest : List Message) : Sys :=
  let d : Delivery := ⟨ch, (s.chans ch).sent + 1, x⟩
  { s.setChan ch { s.chans ch with sent := (s.chans ch).sent + 1, buffer := (s.chans ch).buffer ++ [d] } with
    ready := rest
    unacked := if autoAck then s.unacked else s.unacked ++ [d]
    acked := if autoAck then s.acked ++ [d] else s.acked }

/- The broker sends the first waiting message. With automatic acknowledgement it
forgets it at once, and no limit applies. -/
def deliver (s : Sys) (ch : Nat) : Option Sys :=
  match (s.chans ch).subscription, s.ready with
  | some sub, x :: rest =>
    if (s.chans ch).isOpen = true ∧ (s.chans ch).cancelled = none ∧
        (sub.autoAck = true ∨ (s.chans ch).prefetch = 0 ∨ (s.unackedOn ch).length < (s.chans ch).prefetch) then
      some (s.send ch sub.autoAck x rest)
    else none
  | _, _ => none

-- The queue loses a waiting message, or another consumer gets it.
def drop (s : Sys) (x : Message) : Sys := { s with ready := s.ready.erase x, dropped := s.dropped ++ [x] }

/- A settling call arrives. The broker closes the channel over a tag it does not
know; a requeued message goes to either end. -/
def settle (s : Sys) (d : Delivery) (how : Settlement) (front : Bool) : Sys :=
  if d ∈ s.unacked then
    let s := { s with unacked := s.unacked.erase d }
    match how with
    | .ack => { s with acked := s.acked ++ [d] }
    | .nackRequeue => { s with ready := if front then d.message :: s.ready else s.ready ++ [d.message] }
    | .reject => { s with rejected := s.rejected ++ [d] }
  else s.lose d.chan

def log (s : Sys) (d : Delivery) (err : Option Error) : Sys :=
  { s with logged := s.logged ++ (err.map fun e => (d.tag, e)).toList }

@[simp] theorem setChan_chans_self (s : Sys) (ch : Nat) (c : Chan) : (s.setChan ch c).chans ch = c := by
  simp [setChan]

theorem setChan_chans_other (s : Sys) {ch x : Nat} (c : Chan) (h : x ≠ ch) :
    (s.setChan ch c).chans x = s.chans x := by
  simp [setChan, h]

-- An update of a channel that leaves a field of it alone leaves that field of every channel alone.
theorem setChan_field {α : Type} (f : Chan → α) (s : Sys) {ch : Nat} {c : Chan} (h : f c = f (s.chans ch)) (x : Nat) :
    f ((s.setChan ch c).chans x) = f (s.chans x) := by
  by_cases hx : x = ch
  · rw [hx, setChan_chans_self, h]
  · rw [setChan_chans_other s c hx]

theorem setChan_isOpen {s : Sys} {ch x : Nat} {c : Chan} (h : ((s.setChan ch c).chans x).isOpen = true)
    (hc : c.isOpen = (s.chans ch).isOpen) : (s.chans x).isOpen = true :=
  (s.setChan_field (fun c => c.isOpen) hc x).symm.trans h

theorem lose_field {α : Type} (f : Chan → α) (s : Sys) {ch : Nat}
    (h : f { s.chans ch with isOpen := false } = f (s.chans ch)) (x : Nat) :
    f ((s.lose ch).chans x) = f (s.chans x) :=
  s.setChan_field f h x

@[simp] theorem lose_isOpen_self (s : Sys) (ch : Nat) : ((s.lose ch).chans ch).isOpen = false := by
  simp [lose, setChan]

theorem lose_isOpen {s : Sys} {ch x : Nat} (h : ((s.lose ch).chans x).isOpen = true) :
    x ≠ ch ∧ (s.chans x).isOpen = true := by
  by_cases hx : x = ch
  · rw [hx, lose_isOpen_self] at h
    cases h
  · refine ⟨hx, ?_⟩
    rw [← s.setChan_chans_other { s.chans ch with isOpen := false } hx]
    exact h

section Settle

variable (s : Sys) (d : Delivery) (how : Settlement) (front : Bool)

-- Settling changes the queue, or ends the channel.
theorem settle_cases : (d ∈ s.unacked ∧ (s.settle d how front).chans = s.chans) ∨
    (d ∉ s.unacked ∧ s.settle d how front = s.lose d.chan) := by
  unfold settle
  by_cases hd : d ∈ s.unacked
  · left
    rw [if_pos hd]
    cases how <;> exact ⟨hd, rfl⟩
  · right
    rw [if_neg hd]
    exact ⟨hd, rfl⟩

theorem settle_eq : s.settle d how front = { s with
    chans := (s.settle d how front).chans
    ready := (s.settle d how front).ready
    unacked := (s.settle d how front).unacked
    acked := (s.settle d how front).acked
    rejected := (s.settle d how front).rejected } := by
  unfold settle
  split
  · cases how <;> rfl
  · rfl

@[simp] theorem settle_pc : (s.settle d how front).pc = s.pc := by rw [settle_eq]
@[simp] theorem settle_ctxErr : (s.settle d how front).ctxErr = s.ctxErr := by rw [settle_eq]
@[simp] theorem settle_nextChan : (s.settle d how front).nextChan = s.nextChan := by rw [settle_eq]
@[simp] theorem settle_received : (s.settle d how front).received = s.received := by rw [settle_eq]
@[simp] theorem settle_handled : (s.settle d how front).handled = s.handled := by rw [settle_eq]
@[simp] theorem settle_settled : (s.settle d how front).settled = s.settled := by rw [settle_eq]
@[simp] theorem settle_published : (s.settle d how front).published = s.published := by rw [settle_eq]
@[simp] theorem settle_dropped : (s.settle d how front).dropped = s.dropped := by rw [settle_eq]

variable {s d how front}

theorem settle_isOpen {x : Nat} (h : ((s.settle d how front).chans x).isOpen = true) :
    (s.chans x).isOpen = true := by
  rcases s.settle_cases d how front with ⟨-, hsame⟩ | ⟨-, hlost⟩
  · rw [hsame] at h
    exact h
  · rw [hlost] at h
    exact (lose_isOpen h).2

theorem settle_field {α : Type} (f : Chan → α) (hf : ∀ c : Chan, f { c with isOpen := false } = f c) (x : Nat) :
    f ((s.settle d how front).chans x) = f (s.chans x) := by
  rcases s.settle_cases d how front with ⟨-, hsame⟩ | ⟨-, hlost⟩
  · rw [hsame]
  · rw [hlost]
    exact s.lose_field f (hf _) x

end Settle

end Sys

/-! ### The loop -/

def errPrefetch : Error := .new "startConsumeLoop.prefetchCount" "prefetchCount must be > 0"

def errDeliveriesClosed : Error := .new "startConsumeLoop.deliveries" "delivery channel closed"

def errCancelled : Option String → Error
  | some reason => .new "startConsumeLoop.cancelChan" ("consumer cancelled by broker: " ++ reason)
  | none => .new "startConsumeLoop.cancelChan" "consumer cancelled by broker"

-- how a call of the loop ends, or which case of a select is taken
inductive Choice where
  | go
  | fail (e : Error)
  | ctx
  | cancel
  | delivery
  | closed
  | handled (result : Option Error)
  -- whether the call gets to the broker, what it returns, where a requeued message goes
  | settled (reached : Bool) (err : Option Error) (front : Bool)
  | tick

variable {V : Type}

-- the return of `startConsumeLoop`
def finish (w : Setting V) (err : Option Error) : Pc := if w.opts.autoReconnect then .ended err else .returned err

def create (w : Setting V) (s : Sys) (opened : Except Error Nat) : Sys :=
  match Client.createConsumerChannel s.client opened with
  | .error e => { s with pc := finish w (some (e.annotate "failed to create consumer channel")) }
  | .ok ch => { s.setChan ch .opened with nextChan := ch + 1, pc := .qos ch }

-- The library sends the limit as 16 bits.
def qos (w : Setting V) (s : Sys) (ch : Nat) : Sys :=
  { s.setChan ch { s.chans ch with prefetch := (w.config.prefetchCount % 65536).toNat } with pc := .consume ch }

def Setting.subscription (w : Setting V) : Subscription where
  queue := w.opts.queueName
  consumer := w.opts.consumer
  autoAck := w.autoAck
  exclusive := w.opts.exclusive
  noLocal := w.opts.noLocal
  noWait := w.opts.noWait
  args := w.opts.args

def consume (w : Setting V) (s : Sys) (ch : Nat) : Sys :=
  { s.setChan ch { s.chans ch with subscription := some w.subscription } with pc := .select ch }

def receive (s : Sys) (ch : Nat) (d : Delivery) (rest : List Delivery) : Sys :=
  { s.setChan ch { s.chans ch with buffer := rest } with pc := .handling ch d, received := s.received ++ [d] }

def process (w : Setting V) (d : Delivery) (result settleErr : Option Error) : Processed :=
  processDelivery w.config w.unmarshal d.message (fun _ _ => result) w.autoAck settleErr

def handle (w : Setting V) (s : Sys) (ch : Nat) (d : Delivery) (result : Option Error) : Sys :=
  let p := process w d result none
  let s := { s with handled := if p.handled then s.handled ++ [(d, result)] else s.handled }
  match p.settlement with
  | none => { s.log d p.err with pc := .select ch }
  | some how => { s with pc := .settling ch d how result }

def settled (w : Setting V) (s : Sys) (ch : Nat) (d : Delivery) (how : Settlement) (result : Option Error)
    (reached : Bool) (err : Option Error) (front : Bool) : Sys :=
  let s := { (s.log d (process w d result err).err) with pc := .select ch, settled := s.settled ++ [(d, how)] }
  if reached then s.settle d how front else s

def stepQos (w : Setting V) (s : Sys) (ch : Nat) (choice : Choice) : Option Sys :=
  if w.config.prefetchCount ≤ 0 then some { s with pc := .closing ch (some errPrefetch) }
  else match choice with
    | .go => if (s.chans ch).isOpen then some (qos w s ch) else none
    | .fail e => some { s with pc := .closing ch (some (e.annotate "failed to set QoS")) }
    | _ => none

def stepPc (w : Setting V) (s : Sys) : Pc → Choice → Option Sys
  | .create, .go => some (create w s (.ok s.nextChan))
  | .create, .fail e => some (create w s (.error e))
  | .qos ch, choice => stepQos w s ch choice
  | .consume ch, .go => if (s.chans ch).isOpen then some (consume w s ch) else none
  | .consume ch, .fail e => some { s with pc := .closing ch (some (e.annotate "failed to start consuming")) }
  | .select ch, .ctx => if s.ctxErr.isSome then some { s with pc := .closing ch s.ctxErr } else none
  -- the end of the channel closes `cancelChan` as it closes `deliveries`
  | .select ch, .cancel =>
    if (s.chans ch).cancelled.isSome = true ∨ (s.chans ch).isOpen = false then
      some { s with pc := .closing ch (some (errCancelled (s.chans ch).cancelled)) }
    else none
  | .select ch, .delivery =>
    match (s.chans ch).buffer with
    | d :: rest => some (receive s ch d rest)
    | [] => none
  -- what was not received at the end of a channel is dropped; a cancellation lets it be received first
  | .select ch, .closed =>
    if (s.chans ch).isOpen = false ∨ ((s.chans ch).cancelled.isSome = true ∧ (s.chans ch).buffer = []) then
      some { s with pc := .closing ch (some errDeliveriesClosed) }
    else none
  | .handling ch d, .handled result => some (handle w s ch d result)
  | .settling ch d how result, .settled reached err front =>
    if reached = true ∧ (s.chans ch).isOpen = false then none
    else some (settled w s ch d how result reached err front)
  | .closing ch err, .go => some { s.lose ch with pc := finish w err }
  | .ended err, .go =>
    some { s with pc := if err = none ∨ s.ctxErr.isSome = true then .returned err else .waiting }
  | .waiting, .ctx => if s.ctxErr.isSome then some { s with pc := .returned s.ctxErr } else none
  | .waiting, .tick => some { s with pc := if Client.isHealthy s.client then .create else .waiting }
  | _, _ => none

inductive Action where
  | client (shared : Client.Shared)
  | endCtx (err : Error)
  | publish (x : Message)
  | deliver (ch : Nat)
  | drop (x : Message)
  | lost (ch : Nat)
  | brokerCancel (ch : Nat) (reason : String)
  | run (choice : Choice)

def step (w : Setting V) (s : Sys) : Action → Option Sys
  | .client shared => some { s with client := shared }
  | .endCtx err => if s.ctxErr = none then some { s with ctxErr := some err } else none
  | .publish x => some { s with ready := s.ready ++ [x], published := s.published ++ [x] }
  | .deliver ch => s.deliver ch
  | .drop x => if x ∈ s.ready then some (s.drop x) else none
  | .lost ch => if (s.chans ch).isOpen then some (s.lose ch) else none
  | .brokerCancel ch reason =>
    if (s.chans ch).isOpen = true ∧ (s.chans ch).subscription.isSome = true then
      some (s.setChan ch { s.chans ch with cancelled := some reason })
    else none
  | .run choice => stepPc w s s.pc choice

/-! ### What a step can do -/

/- The transitions of `step`. `move` is any step of the loop that touches neither a
channel nor the queue. -/
inductive Moves (w : Setting V) (s : Sys) : Pc → Prop where
  | refused (e : Error) (hpc : s.pc = .create) : Moves w s (finish w (some e))
  | prefetch (ch : Nat) (hpc : s.pc = .qos ch) (hp : w.config.prefetchCount ≤ 0) :
      Moves w s (.closing ch (some errPrefetch))
  | qosFailed (ch : Nat) (e : Error) (hpc : s.pc = .qos ch) : Moves w s (.closing ch (some e))
  | consumeFailed (ch : Nat) (e : Error) (hpc : s.pc = .consume ch) : Moves w s (.closing ch (some e))
  | ctx (ch : Nat) (hpc : s.pc = .select ch) (hctx : s.ctxErr.isSome = true) : Moves w s (.closing ch s.ctxErr)
  | left (ch : Nat) (e : Error) (hpc : s.pc = .select ch)
      (hend : (s.chans ch).cancelled.isSome = true ∨ (s.chans ch).isOpen = false) : Moves w s (.closing ch (some e))
  | returned (err : Option Error) (hpc : s.pc = .ended err) (hend : err = none ∨ s.ctxErr.isSome = true) :
      Moves w s (.returned err)
  | waits (err : Option Error) (hpc : s.pc = .ended err) (hend : ¬ (err = none ∨ s.ctxErr.isSome = true)) :
      Moves w s .waiting
  | stopped (hpc : s.pc = .waiting) (hctx : s.ctxErr.isSome = true) : Moves w s (.returned s.ctxErr)
  | again (hpc : s.pc = .waiting) (hhealthy : Client.isHealthy s.client = true) : Moves w s .create
  | unhealthy (hpc : s.pc = .waiting) : Moves w s .waiting

inductive Step (w : Setting V) (s : Sys) : Sys → Prop where
  | client (shared : Client.Shared) : Step w s { s with client := shared }
  | endCtx (err : Error) (h : s.ctxErr = none) : Step w s { s with ctxErr := some err }
  | publish (x : Message) : Step w s { s with ready := s.ready ++ [x], published := s.published ++ [x] }
  | deliver (ch : Nat) (sub : Subscription) (x : Message) (rest : List Message)
      (hsub : (s.chans ch).subscription = some sub) (hready : s.ready = x :: rest)
      (hopen : (s.chans ch).isOpen = true)
      (hlimit : sub.autoAck = true ∨ (s.chans ch).prefetch = 0 ∨ (s.unackedOn ch).length < (s.chans ch).prefetch) :
      Step w s (s.send ch sub.autoAck x rest)
  | drop (x : Message) (hx : x ∈ s.ready) : Step w s (s.drop x)
  | lost (ch : Nat) (hopen : (s.chans ch).isOpen = true) : Step w s (s.lose ch)
  | brokerCancel (ch : Nat) (reason : String) :
      Step w s (s.setChan ch { s.chans ch with cancelled := some reason })
  | moves (pc : Pc) (h : Moves w s pc) : Step w s { s with pc := pc }
  | created (hpc : s.pc = .create) (hstate : s.client.state = .connected) :
      Step w s { s.setChan s.nextChan .opened with nextChan := s.nextChan + 1, pc := .qos s.nextChan }
  | qos (ch : Nat) (hpc : s.pc = .qos ch) (hopen : (s.chans ch).isOpen = true)
      (hp : 0 < w.config.prefetchCount) : Step w s (qos w s ch)
  | consume (ch : Nat) (hpc : s.pc = .consume ch) (hopen : (s.chans ch).isOpen = true) : Step w s (consume w s ch)
  | receive (ch : Nat) (d : Delivery) (rest : List Delivery) (hpc : s.pc = .select ch)
      (hbuf : (s.chans ch).buffer = d :: rest) : Step w s (receive s ch d rest)
  | handle (ch : Nat) (d : Delivery) (result : Option Error) (hpc : s.pc = .handling ch d) :
      Step w s (handle w s ch d result)
  | settled (ch : Nat) (d : Delivery) (how : Settlement) (result : Option Error) (reached : Bool)
      (err : Option Error) (front : Bool) (hpc : s.pc = .settling ch d how result)
      (hopen : reached = true → (s.chans ch).isOpen = true) :
      Step w s (settled w s ch d how result reached err front)
  | close (ch : Nat) (err : Option Error) (hpc : s.pc = .closing ch err) :
      Step w s { s.lose ch with pc := finish w err }

variable {w : Setting V} {s t : Sys}

theorem create_step (hpc : s.pc = .create) (opened : Except Error Nat) (hnext : ∀ ch, opened = .ok ch → ch = s.nextChan) :
    Step w s (create w s opened) := by
  unfold create Client.createConsumerChannel
  by_cases hstate : s.client.state = .connected
  · rw [if_neg (not_not_intro hstate)]
    cases opened with
    | error e => exact .moves _ (.refused _ hpc)
    | ok ch =>
      obtain rfl := hnext ch rfl
      exact .created hpc hstate
  · rw [if_pos hstate]
    exact .moves _ (.refused _ hpc)

theorem stepQos_step {ch : Nat} {choice : Choice} (hpc : s.pc = .qos ch) (h : stepQos w s ch choice = some t) :
    Step w s t := by
  unfold stepQos at h
  split at h
  · rename_i hp
    cases h
    exact .moves _ (.prefetch ch hpc hp)
  · rename_i hp
    split at h
    · split at h
      · rename_i hopen
        cases h
        exact .qos ch hpc hopen (by omega)
      · cases h
    · cases h
      exact .moves _ (.qosFailed ch _ hpc)
    · cases h

theorem stepPc_select {ch : Nat} {choice : Choice} (hpc : s.pc = .select ch)
    (h : stepPc w s (.select ch) choice = some t) : Step w s t := by
  cases choice with
  | ctx =>
    simp only [stepPc] at h
    split at h
    · rename_i hctx
      cases h
      exact .moves _ (.ctx ch hpc hctx)
    · cases h
  | cancel =>
    simp only [stepPc] at h
    split at h
    · rename_i hend
      cases h
      exact .moves _ (.left ch _ hpc hend)
    · cases h
  | delivery =>
    simp only [stepPc] at h
    split at h
    · rename_i d rest hbuf
      cases h
      exact .receive ch d rest hpc hbuf
    · cases h
  | closed =>
    simp only [stepPc] at h
    split at h
    · rename_i hend
      cases h
      exact .moves _ (.left ch _ hpc (hend.elim .inr fun h => .inl h.1))
    · cases h
  | go | fail | handled | settled | tick => simp [stepPc] at h

theorem stepPc_step {choice : Choice} (h : stepPc w s s.pc choice = some t) : Step w s t := by
  cases hpc : s.pc with
  | create =>
    rw [hpc] at h
    cases choice with
    | go =>
      cases h
      exact create_step hpc _ fun ch hch => (Except.ok.inj hch).symm
    | fail e =>
      cases h
      exact create_step hpc _ fun ch hch => by cases hch
    | _ => simp [stepPc] at h
  | qos ch =>
    rw [hpc] at h
    exact stepQos_step hpc h
  | consume ch =>
    rw [hpc] at h
    cases choice with
    | go =>
      simp only [stepPc] at h
      split at h
      · rename_i hopen
        cases h
        exact .consume ch hpc hopen
      · cases h
    | fail e =>
      cases h
      exact .moves _ (.consumeFailed ch _ hpc)
    | _ => simp [stepPc] at h
  | select ch =>
    rw [hpc] at h
    exact stepPc_select hpc h
  | handling ch d =>
    rw [hpc] at h
    cases choice with
    | handled result =>
      cases h
      exact .handle ch d result hpc
    | _ => simp [stepPc] at h
  | settling ch d how result =>
    rw [hpc] at h
    cases choice with
    | settled reached err front =>
      simp only [stepPc] at h
      split at h
      · cases h
      · rename_i hopen
        cases h
        refine .settled ch d how result reached err front hpc fun hr => ?_
        by_contra hclosed
        exact hopen ⟨hr, Bool.eq_false_iff.mpr hclosed⟩
    | _ => simp [stepPc] at h
  | closing ch err =>
    rw [hpc] at h
    cases choice with
    | go =>
      cases h
      exact .close ch err hpc
    | _ => simp [stepPc] at h
  | ended err =>
    rw [hpc] at h
    cases choice with
    | go =>
      cases h
      by_cases hend : err = none ∨ s.ctxErr.isSome = true
      · rw [if_pos hend]
        exact .moves _ (.returned err hpc hend)
      · rw [if_neg hend]
        exact .moves _ (.waits err hpc hend)
    | _ => simp [stepPc] at h
  | waiting =>
    rw [hpc] at h
    cases choice with
    | ctx =>
      simp only [stepPc] at h
      split at h
      · rename_i hctx
        cases h
        exact .moves _ (.stopped hpc hctx)
      · cases h
    | tick =>
      cases h
      by_cases hhealthy : Client.isHealthy s.client = true
      · rw [if_pos hhealthy]
        exact .moves _ (.again hpc hhealthy)
      · rw [if_neg hhealthy]
        exact .moves _ (.unhealthy hpc)
    | _ => simp [stepPc] at h
  | returned err =>
    rw [hpc] at h
    cases choice <;> simp [stepPc] at h

theorem deliver_step {ch : Nat} (h : s.deliver ch = some t) : Step w s t := by
  unfold Sys.deliver at h
  split at h
  · rename_i sub x rest hsub hready
    split at h
    · rename_i hguard
      cases h
      exact .deliver ch sub x rest hsub hready hguard.1 hguard.2.2
    · cases h
  · cases h

theorem step_cases {a : Action} (h : step w s a = some t) : Step w s t := by
  cases a with
  | client shared =>
    cases h
    exact .client shared
  | endCtx err =>
    simp only [step] at h
    split at h
    · rename_i hctx
      cases h
      exact .endCtx err hctx
    · cases h
  | publish x =>
    cases h
    exact .publish x
  | deliver ch => exact deliver_step h
  | drop x =>
    simp only [step] at h
    split at h
    · rename_i hx
      cases h
      exact .drop x hx
    · cases h
  | lost ch =>
    simp only [step] at h
    split at h
    · rename_i hopen
      cases h
      exact .lost ch hopen
    · cases h
  | brokerCancel ch reason =>
    simp only [step] at h
    split at h
    · cases h
      exact .brokerCancel ch reason
    · cases h
  | run choice => exact stepPc_step h

end Ghost.Rabbitmq.ConsumeLoop
