import Ghost.Amqp.Confirm
import Ghost.Rabbitmq.Steps

/-!
# Publishing (rabbitmq/producer.go)

`PublishMessage` and `PublishBatch` over the client of `Client.lean`, with the
channels of the pool seen from both ends. A call takes a channel from the pool,
sends its message down the channel, and with publisher confirms waits for the
broker's verdict; the channel is returned in any case. The broker may change its
topology, refuse a message and lose a connection at any time.
-/

namespace Ghost.Rabbitmq.Publish
open Go Amqp Threads

/-! ### The message -/

structure ProducerConfig extends Config where
  mandatory : Bool
  persistentDelivery : Bool
  -- `OnReturn` is set
  onReturn : Bool

-- `Timestamp` in nanoseconds; a nil map of headers is `none`
structure PublishOptions where
  exchange : String := ""
  routingKey : String := ""
  mandatory : Bool := false
  immediate : Bool := false
  messageId : String := ""
  correlationId : String := ""
  replyTo : String := ""
  expiration : String := ""
  priority : UInt8 := 0
  type : String := ""
  appId : String := ""
  userId : String := ""
  contentType : String := ""
  contentEncoding : String := ""
  timestamp : Int := 0
  deliveryMode : UInt8 := 0
  headers : Option Table := none
  deriving DecidableEq

-- `amqp.Publishing`
structure Publishing where
  contentType : String
  contentEncoding : String
  body : List UInt8
  deliveryMode : UInt8
  priority : UInt8
  messageId : String
  correlationId : String
  replyTo : String
  expiration : String
  type : String
  appId : String
  userId : String
  timestamp : Int
  headers : Table
  deriving DecidableEq

abbrev Carrier := List (String × String)

-- `amqp.Transient` and `amqp.Persistent`
def transient : UInt8 := 1
def persistent : UInt8 := 2

/- The caller's headers with the trace context written over them. -/
def headers (opts : PublishOptions) (carrier : Carrier) : Table :=
  carrier.foldl (fun t p => t.set p.1 (.str p.2)) (opts.headers.getD [])

def deliveryMode (c : ProducerConfig) (opts : PublishOptions) : UInt8 :=
  if opts.deliveryMode ≠ 0 then opts.deliveryMode else if c.persistentDelivery then persistent else transient

def publishing (c : ProducerConfig) (opts : PublishOptions) (carrier : Carrier) (body : List UInt8) : Publishing where
  contentType := if opts.contentType = "" then "application/json" else opts.contentType
  contentEncoding := opts.contentEncoding
  body := body
  deliveryMode := deliveryMode c opts
  priority := opts.priority
  messageId := opts.messageId
  correlationId := opts.correlationId
  replyTo := opts.replyTo
  expiration := opts.expiration
  type := opts.type
  appId := opts.appId
  userId := opts.userId
  timestamp := opts.timestamp
  headers := headers opts carrier

def sendMessage (queueName : String) : PublishOptions := { exchange := "", routingKey := queueName }

/-! ### The calls -/

structure Setting (P : Type) where
  config : ProducerConfig
  marshal : P → Except Error (List UInt8)

-- A message is tagged with the call that sent it.
structure Sent where
  call : Nat
  publishing : Publishing
  deriving DecidableEq

inductive Stage where
  | getting
  -- in `dc.WaitContext`
  | waiting
  | over (err : Option Error)
  deriving DecidableEq

/- One call of `PublishMessage`, the `index`-th of its caller. `sentAt` is the
channel its message went down and the position there. -/
structure Call where
  caller : Nat
  index : Nat
  opts : PublishOptions
  carrier : Carrier
  body : List UInt8
  retried : Bool
  stage : Stage
  sentAt : Option (Nat × Nat)

/- A call of `PublishBatch`, or of `PublishMessage` with its one payload. -/
structure Caller (P : Type) where
  opts : PublishOptions
  payloads : List P
  batch : Bool
  -- the loop variable
  index : Nat
  -- the calls made so far, by goroutine
  calls : List Nat
  running : Bool
  result : Option (Option Error)

structure Sys (P : Type) where
  client : Client.Sys
  broker : Broker
  -- by caller
  ctxErr : Nat → Option Error
  callers : List (Caller P)
  -- by goroutine of the client
  calls : Nat → Option Call
  chans : Nat → PubChan Sent
  -- the calls whose message the broker has handled, in that order
  accepted : List Nat

variable {P : Type}

def newProducer (w : Setting P) : Sys P where
  client := Client.newClient
  broker := .empty
  ctxErr := fun _ => none
  callers := []
  calls := fun _ => none
  chans := fun _ => .new w.config.onReturn
  accepted := []

def errNacked : Error := .new "PublishMessage.nacked" "message was nacked by broker"
def errPoolClosed : Error := .new "get.closed" "channel pool is closed"
def errChannelClosed : Error := .new "get.channel" "channel is closed"

def getFailed (retried : Bool) (e : Error) : Error :=
  e.annotate (if retried then "failed to get publisher channel after retry" else "failed to get publisher channel")

def Call.fail (call : Call) (e : Error) : Call := { call with stage := .over (some e) }

def Call.publication (c : ProducerConfig) (i : Nat) (call : Call) : Publication Sent where
  exchange := call.opts.exchange
  key := call.opts.routingKey
  mandatory := if call.opts.mandatory then true else c.mandatory
  immediate := call.opts.immediate
  message := ⟨i, publishing c call.opts call.carrier call.body⟩

/- What a step of the goroutine means for its call. A select takes the case of the
context only once that has ended, and the channel is returned after the publish. -/
def Call.after (call : Call) (ctxErr : Option Error) (next : Client.Goroutine) :
    Client.ProducerPc → Client.Choice → Option Call
  | .check _, _ => some (if next = .done then call.fail (getFailed true Client.errNotConnected) else call)
  | .wait, .go => some { call with retried := true }
  | .wait, _ => ctxErr.map call.fail
  | .poolCheck, _ => some (if next = .done then call.fail (getFailed call.retried errPoolClosed) else call)
  | .receive, .go => some (if next = .done then call.fail (getFailed call.retried errChannelClosed) else call)
  | .receive, _ => ctxErr.map fun e => call.fail (getFailed call.retried e)
  | .holding _, _ =>
    match call.stage with
    | .over _ => some call
    | _ => none
  | _, _ => some call

namespace Sys

def setCall (s : Sys P) (i : Nat) (call : Call) : Sys P := { s with calls := Function.update s.calls i (some call) }

def setChan (s : Sys P) (ch : Nat) (c : PubChan Sent) : Sys P := { s with chans := Function.update s.chans ch c }

def setCaller (s : Sys P) (j : Nat) (caller : Caller P) : Sys P := { s with callers := s.callers.set j caller }

def setShared (s : Sys P) (shared : Client.Shared) : Sys P := { s with client := { s.client with shared := shared } }

end Sys

-- `ch.Confirm`, called by `fill`
def confirmed (s : Sys P) : Client.Goroutine → Client.Choice → Nat → PubChan Sent
  | .connect _ (.confirm _ _ _ ch), .go => Function.update s.chans ch { s.chans ch with confirming := true }
  | _, _ => s.chans

def moved (s : Sys P) (i : Nat) (g : Client.Goroutine) (choice : Client.Choice) (r : Client.Result) : Sys P :=
  { s with
    client := ⟨r.shared, advance s.client.gs i r.next r.spawned⟩
    chans := confirmed s g choice }

def stepRun (w : Setting P) (s : Sys P) (i : Nat) (choice : Client.Choice) : Option (Sys P) :=
  match s.client.gs[i]? with
  | none => none
  | some g =>
    match Client.stepGoroutine w.config.toConfig s.client.shared g choice with
    | none => none
    | some r =>
      match g with
      | .producer pc =>
        match s.calls i with
        | none => none
        | some call =>
          (call.after (s.ctxErr call.caller) r.next pc choice).map fun call' =>
            (moved s i (.producer pc) choice r).setCall i call'
      | g => some (moved s i g choice r)

def stepClient (w : Setting P) (s : Sys P) : Client.Action → Option (Sys P)
  | .run i choice => stepRun w s i choice
  -- a producer is started by its caller
  | .publish => none
  | a => (Client.step w.config.toConfig s.client a).map fun t => { s with client := t }

def sent (w : Setting P) (s : Sys P) (i ch : Nat) (call : Call) (stage : Stage) : Sys P :=
  (s.setCall i { call with sentAt := some (ch, (s.chans ch).sent.length), stage := stage }).setChan ch
    ((s.chans ch).publish (call.publication w.config i))

/- The publish itself. An error of the socket may come after the message has gone
out, and ends the connection. Without confirms, or on a channel that is not in
confirm mode, there is nothing to wait for. -/
def send (w : Setting P) (s : Sys P) (i : Nat) (err : Option Error) (gone : Bool) : Option (Sys P) :=
  match s.client.gs[i]?, s.calls i with
  | some (.producer (.holding ch)), some call =>
    if call.stage = .getting then
      match err with
      | some e =>
        let e := e.annotate "failed to publish message"
        if gone then
          if s.client.shared.chanOpen ch then
            some ((sent w s i ch call (.over (some e))).setShared
              (s.client.shared.closeConn (s.client.shared.chanConn ch)))
          else none
        else some (s.setCall i (call.fail e))
      | none =>
        if s.client.shared.chanOpen ch then
          some (sent w s i ch call
            (if w.config.publisherConfirms = true ∧ (s.chans ch).confirming = true then .waiting else .over none))
        else none
    else none
  | _, _ => none

-- the select of `dc.WaitContext`
def wait (s : Sys P) (i : Nat) (ctx : Bool) : Option (Sys P) :=
  match s.calls i with
  | none => none
  | some call =>
    match call.stage, call.sentAt with
    | .waiting, some (ch, p) =>
      if ctx then (s.ctxErr call.caller).map fun e => s.setCall i (call.fail e)
      else
        match (s.chans ch).outcome (s.client.shared.chanOpen ch) (p + 1) with
        | none => none
        | some true => some (s.setCall i { call with stage := .over none })
        | some false => some (s.setCall i (call.fail errNacked))
    | _, _ => none

def accept (s : Sys P) (ch : Nat) : Option (Sys P) :=
  match (s.chans ch).next with
  | none => none
  | some x =>
    ((s.chans ch).accept s.broker).map fun c => { s.setChan ch c with accepted := s.accepted ++ [x.message.call] }

-- An exception over the next message ends the channel, or the connection.
def exception (s : Client.Shared) (ch : Nat) (conn : Bool) : Client.Shared :=
  if s.chanOpen ch then if conn then s.closeConn (s.chanConn ch) else s.closeCh ch else s

def refuse (s : Sys P) (ch : Nat) (conn : Bool) : Option (Sys P) :=
  match (s.chans ch).next with
  | none => none
  | some _ =>
    some ((s.setChan ch { s.chans ch with refused := true }).setShared (exception s.client.shared ch conn))

/-! ### The callers -/

def Caller.fail (caller : Caller P) (e : Error) : Caller P :=
  { caller with
    running := false
    result := some (some
      (if caller.batch then e.annotate ("failed to publish message " ++ toString caller.index) else e)) }

def publishMessage (opts : PublishOptions) (payload : P) : Caller P := ⟨opts, [payload], false, 0, [], false, none⟩

def publishBatch (opts : PublishOptions) (payloads : List P) : Caller P := ⟨opts, payloads, true, 0, [], false, none⟩

def newCall (j : Nat) (caller : Caller P) (carrier : Carrier) (body : List UInt8) : Call where
  caller := j
  index := caller.index
  opts := caller.opts
  carrier := carrier
  body := body
  retried := false
  stage := .getting
  sentAt := none

def begun (s : Sys P) (j : Nat) (caller : Caller P) (carrier : Carrier) (body : List UInt8) (t : Client.Sys) : Sys P :=
  { s.setCaller j { caller with calls := caller.calls ++ [s.client.gs.length], running := true } with
    client := t
    calls := Function.update s.calls s.client.gs.length (some (newCall j caller carrier body)) }

-- the next round of the loop, with the trace context of its span
def begin (w : Setting P) (s : Sys P) (j : Nat) (carrier : Carrier) : Option (Sys P) :=
  match s.callers[j]? with
  | none => none
  | some caller =>
    if caller.running = true ∨ caller.result.isSome = true then none
    else
      match caller.payloads[caller.index]? with
      | none => some (s.setCaller j { caller with result := some none })
      | some payload =>
        match w.marshal payload with
        | .error e => some (s.setCaller j (caller.fail (e.annotate "failed to marshal payload")))
        | .ok body =>
          (Client.step w.config.toConfig s.client .publish).map fun t => begun s j caller carrier body t

-- `PublishMessage` returns
def finish (s : Sys P) (j : Nat) : Option (Sys P) :=
  match s.callers[j]? with
  | none => none
  | some caller =>
    match caller.running, caller.calls.getLast? with
    | true, some i =>
      match s.client.gs[i]?, s.calls i with
      | some .done, some call =>
        match call.stage with
        | .over none => some (s.setCaller j { caller with running := false, index := caller.index + 1 })
        | .over (some e) => some (s.setCaller j (caller.fail e))
        | _ => none
      | _, _ => none
    | _, _ => none

inductive Action (P : Type) where
  | client (a : Client.Action)
  | publishMessage (opts : PublishOptions) (payload : P)
  | publishBatch (opts : PublishOptions) (payloads : List P)
  | begin (j : Nat) (carrier : Carrier)
  | finish (j : Nat)
  | endCtx (j : Nat) (err : Error)
  | send (i : Nat) (err : Option Error) (gone : Bool)
  | wait (i : Nat) (ctx : Bool)
  | topology (b : Broker)
  | accept (ch : Nat)
  | refuse (ch : Nat) (conn : Bool)
  | confirm (ch tag : Nat) (multiple ack : Bool)
  | dispatch (ch : Nat)
  | listen (ch : Nat)

-- the channel the broker reads a message of
def Action.reads : Action P → Option Nat
  | .accept ch => some ch
  | _ => none

def step (w : Setting P) (s : Sys P) : Action P → Option (Sys P)
  | .client a => stepClient w s a
  | .publishMessage opts payload => some { s with callers := s.callers ++ [publishMessage opts payload] }
  | .publishBatch opts payloads => some { s with callers := s.callers ++ [publishBatch opts payloads] }
  | .begin j carrier => begin w s j carrier
  | .finish j => finish s j
  | .endCtx j err =>
    if s.ctxErr j = none then some { s with ctxErr := Function.update s.ctxErr j (some err) } else none
  | .send i err gone => send w s i err gone
  | .wait i ctx => wait s i ctx
  | .topology b => some { s with broker := b }
  | .accept ch => accept s ch
  | .refuse ch conn => refuse s ch conn
  | .confirm ch tag multiple ack => ((s.chans ch).confirm tag multiple ack).map (s.setChan ch)
  | .dispatch ch => if s.client.shared.chanOpen ch then ((s.chans ch).dispatch).map (s.setChan ch) else none
  | .listen ch => ((s.chans ch).listen).map (s.setChan ch)

/-! ### What a step can do -/

-- what may become of the client's memory under the broker: a connection or a channel ends
inductive Shut (s : Client.Shared) : Client.Shared → Prop where
  | same : Shut s s
  | conn (c : Nat) (h : s.connOpen c = true) : Shut s (s.closeConn c)
  | chan (ch : Nat) (h : s.chanOpen ch = true) : Shut s (s.closeCh ch)

theorem Shut.channels {s t : Client.Shared} (h : Shut s t) : t.channels = s.channels := by
  cases h <;> rfl

theorem connOpen_of_chanOpen {s : Client.Shared} {ch : Nat} (h : s.chanOpen ch = true) : s.connOpen (s.chanConn ch) = true := by
  simp only [Client.Shared.chanOpen, Bool.and_eq_true] at h
  exact h.2

theorem exception_shut (s : Client.Shared) (ch : Nat) (conn : Bool) : Shut s (exception s ch conn) := by
  unfold exception
  split
  · rename_i hopen
    split
    · exact .conn _ (connOpen_of_chanOpen hopen)
    · exact .chan ch hopen
  · exact .same

/- What the broker reads of a channel is on the label. -/
inductive Step (w : Setting P) (s : Sys P) : Option Nat → Sys P → Prop where
  | environment (b : Broker) (ctxErr : Nat → Option Error) : Step w s none { s with broker := b, ctxErr := ctxErr }
  | client (a : Client.Action) (t : Client.Sys) (h : Client.step w.config.toConfig s.client a = some t)
      (hgs : t.gs = s.client.gs ∨ t.gs = s.client.gs ++ [.close .storeClosing])
      (hbuf : t.shared.channels = s.client.shared.channels) : Step w s none { s with client := t }
  | goroutine (i : Nat) (g : Client.Goroutine) (choice : Client.Choice) (r : Client.Result)
      (hg : s.client.gs[i]? = some g)
      (hr : Client.stepGoroutine w.config.toConfig s.client.shared g choice = some r)
      (hother : ∀ pc, g ≠ .producer pc) : Step w s none (moved s i g choice r)
  | producer (i : Nat) (pc : Client.ProducerPc) (choice : Client.Choice) (r : Client.Result) (call call' : Call)
      (hg : s.client.gs[i]? = some (.producer pc))
      (hr : Client.stepGoroutine w.config.toConfig s.client.shared (.producer pc) choice = some r)
      (hcall : s.calls i = some call) (hafter : call.after (s.ctxErr call.caller) r.next pc choice = some call') :
      Step w s none ((moved s i (.producer pc) choice r).setCall i call')
  -- the publish fails, or the wait for its confirm
  | fails (i : Nat) (call : Call) (e : Error) (hcall : s.calls i = some call)
      (hstage : (∃ ch, s.client.gs[i]? = some (.producer (.holding ch)) ∧ call.stage = .getting) ∨ call.stage = .waiting) :
      Step w s none (s.setCall i (call.fail e))
  | acked (i : Nat) (call : Call) (ch p : Nat) (hcall : s.calls i = some call) (hstage : call.stage = .waiting)
      (hat : call.sentAt = some (ch, p)) (hv : (s.chans ch).verdict (p + 1) = some true) :
      Step w s none (s.setCall i { call with stage := .over none })
  | sent (i ch : Nat) (call : Call) (stage : Stage) (shared : Client.Shared)
      (hg : s.client.gs[i]? = some (.producer (.holding ch))) (hcall : s.calls i = some call)
      (hstage : call.stage = .getting) (hshut : Shut s.client.shared shared)
      (hnil : stage = .over none → w.config.publisherConfirms = false ∨ (s.chans ch).confirming = false)
      (hget : stage ≠ .getting) : Step w s none ((sent w s i ch call stage).setShared shared)
  | accept (ch : Nat) (x : Publication Sent) (hnext : (s.chans ch).next = some x) :
      Step w s (some ch) { s.setChan ch ((s.chans ch).handle x (s.broker.route x.exchange x.key)) with
        accepted := s.accepted ++ [x.message.call] }
  -- the broker and the library on a channel, neither end appending
  | chan (ch : Nat) (c : PubChan Sent) (shared : Client.Shared) (h : PubChan.Move (s.chans ch) c)
      (hsent : c.sent = (s.chans ch).sent) (hrouted : c.routed = (s.chans ch).routed)
      (hshut : Shut s.client.shared shared) : Step w s none ((s.setChan ch c).setShared shared)
  | called (caller : Caller P) (hnew : caller.index = 0 ∧ caller.calls = [] ∧ caller.running = false ∧ caller.result = none) :
      Step w s none { s with callers := s.callers ++ [caller] }
  | exhausted (j : Nat) (caller : Caller P) (hj : s.callers[j]? = some caller) (hidle : caller.running = false)
      (hopen : caller.result = none) (hend : caller.payloads[caller.index]? = none) :
      Step w s none (s.setCaller j { caller with result := some none })
  | unmarshalled (j : Nat) (caller : Caller P) (e : Error) (hj : s.callers[j]? = some caller)
      (hidle : caller.running = false) (hopen : caller.result = none) :
      Step w s none (s.setCaller j (caller.fail e))
  | begun (j : Nat) (caller : Caller P) (payload : P) (carrier : Carrier) (body : List UInt8) (t : Client.Sys)
      (hj : s.callers[j]? = some caller) (hidle : caller.running = false) (hopen : caller.result = none)
      (hpayload : caller.payloads[caller.index]? = some payload) (hbody : w.marshal payload = .ok body)
      (ht : Client.step w.config.toConfig s.client .publish = some t) : Step w s none (begun s j caller carrier body t)
  | finished (j : Nat) (caller : Caller P) (i : Nat) (call : Call) (hj : s.callers[j]? = some caller)
      (hrun : caller.running = true) (hlast : caller.calls.getLast? = some i) (hcall : s.calls i = some call)
      (hstage : call.stage = .over none) :
      Step w s none (s.setCaller j { caller with running := false, index := caller.index + 1 })
  | failed (j : Nat) (caller : Caller P) (i : Nat) (call : Call) (e : Error) (hj : s.callers[j]? = some caller)
      (hrun : caller.running = true) (hlast : caller.calls.getLast? = some i) (hcall : s.calls i = some call)
      (hstage : call.stage = .over (some e)) : Step w s none (s.setCaller j (caller.fail e))

section Cases

variable {w : Setting P} {s t : Sys P}

theorem stepRun_step {i : Nat} {choice : Client.Choice} (h : stepRun w s i choice = some t) : Step w s none t := by
  unfold stepRun at h
  split at h
  · cases h
  · rename_i g hg
    split at h
    · cases h
    · rename_i r hr
      split at h
      · rename_i pc
        split at h
        · cases h
        · rename_i call hcall
          obtain ⟨call', hafter, rfl⟩ := Option.map_eq_some_iff.mp h
          exact .producer i pc choice r call call' hg hr hcall hafter
      · rename_i hother
        cases h
        exact .goroutine i g choice r hg hr hother

theorem stepClient_step {a : Client.Action} (h : stepClient w s a = some t) : Step w s none t := by
  cases a with
  | run i choice => exact stepRun_step h
  | publish => cases h
  | connLost conn =>
    obtain ⟨t, ht, rfl⟩ := Option.map_eq_some_iff.mp h
    cases Client.step_sysStep ht with
    | connLost conn hopen => exact .client _ _ ht (.inl rfl) rfl
  | channelError ch =>
    obtain ⟨t, ht, rfl⟩ := Option.map_eq_some_iff.mp h
    cases Client.step_sysStep ht with
    | channelError ch hopen => exact .client _ _ ht (.inl rfl) rfl
  | close =>
    obtain ⟨t, ht, rfl⟩ := Option.map_eq_some_iff.mp h
    cases Client.step_sysStep ht with
    | close hready hnew => exact .client _ _ ht (.inr rfl) rfl

theorem send_step {i : Nat} {err : Option Error} {gone : Bool} (h : send w s i err gone = some t) : Step w s none t := by
  unfold send at h
  split at h
  · rename_i ch call hg hcall
    split at h
    · rename_i hstage
      cases err with
      | some e =>
        simp only at h
        split at h
        · split at h
          · rename_i hopen
            cases h
            exact .sent i ch call _ _ hg hcall hstage (.conn _ (connOpen_of_chanOpen hopen)) (fun h => (by cases h))
              (fun h => (by cases h))
          · cases h
        · cases h
          exact .fails i call _ hcall (.inl ⟨ch, hg, hstage⟩)
      | none =>
        simp only at h
        split at h
        · split at h
          · cases h
            exact .sent i ch call .waiting s.client.shared hg hcall hstage .same (fun h => (by cases h)) (fun h => (by cases h))
          · rename_i hconfirm
            cases h
            refine .sent i ch call (.over none) s.client.shared hg hcall hstage .same (fun _ => ?_) (fun h => (by cases h))
            rw [not_and_or, Bool.not_eq_true, Bool.not_eq_true] at hconfirm
            exact hconfirm
        · cases h
    · cases h
  · cases h

theorem wait_step {i : Nat} {ctx : Bool} (h : wait s i ctx = some t) : Step w s none t := by
  unfold wait at h
  split at h
  · cases h
  · rename_i call hcall
    split at h
    · rename_i ch p hstage hat
      split at h
      · obtain ⟨e, -, rfl⟩ := Option.map_eq_some_iff.mp h
        exact .fails i call e hcall (.inr hstage)
      · split at h
        · cases h
        · rename_i hout
          cases h
          exact .acked i call ch p hcall hstage hat (PubChan.outcome_eq_true hout)
        · cases h
          exact .fails i call errNacked hcall (.inr hstage)
    · cases h

theorem accept_step {ch : Nat} (h : accept s ch = some t) : Step w s (some ch) t := by
  unfold accept at h
  split at h
  · cases h
  · rename_i x hnext
    obtain ⟨c, hc, rfl⟩ := Option.map_eq_some_iff.mp h
    obtain ⟨y, hy, -, rfl⟩ := PubChan.accept_move hc
    obtain rfl : x = y := Option.some.inj (hnext.symm.trans hy)
    exact .accept ch x hnext

theorem refuse_step {ch : Nat} {conn : Bool} (h : refuse s ch conn = some t) : Step w s none t := by
  unfold refuse at h
  split at h
  · cases h
  · cases h
    exact .chan ch _ _ .refuse rfl rfl (exception_shut _ ch conn)

theorem begin_step {j : Nat} {carrier : Carrier} (h : begin w s j carrier = some t) : Step w s none t := by
  unfold begin at h
  split at h
  · cases h
  · rename_i caller hj
    split at h
    · cases h
    · rename_i hfree
      obtain ⟨hidle, hopen⟩ := not_or.mp hfree
      have hidle : caller.running = false := by simpa using hidle
      have hopen : caller.result = none := by simpa using hopen
      split at h
      · rename_i hend
        cases h
        exact .exhausted j caller hj hidle hopen hend
      · rename_i payload hpayload
        split at h
        · cases h
          exact .unmarshalled j caller _ hj hidle hopen
        · rename_i body hbody
          obtain ⟨u, hu, rfl⟩ := Option.map_eq_some_iff.mp h
          exact .begun j caller payload carrier body u hj hidle hopen hpayload hbody hu

theorem finish_step {j : Nat} (h : finish s j = some t) : Step w s none t := by
  unfold finish at h
  split at h
  · cases h
  · rename_i caller hj
    split at h
    · rename_i i hrun hlast
      split at h
      · rename_i call hg hcall
        split at h
        · rename_i hstage
          cases h
          exact .finished j caller i call hj hrun hlast hcall hstage
        · rename_i e hstage
          cases h
          exact .failed j caller i call e hj hrun hlast hcall hstage
        · cases h
      · cases h
    · cases h

theorem step_cases {a : Action P} (h : step w s a = some t) : Step w s a.reads t := by
  cases a with
  | client a => exact stepClient_step h
  | publishMessage opts payload =>
    cases h
    exact .called _ ⟨rfl, rfl, rfl, rfl⟩
  | publishBatch opts payloads =>
    cases h
    exact .called _ ⟨rfl, rfl, rfl, rfl⟩
  | begin j carrier => exact begin_step h
  | finish j => exact finish_step h
  | endCtx j err =>
    simp only [step] at h
    split at h
    · cases h
      exact .environment s.broker _
    · cases h
  | send i err gone => exact send_step h
  | wait i ctx => exact wait_step h
  | topology b =>
    cases h
    exact .environment b s.ctxErr
  | accept ch => exact accept_step h
  | refuse ch conn => exact refuse_step h
  | confirm ch tag multiple ack =>
    obtain ⟨c, hc, rfl⟩ := Option.map_eq_some_iff.mp h
    obtain ⟨hsent, hrouted⟩ := PubChan.confirm_ends hc
    exact .chan ch c s.client.shared (PubChan.confirm_move hc) hsent hrouted .same
  | dispatch ch =>
    simp only [step] at h
    split at h
    · obtain ⟨c, hc, rfl⟩ := Option.map_eq_some_iff.mp h
      obtain ⟨hsent, hrouted⟩ := PubChan.dispatch_ends hc
      exact .chan ch c s.client.shared (PubChan.dispatch_move hc) hsent hrouted .same
    · cases h
  | listen ch =>
    obtain ⟨c, hc, rfl⟩ := Option.map_eq_some_iff.mp h
    obtain ⟨hsent, hrouted⟩ := PubChan.listen_ends hc
    exact .chan ch c s.client.shared (PubChan.listen_move hc) hsent hrouted .same

end Cases

end Ghost.Rabbitmq.Publish
