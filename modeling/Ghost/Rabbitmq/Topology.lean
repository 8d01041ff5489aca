import Ghost.Rabbitmq.Config

/-!
# Topology manager (rabbitmq/topology.go)

`DeclareExchange`, `DeclareQueue` and `BindQueue` open a channel, call the
broker and, on success, append the declaration to the client's topology cache.
`restoreTopology` replays the cache by calling them again. What the channel and
the broker answer is a parameter `Connection σ`, so the same code runs against a
scripted connection and against a broker model.
-/

namespace Ghost.Rabbitmq
open Go Amqp

structure TopologyCache where
  queues : List QueueConfig
  exchanges : List ExchangeConfig
  bindings : List BindingConfig
  deriving DecidableEq, Repr

def TopologyCache.empty : TopologyCache := ⟨[], [], []⟩

-- The client calls a declaration makes, over a state `σ` of everything behind them.
-- Each declare call receives the config and the contents of its argument map.
structure Connection (σ : Type) where
  createConsumerChannel : σ → Option Error × σ
  exchangeDeclare : ExchangeConfig → Table → σ → Option Error × σ
  queueDeclare : QueueConfig → Table → σ → Except Error String × σ
  queueBind : BindingConfig → Table → σ → Option Error × σ

-- What a topology manager works on: the store of argument maps, the cache, and
-- the state behind the connection.
structure Tm (σ : Type) where
  heap : Ref → Table
  next : Ref
  topology : TopologyCache
  env : σ

variable {σ : Type}

/-- A fresh map literal. -/
def Tm.alloc (s : Tm σ) (t : Table) : Ref × Tm σ :=
  (s.next, { s with heap := Function.update s.heap s.next t, next := s.next + 1 })

/-- The contents behind an `Args` field; a nil map reads as empty. -/
def Tm.table (s : Tm σ) : Option Ref → Table
  | none => []
  | some r => s.heap r

def declareExchange (a : Connection σ) (config : ExchangeConfig) (s : Tm σ) :
    Except Error Unit × Tm σ :=
  match a.createConsumerChannel s.env with
  | (some e, env) => (.error (e.annotate "failed to create channel"), { s with env := env })
  | (none, env) =>
    match a.exchangeDeclare config (s.table config.args) env with
    | (some e, env) =>
      (.error (e.annotate ("failed to declare exchange " ++ config.name)), { s with env := env })
    | (none, env) =>
      (.ok (), { s with
        env := env
        topology := { s.topology with exchanges := s.topology.exchanges ++ [config] } })

def bindQueue (a : Connection σ) (config : BindingConfig) (s : Tm σ) : Except Error Unit × Tm σ :=
  match a.createConsumerChannel s.env with
  | (some e, env) => (.error (e.annotate "failed to create channel"), { s with env := env })
  | (none, env) =>
    match a.queueBind config (s.table config.args) env with
    | (some e, env) =>
      (.error (e.annotate ("failed to bind queue " ++ config.queueName ++ " to exchange " ++
        config.exchange)), { s with env := env })
    | (none, env) =>
      (.ok (), { s with
        env := env
        topology := { s.topology with bindings := s.topology.bindings ++ [config] } })

/- The quorum argument goes into the caller's own map when there is one, and into
a map of this call otherwise; the config that is cached keeps its `Args` field. -/
def quorumArgs (qt : QueueType) (config : QueueConfig) (s : Tm σ) : Table × Tm σ :=
  if qt = .quorum ∧ config.durable = true then
    let t := (s.table config.args).set "x-queue-type" (.str "quorum")
    match config.args with
    | some r => (t, { s with heap := Function.update s.heap r t })
    | none => (t, s)
  else (s.table config.args, s)

def declareQueue (a : Connection σ) (qt : QueueType) (config : QueueConfig) (s : Tm σ) :
    Except Error String × Tm σ :=
  match a.createConsumerChannel s.env with
  | (some e, env) => (.error (e.annotate "failed to create channel"), { s with env := env })
  | (none, env) =>
    let (args, s) := quorumArgs qt config s
    match a.queueDeclare config args env with
    | (.error e, env) =>
      (.error (e.annotate ("failed to declare queue " ++ config.name)), { s with env := env })
    | (.ok name, env) =>
      (.ok name, { s with
        env := env
        topology := { s.topology with queues := s.topology.queues ++ [config] } })

-- `for _, x := range xs { if err := f(x); err != nil { return err } }`
def forEach {α β : Type} (f : α → Tm σ → Except Error β × Tm σ) :
    List α → Tm σ → Except Error Unit × Tm σ
  | [], s => (.ok (), s)
  | x :: xs, s =>
    match f x s with
    | (.error e, t) => (.error e, t)
    | (.ok _, t) => forEach f xs t

def restoreTopology (a : Connection σ) (qt : QueueType) (s : Tm σ) : Except Error Unit × Tm σ :=
  let snapshot := s.topology
  match forEach (declareExchange a) snapshot.exchanges { s with topology := .empty } with
  | (.error e, t) => (.error e, t)
  | (.ok (), t) =>
    match forEach (declareQueue a qt) snapshot.queues t with
    | (.error e, u) => (.error e, u)
    | (.ok (), u) => forEach (bindQueue a) snapshot.bindings u

def setupDeadLetterExchange (a : Connection σ) (qt : QueueType) (mainQueueName dlxName : String)
    (retryTTL : Int) (s : Tm σ) : Except Error Unit × Tm σ :=
  match declareExchange a { name := dlxName, kind := "topic", durable := true } s with
  | (.error e, s) => (.error (e.annotate "failed to declare DLX"), s)
  | (.ok (), s) =>
    let retryQueueName := mainQueueName ++ ".retry"
    let (retryArgs, s) := s.alloc [("x-message-ttl", .int retryTTL),
      ("x-dead-letter-exchange", .str ""), ("x-dead-letter-routing-key", .str mainQueueName)]
    match declareQueue a qt { name := retryQueueName, durable := true, args := some retryArgs } s with
    | (.error e, s) => (.error (e.annotate "failed to declare retry queue"), s)
    | (.ok _, s) =>
      match bindQueue a
          { queueName := retryQueueName, exchange := dlxName, routingKey := mainQueueName } s with
      | (.error e, s) => (.error (e.annotate "failed to bind retry queue"), s)
      | (.ok (), s) =>
        let parkingLotName := mainQueueName ++ ".parking-lot"
        match declareQueue a qt { name := parkingLotName, durable := true } s with
        | (.error e, s) => (.error (e.annotate "failed to declare parking lot queue"), s)
        | (.ok _, s) =>
          match bindQueue a
              { queueName := parkingLotName, exchange := dlxName,
                routingKey := mainQueueName ++ ".parking-lot" } s with
          | (.error e, s) => (.error (e.annotate "failed to bind parking lot queue"), s)
          | (.ok (), s) => (.ok (), s)

def setupQueueWithDLX (a : Connection σ) (qt : QueueType) (queueName dlxName : String) (s : Tm σ) :
    Except Error String × Tm σ :=
  let args : Table := [("x-dead-letter-exchange", .str dlxName),
    ("x-dead-letter-routing-key", .str queueName)]
  let (ref, s) := s.alloc (if qt = .quorum then args.set "x-queue-type" (.str "quorum") else args)
  match declareQueue a qt { name := queueName, durable := true, args := some ref } s with
  | (.error e, s) => (.error (e.annotate "failed to declare main queue with DLX"), s)
  | (.ok name, s) => (.ok name, s)

end Ghost.Rabbitmq
