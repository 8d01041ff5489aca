import Ghost.Amqp.Table
import Ghost.Go.Errors

/-!
# Configuration (rabbitmq/config.go)

The fields of `Config` that the modelled code reads, the validation
`ApplyDefaults`, and the declarations handed to the topology manager. A Go map
is a reference, so an `Args` field is a reference into a store of tables: two
configs may hold the same map, and writing through one is seen through the other.
-/

namespace Ghost.Rabbitmq
open Go

-- `QueueType` is a string type in the source; any other text is accepted too.
inductive QueueType where
  | quorum
  | classic
  | other (name : String)
  deriving DecidableEq, Repr

structure Config where
  url : String
  connectionName : String
  publisherConfirms : Bool
  channelPoolSize : Int
  prefetchCount : Int
  autoAck : Bool
  queueType : QueueType
  retryTTL : Int
  maxRetries : Int
  reconnectInitialInterval : Int
  reconnectMaxInterval : Int
  deriving DecidableEq, Repr

def errURLRequired : Error := .new "ErrURLRequired" "rabbitmq: URL is required"

-- the anonymous sentinels of `ApplyDefaults`
def required (what : String) : Error := .new what ("rabbitmq: " ++ what ++ " is required")

def applyDefaults (c : Config) : Except Error Unit :=
  if c.url = "" then .error errURLRequired
  else if c.connectionName = "" then .error (required "connection name")
  else if c.channelPoolSize ≤ 0 then .error (required "channel pool size")
  else if c.prefetchCount ≤ 0 then .error (required "prefetch count")
  else if c.queueType = .other "" then .error (required "queue type")
  else if c.retryTTL ≤ 0 then .error (required "retry TTL")
  else if c.maxRetries ≤ 0 then .error (required "max retries")
  else if c.reconnectInitialInterval ≤ 0 then .error (required "reconnect initial interval")
  else if c.reconnectMaxInterval ≤ 0 then .error (required "reconnect max interval")
  else .ok ()

-- `time.Second`, in nanoseconds
def second : Int := 1000000000

/-- `NewDefaultConfig`, with the URL the caller still has to set. -/
def newDefaultConfig (url : String) : Config where
  url := url
  connectionName := "go-service"
  publisherConfirms := false
  channelPoolSize := 10
  prefetchCount := 10
  autoAck := false
  queueType := .quorum
  retryTTL := 30 * second
  maxRetries := 3
  reconnectInitialInterval := 1 * second
  reconnectMaxInterval := 60 * second

theorem applyDefaults_ok {c : Config} (h : applyDefaults c = .ok ()) :
    0 < c.channelPoolSize ∧ 0 < c.prefetchCount ∧ 0 < c.maxRetries ∧
      0 < c.reconnectInitialInterval ∧ 0 < c.reconnectMaxInterval := by
  unfold applyDefaults at h
  obtain ⟨-, h⟩ := of_check_eq_ok h
  obtain ⟨-, h⟩ := of_check_eq_ok h
  obtain ⟨hpool, h⟩ := of_check_eq_ok h
  obtain ⟨hprefetch, h⟩ := of_check_eq_ok h
  obtain ⟨-, h⟩ := of_check_eq_ok h
  obtain ⟨-, h⟩ := of_check_eq_ok h
  obtain ⟨hretries, h⟩ := of_check_eq_ok h
  obtain ⟨hinitial, h⟩ := of_check_eq_ok h
  obtain ⟨hmax, -⟩ := of_check_eq_ok h
  omega

theorem newDefaultConfig_ok (url : String) (h : url ≠ "") :
    applyDefaults (newDefaultConfig url) = .ok () := by
  simp [applyDefaults, newDefaultConfig, h, second]

/-! ### Declarations -/

abbrev Ref := Nat

structure QueueConfig where
  name : String
  durable : Bool := false
  autoDelete : Bool := false
  exclusive : Bool := false
  noWait : Bool := false
  args : Option Ref := none
  deriving DecidableEq, Repr

structure ExchangeConfig where
  name : String
  kind : String
  durable : Bool := false
  autoDelete : Bool := false
  internal : Bool := false
  noWait : Bool := false
  args : Option Ref := none
  deriving DecidableEq, Repr

structure BindingConfig where
  queueName : String
  exchange : String
  routingKey : String
  noWait : Bool := false
  args : Option Ref := none
  deriving DecidableEq, Repr

end Ghost.Rabbitmq
