import Ghost.Transition.Run
import Ghost.Transition.History
import Ghost.Transition.Threads
import Ghost.Transition.Padding
import Ghost.Transition.Reach
import Ghost.Transition.Simulation
import Ghost.Go.Errors
import Ghost.Go.ErrorTree
import Ghost.Go.Context
import Ghost.Go.Strings
import Ghost.Go.Panic
import Ghost.Go.Encoding
import Ghost.Go.Url
import Ghost.Store.Expiring
import Ghost.Store.Registry
import Ghost.Log.Partitioned
import Ghost.Sql.Database
import Ghost.Amqp.Table
import Ghost.Amqp.Broker
import Ghost.Amqp.Confirm
import Ghost.Amqp.Replay
import Ghost.OAuth2.State
import Ghost.OAuth2.Manager
import Ghost.OAuth2.Steps
import Ghost.OAuth2.OneTimeUse
import Ghost.OAuth2.ProviderBinding
import Ghost.OAuth2.Google
import Ghost.OAuth2.RequestBinding
import Ghost.OAuth2.StateExpiry
import Ghost.OAuth2.Handler
import Ghost.OAuth2.Utils
import Ghost.OAuth2.CodeBinding
import Ghost.Cache.CacheAside
import Ghost.Cache.Stampede
import Ghost.Cache.LockOwner
import Ghost.Cache.SingleFlight
import Ghost.Cache.Steps
import Ghost.Cache.LockRelease
import Ghost.Cache.RoundTrip
import Ghost.Cache.Isolation
import Ghost.Cache.Waiter
import Ghost.Cache.Freshness
import Ghost.Db.QueryTimeout
import Ghost.Db.Classify
import Ghost.Db.Transaction
import Ghost.Db.Client
import Ghost.Db.Atomicity
import Ghost.Db.Nesting
import Ghost.I18n.Translator
import Ghost.I18n.Fallback
import Ghost.Cryptoutil.Scrypt
import Ghost.Kafka.Producer
import Ghost.Kafka.Consumer
import Ghost.Kafka.Delivery
import Ghost.Kafka.DeadLetter
import Ghost.Kafka.Config
import Ghost.Kafka.Restart
import Ghost.Kafka.HandlerCalls
import Ghost.Rabbitmq.Config
import Ghost.Rabbitmq.Topology
import Ghost.Rabbitmq.Restore
import Ghost.Rabbitmq.DeadLetter
import Ghost.Rabbitmq.TopologyThreads
import Ghost.Rabbitmq.Reproduce
import Ghost.Rabbitmq.SharedExchange
import Ghost.Rabbitmq.Consumer
import Ghost.Rabbitmq.BatchConsumer
import Ghost.Rabbitmq.Retry
import Ghost.Rabbitmq.ParkingLot
import Ghost.Rabbitmq.ChannelPool
import Ghost.Rabbitmq.Drain
import Ghost.Rabbitmq.Client
import Ghost.Rabbitmq.Steps
import Ghost.Rabbitmq.Backoff
import Ghost.Rabbitmq.StateWriters
import Ghost.Rabbitmq.CloseFinal
import Ghost.Rabbitmq.Pool
import Ghost.Rabbitmq.Rebuild
import Ghost.Rabbitmq.Capacity
import Ghost.Rabbitmq.Lifecycle
import Ghost.Rabbitmq.Leak
import Ghost.Rabbitmq.Watchers
import Ghost.Rabbitmq.Notice
import Ghost.Rabbitmq.Restored
import Ghost.Rabbitmq.ConsumeLoop
import Ghost.Rabbitmq.ConsumeRestart
import Ghost.Rabbitmq.AtLeastOnce
import Ghost.Rabbitmq.Prefetch
import Ghost.Rabbitmq.Publish
import Ghost.Rabbitmq.PublishRun
import Ghost.Rabbitmq.PublishConfirm
import Ghost.Rabbitmq.PublishOrder
import Ghost.Rabbitmq.ChannelOwner
import Ghost.Rabbitmq.EndToEnd
