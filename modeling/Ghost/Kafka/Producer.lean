import Ghost.Go.Errors

/-!
# Producer (kafka/producer.go)

`Produce` turns a message into the record handed to the client; the client's own
`Produce` returns at once and reports through a callback later, so what is
modelled here is the record it starts. `SendToDLQ` builds the dead-letter message.
-/

namespace Ghost.Kafka
open Go

abbrev Bytes := List UInt8

-- A payload is either a byte slice or a value with its `json.Marshal` result.
inductive Payload where
  | bytes (b : Bytes)
  | value (marshal : Except Error Bytes)

structure Message where
  topic : String
  payload : Payload
  key : Bytes
  headers : List (String × String)

-- the fields of a `kgo.Record` that the producer sets
structure Outgoing where
  topic : String
  key : Bytes
  value : Bytes
  headers : List (String × String)
  deriving DecidableEq, Repr

def marshalPayload : Payload → Except Error Bytes
  | .bytes b => .ok b
  | .value (.ok b) => .ok b
  | .value (.error e) => .error (e.annotate "marshal error")

def produce (msg : Message) : Except Error Outgoing :=
  match marshalPayload msg.payload with
  | .error e => .error e
  | .ok data => .ok ⟨msg.topic, msg.key, data, msg.headers⟩

def dlqTopic (originalTopic : String) : String := originalTopic ++ ".dlq"

/- A Go string holds any bytes, so the key goes through `string(key)` and back unchanged. -/
def sendToDLQ (originalTopic : String) (value key : Bytes) (dlqErr : Error) (now : String) :
    Except Error Outgoing :=
  produce {
    topic := dlqTopic originalTopic
    payload := .bytes value
    key := key
    headers := [("origin_topic", originalTopic), ("dlq_timestamp", now),
      ("dlq_error", dlqErr.error)] }

/-- A byte payload needs no marshalling, so `SendToDLQ` always starts a produce. -/
theorem sendToDLQ_ok (originalTopic : String) (value key : Bytes) (dlqErr : Error) (now : String) :
    ∃ out, sendToDLQ originalTopic value key dlqErr now = .ok out ∧
      out.topic = dlqTopic originalTopic ∧ out.value = value ∧ out.key = key :=
  ⟨_, rfl, rfl, rfl, rfl⟩

end Ghost.Kafka
