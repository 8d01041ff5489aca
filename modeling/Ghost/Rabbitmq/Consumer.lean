import Ghost.Amqp.Broker
import Ghost.Rabbitmq.Topology

/-!
# Consumer (rabbitmq/consumer.go)

`processDelivery` decides how one delivery is settled. JSON decoding is a
parameter, and the outcome of the settling call itself is an argument, since an
`Ack` that fails is reported while a `Nack` or `Reject` that fails is only logged.
The tracing calls do not influence the outcome and are left out.
-/

namespace Ghost.Rabbitmq
open Go Amqp

inductive Settlement where
  | ack
  | nackRequeue
  | reject
  deriving DecidableEq, Repr

structure Processed where
  handled : Bool
  settlement : Option Settlement
  err : Option Error
  deriving DecidableEq, Repr

def getRetryCount (delivery : Message) : Int :=
  match delivery.headers.get "x-death" with
  | some (.array xs) => xs.length
  | _ => 0

def processDelivery {V : Type} (c : Config) (unmarshal : List UInt8 → Except Error V)
    (delivery : Message) (handler : V → Message → Option Error) (autoAck : Bool)
    (settleErr : Option Error) : Processed :=
  match unmarshal delivery.body with
  | .error e =>
    ⟨false, if autoAck then none else some .reject, some (e.annotate "failed to unmarshal message")⟩
  | .ok msg =>
    match handler msg delivery with
    | some e =>
      ⟨true,
        if autoAck then none
        else if getRetryCount delivery ≥ c.maxRetries then some .reject
        else some .nackRequeue,
        some (e.annotate "handler error")⟩
    | none =>
      if autoAck then ⟨true, none, none⟩
      else ⟨true, some .ack, settleErr.map (·.annotate "failed to ack")⟩

theorem processDelivery_handled_iff {V : Type} {c : Config} {unmarshal : List UInt8 → Except Error V}
    {delivery : Message} {handler : V → Message → Option Error} {autoAck : Bool}
    {settleErr : Option Error} :
    (processDelivery c unmarshal delivery handler autoAck settleErr).handled = true ↔
      ∃ v, unmarshal delivery.body = .ok v := by
  unfold processDelivery
  cases hu : unmarshal delivery.body with
  | error e => simp
  | ok v =>
    cases hh : handler v delivery with
    | some e => simp [hh]
    | none => cases autoAck <;> simp [hh]

/-! ### A message body

An object without fields, which `json.Unmarshal` accepts where it refuses an empty
body. -/

def emptyObject : List UInt8 := [0x7b, 0x7d]

def unmarshalObject (body : List UInt8) : Except Error Unit :=
  if body = emptyObject then .ok () else .error (.new "json.Unmarshal" "unexpected end of JSON input")

end Ghost.Rabbitmq
