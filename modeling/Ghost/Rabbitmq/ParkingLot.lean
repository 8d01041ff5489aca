import Ghost.Rabbitmq.Retry

/-!
# The parking lot (rabbitmq/consumer.go with rabbitmq/topology.go)

A delivery that failed too often is rejected. `SetupQueueWithDLX` makes the main
queue dead-letter it under the main queue's own name, and under that key
`SetupDeadLetterExchange` has bound the retry queue. The parking lot is bound under
another key, which no queue dead-letters with.
-/

namespace Ghost.Rabbitmq.Retry
open Go Amqp Transition

variable {V : Type}

-- The queues a rejected delivery of the main queue goes to.
def Setting.rejectedTo (w : Setting V) (x : Message) : List String :=
  (w.broker.deadLetter w.mainQueue "rejected" x).1

/-- The delivery is rejected although it was handled: a delivery that does not
decode is rejected as well, but unhandled. -/
def RejectsHandled (w : Setting V) (x : Message) (handler : V → Message → Option Error) (autoAck : Bool)
    (settleErr : Option Error) : Prop :=
  (processDelivery w.config w.unmarshal x handler autoAck settleErr).handled = true ∧
    (processDelivery w.config w.unmarshal x handler autoAck settleErr).settlement = some .reject

-- The handler failed, and the retry count has reached the limit.
theorem rejectsHandled_iff {w : Setting V} {x : Message} {handler : V → Message → Option Error}
    {autoAck : Bool} {settleErr : Option Error} :
    RejectsHandled w x handler autoAck settleErr ↔
      autoAck = false ∧ getRetryCount x ≥ w.config.maxRetries ∧
        ∃ v e, w.unmarshal x.body = .ok v ∧ handler v x = some e := by
  unfold RejectsHandled processDelivery
  cases hu : w.unmarshal x.body with
  | error e => simp
  | ok v =>
    cases hh : handler v x with
    | none => cases autoAck <;> simp [hh]
    | some e =>
      cases autoAck with
      | true => simp [hh]
      | false =>
        by_cases hlimit : getRetryCount x ≥ w.config.maxRetries
        · simp [hlimit, hh]
        · simp [hlimit, hh]

/-- Every delivery rejected at the limit goes to the parking lot and to no other queue. -/
def ParksExhausted (w : Setting V) : Prop :=
  ∀ x handler autoAck settleErr, RejectsHandled w x handler autoAck settleErr →
    ∀ q, q ∈ w.rejectedTo x ↔ q = w.mainQueue ++ ".parking-lot"

theorem Wired.rejectedTo {w : Setting V} {d : String} (hw : Wired w d) (x : Message) :
    w.rejectedTo x = w.broker.route d w.mainQueue := by
  obtain ⟨q, hq, hdlx, hkey⟩ := hw.main.queue hw.nonempty
  exact Broker.deadLetter_route hq hdlx hkey "rejected" x

theorem Wired.retry_rejectedTo {w : Setting V} {d : String} (hw : Wired w d) (x : Message) :
    w.mainQueue ++ ".retry" ∈ w.rejectedTo x := by
  obtain ⟨ttl, hretry⟩ := hw.retry
  obtain ⟨hd, ex, hex, hkind⟩ := hretry.exchange
  obtain ⟨q, hq, -⟩ := hretry.queue
  obtain ⟨b, hb, hbq, rfl, hbk⟩ := hretry.bound
  rw [hw.rejectedTo, ← hbq]
  rw [← hbq] at hq
  exact Broker.mem_route_topic hd hex hkind hb hbk hq

-- A delivery of any body that has died in `n` places.
def died (n : Nat) (body : List UInt8) : Message :=
  ⟨9, "", [("x-death", .array (List.replicate n ⟨"orders.eu", "expired", 1⟩))], body⟩

theorem getRetryCount_died (n : Nat) (body : List UInt8) : getRetryCount (died n body) = n := by
  simp [getRetryCount, died, Table.get]

/-- After both setups no delivery that is rejected at the limit goes to the parking
lot alone: what should be parked is so only if nothing is ever to be parked, because
no body decodes. -/
theorem parksExhausted_iff (w : Setting V) (d : String) (ttl : Int) (hm : w.mainQueue ≠ "")
    (hsetup : SetUp w.config.queueType w.mainQueue d ttl w.broker) :
    ParksExhausted w ↔ ∀ body v, w.unmarshal body ≠ .ok v := by
  have hw := hsetup.wired hm
  constructor
  · intro hparks body v hv
    let x := died w.config.maxRetries.toNat body
    have hcount : getRetryCount x ≥ w.config.maxRetries := by
      rw [getRetryCount_died]
      omega
    have hrejected : RejectsHandled w x (fun _ _ => some (.new "" "handler")) false none :=
      rejectsHandled_iff.mpr ⟨rfl, hcount, v, _, hv, rfl⟩
    have hretry := (hparks x _ false none hrejected _).mp (hw.retry_rejectedTo x)
    exact retry_ne_parkingLot w.mainQueue w.mainQueue hretry
  · intro hnone x handler autoAck settleErr hrejected
    obtain ⟨-, -, v, -, hv, -⟩ := rejectsHandled_iff.mp hrejected
    exact absurd hv (hnone x.body v)

theorem orders_parksExhausted_iff :
    orders.mainQueue ≠ "" ∧ SetUp orders.config.queueType orders.mainQueue "orders.dlx" 30000 orders.broker ∧
      (ParksExhausted orders ↔ ∀ body v, orders.unmarshal body ≠ .ok v) :=
  ⟨by decide, orders_setUp, parksExhausted_iff orders "orders.dlx" 30000 (by decide) orders_setUp⟩

/- A message that has died in three places is delivered, and its handler fails. With
`MaxRetries = 3` it is rejected; it is then in the retry queue, and the parking lot
is empty. -/
def exhaustedRun : List Action :=
  [.publish "" "orders" (died 3 emptyObject), .deliver, .process (some (.new "" "handler")) none true]

theorem exhausted_message_retried :
    orders.config.maxRetries = 3 ∧
    RejectsHandled orders (died 3 emptyObject) (fun _ _ => some (.new "" "handler")) false none ∧
    ∃ s, exec (step orders) .start exhaustedRun = some s ∧ s.handled = [9] ∧
      (s.contents "orders.retry").map (·.id) = [9] ∧ s.contents "orders.parking-lot" = [] :=
  ⟨rfl, ⟨rfl, rfl⟩, _, rfl, rfl, rfl, rfl⟩

/-! ### The parking lot stays empty -/

theorem PlainName.parkingLot_not_matches {m : String} (h : PlainName m) :
    topicMatches (m ++ ".parking-lot") m = false := by
  rw [Bool.eq_false_iff]
  intro hmatch
  have hsame := topicMatches_literal h.parkingLot_literal.1 h.parkingLot_literal.2 hmatch
  have hlen := congrArg String.length hsame
  have hsuffix : ".parking-lot".length = 12 := rfl
  rw [String.length_append] at hlen
  omega

/-- After both setups, for a queue name without wildcards and as long as the parking
lot has no binding but its own, no rejected delivery reaches it. -/
theorem parkingLot_unreached (w : Setting V) (d : String) (ttl : Int) (hm : w.mainQueue ≠ "")
    (hstar : '*' ∉ w.mainQueue.toList) (hhash : '#' ∉ w.mainQueue.toList)
    (hsetup : SetUp w.config.queueType w.mainQueue d ttl w.broker)
    (hbound : ∀ b ∈ w.broker.bindings, b.exchange = d → b.queue = w.mainQueue ++ ".parking-lot" →
      b.key = w.mainQueue ++ ".parking-lot") (x : Message) :
    w.mainQueue ++ ".parking-lot" ∉ w.rejectedTo x := by
  have hw := hsetup.wired hm
  obtain ⟨ttl, hretry⟩ := hw.retry
  obtain ⟨hd, ex, hex, hkind⟩ := hretry.exchange
  rw [hw.rejectedTo]
  apply Broker.not_mem_route_topic hd hex hkind
  intro b hb hexchange hqueue
  rw [hbound b hb hexchange hqueue]
  exact PlainName.parkingLot_not_matches ⟨hm, hstar, hhash⟩

end Ghost.Rabbitmq.Retry
