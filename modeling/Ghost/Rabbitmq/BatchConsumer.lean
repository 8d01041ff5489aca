import Ghost.Rabbitmq.Consumer

/-!
# Batch consumer (rabbitmq/consumer.go, StartBatchConsumer)

The loop waits for one of four events: a delivery, the flush timer, the end of
the context, the end of the delivery channel. The first two go round again, the
others leave. An event carries the handler's result for the case that it leads
to a flush, so a list of events is one history of the loop with every outcome
the handler chooses; when the timer fires is left open. Handlers neither settle
the deliveries they get nor write to the slices.
-/

namespace Ghost.Rabbitmq.BatchConsumer
open Go Amqp

/- The tag counts the deliveries of the channel. -/
structure Delivery where
  tag : Nat
  message : Message
  deriving DecidableEq, Repr

structure HandlerCall (V : Type) where
  messages : List V
  deliveries : List Delivery
  err : Option Error

structure State (V : Type) where
  batch : List V
  batchDeliveries : List Delivery
  -- what was taken from the channel, which settlements were tried, what the handler was called with
  received : List Delivery
  settled : List (Delivery × Settlement)
  calls : List (HandlerCall V)
  log : List (String × Error)
  chClosed : Bool

inductive Event where
  | delivery (message : Message) (result : Option Error)
  | flushTimer (result : Option Error)

inductive Exit where
  | ctxDone (err : Error)
  | deliveriesClosed

-- The errors of the calls before the loop.
structure Setup where
  channelErr : Option Error
  qosErr : Option Error
  consumeErr : Option Error
  deriving DecidableEq

section Loop

variable {V : Type} (batchSize : Int) (unmarshal : List UInt8 → Except Error V)
  (settleErr : Delivery → Settlement → Option Error)

def settle (how : Settlement) (text : String) (s : State V) (d : Delivery) : State V :=
  { s with
    settled := s.settled ++ [(d, how)]
    log := s.log ++ ((settleErr d how).map fun e => (text, e)).toList }

def flush (s : State V) (result : Option Error) : State V × Option Error :=
  if s.batch.length = 0 then (s, none)
  else
    let called := { s with calls := s.calls ++ [⟨s.batch, s.batchDeliveries, result⟩] }
    match result with
    | some err =>
      ({ s.batchDeliveries.foldl (settle settleErr .nackRequeue "failed to nack batch message") called with
          batch := [], batchDeliveries := [] }, some (err.annotate "batch handler error"))
    | none =>
      ({ s.batchDeliveries.foldl (settle settleErr .ack "failed to ack batch message") called with
          batch := [], batchDeliveries := [] }, none)

def flushLogged (text : String) (s : State V) (result : Option Error) : State V :=
  match flush settleErr s result with
  | (t, some err) => { t with log := t.log ++ [(text, err)] }
  | (t, none) => t

def State.take (s : State V) (m : Message) : State V :=
  { s with received := s.received ++ [⟨s.received.length + 1, m⟩] }

def State.append (s : State V) (msg : V) (d : Delivery) : State V :=
  { s with batch := s.batch ++ [msg], batchDeliveries := s.batchDeliveries ++ [d] }

/-- One turn of the loop. -/
def turn (s : State V) : Event → State V
  | .flushTimer result => flushLogged settleErr "failed to flush batch on timeout" s result
  | .delivery m result =>
    let delivery : Delivery := ⟨s.received.length + 1, m⟩
    match unmarshal m.body with
    | .error _ => settle settleErr .reject "failed to reject poison message" (s.take m) delivery
    | .ok msg =>
      let t := (s.take m).append msg delivery
      if t.batch.length ≥ batchSize then flushLogged settleErr "failed to flush full batch" t result else t

def leave (s : State V) (result : Option Error) : Exit → State V × Error
  | .ctxDone err =>
    ({ flushLogged settleErr "failed to flush batch on shutdown" s result with chClosed := true }, err)
  | .deliveriesClosed =>
    ({ flushLogged settleErr "failed to flush batch on channel close" s result with chClosed := true },
      .new "StartBatchConsumer" "delivery channel closed")

def State.start (V : Type) : State V := ⟨[], [], [], [], [], [], false⟩

def startBatchConsumer (setup : Setup) (events : List Event) (exit : Exit) (result : Option Error) :
    State V × Error :=
  match setup.channelErr, setup.qosErr, setup.consumeErr with
  | some err, _, _ => (.start V, err.annotate "failed to create consumer channel")
  | none, some err, _ => ({ State.start V with chClosed := true }, err.annotate "failed to set QoS")
  | none, none, some err => ({ State.start V with chClosed := true }, err.annotate "failed to start consuming")
  | none, none, none => leave settleErr (events.foldl (turn batchSize unmarshal settleErr) (.start V)) result exit

end Loop

/-! ### What becomes of a delivery -/

variable {V : Type} {batchSize : Int} {unmarshal : List UInt8 → Except Error V}
  {settleErr : Delivery → Settlement → Option Error} {s t : State V} {d : Delivery} {result : Option Error}

def decode (unmarshal : List UInt8 → Except Error V) (d : Delivery) : Except Error V := unmarshal d.message.body

def valid (unmarshal : List UInt8 → Except Error V) (d : Delivery) : Bool := (decode unmarshal d).toBool

/-- Nothing is lost, settled twice or reordered; the deliveries in `pending` have not
been settled nor given to the handler yet. -/
structure Conserved (batchSize : Int) (unmarshal : List UInt8 → Except Error V) (pending : List Delivery)
    (s : State V) : Prop where
  tags : s.received.map (·.tag) = List.range' 1 s.received.length
  once : (s.settled.map Prod.fst ++ pending).Perm s.received
  reject : ∀ d, (d, .reject) ∈ s.settled ↔ d ∈ s.received ∧ valid unmarshal d = false
  ack : ∀ d, (d, .ack) ∈ s.settled ↔ ∃ c ∈ s.calls, d ∈ c.deliveries ∧ c.err = none
  nack : ∀ d, (d, .nackRequeue) ∈ s.settled ↔ ∃ c ∈ s.calls, d ∈ c.deliveries ∧ ∃ e, c.err = some e
  order : s.calls.flatMap (·.deliveries) ++ pending = s.received.filter (valid unmarshal)
  sizes : ∀ c ∈ s.calls, c.deliveries ≠ [] ∧ (c.deliveries.length : Int) ≤ max 1 batchSize
  decoded : ∀ c ∈ s.calls, c.deliveries.map (decode unmarshal) = c.messages.map .ok

/- The batch in a turn of the loop: the two slices are parallel. -/
structure InLoop (batchSize : Int) (unmarshal : List UInt8 → Except Error V) (s : State V) : Prop where
  conserved : Conserved batchSize unmarshal s.batchDeliveries s
  parallel : s.batchDeliveries.map (decode unmarshal) = s.batch.map .ok

theorem InLoop.length (hs : InLoop batchSize unmarshal s) : s.batchDeliveries.length = s.batch.length := by
  have hlen := congrArg List.length hs.parallel
  rw [List.length_map, List.length_map] at hlen
  exact hlen

/-! ### Flush -/

-- The settling loop tries every delivery once and touches nothing else but the log.
theorem foldl_settle (settleErr : Delivery → Settlement → Option Error) (how : Settlement) (text : String)
    (ds : List Delivery) (s : State V) :
    ∃ log, ds.foldl (settle settleErr how text) s =
      { s with settled := s.settled ++ ds.map (·, how), log := log } := by
  induction ds generalizing s with
  | nil => exact ⟨s.log, by simp⟩
  | cons d ds ih =>
    obtain ⟨log, hlog⟩ := ih (settle settleErr how text s d)
    refine ⟨log, ?_⟩
    rw [List.foldl_cons, hlog]
    simp [settle]

def settlementOf : Option Error → Settlement
  | some _ => .nackRequeue
  | none => .ack

theorem flush_batch (settleErr : Delivery → Settlement → Option Error) (result : Option Error) (h : s.batch ≠ []) :
    ∃ log, (flush settleErr s result).1 =
      { s with
        batch := [], batchDeliveries := [], log := log
        calls := s.calls ++ [⟨s.batch, s.batchDeliveries, result⟩]
        settled := s.settled ++ s.batchDeliveries.map (·, settlementOf result) } := by
  have hlen : ¬ s.batch.length = 0 := by rwa [List.length_eq_zero_iff]
  cases result with
  | none =>
    obtain ⟨log, hlog⟩ := foldl_settle settleErr .ack "failed to ack batch message" s.batchDeliveries
      { s with calls := s.calls ++ [⟨s.batch, s.batchDeliveries, none⟩] }
    refine ⟨log, ?_⟩
    simp only [flush, if_neg hlen, hlog, settlementOf]
  | some err =>
    obtain ⟨log, hlog⟩ := foldl_settle settleErr .nackRequeue "failed to nack batch message" s.batchDeliveries
      { s with calls := s.calls ++ [⟨s.batch, s.batchDeliveries, some err⟩] }
    refine ⟨log, ?_⟩
    simp only [flush, if_neg hlen, hlog, settlementOf]

theorem flushLogged_eq (settleErr : Delivery → Settlement → Option Error) (text : String) (s : State V)
    (result : Option Error) :
    ∃ log, flushLogged settleErr text s result = { (flush settleErr s result).1 with log := log } := by
  unfold flushLogged
  split
  · rename_i t err ht
    exact ⟨t.log ++ [(text, err)], by rw [ht]⟩
  · rename_i t ht
    exact ⟨t.log, by rw [ht]⟩

theorem Conserved.same {pending : List Delivery} (h : Conserved batchSize unmarshal pending s)
    (hreceived : t.received = s.received) (hsettled : t.settled = s.settled) (hcalls : t.calls = s.calls) :
    Conserved batchSize unmarshal pending t := by
  constructor
  · rw [hreceived]
    exact h.tags
  · rw [hreceived, hsettled]
    exact h.once
  · rw [hreceived, hsettled]
    exact h.reject
  · rw [hsettled, hcalls]
    exact h.ack
  · rw [hsettled, hcalls]
    exact h.nack
  · rw [hreceived, hcalls]
    exact h.order
  · rw [hcalls]
    exact h.sizes
  · rw [hcalls]
    exact h.decoded

/- The handler gets what was pending, and that is settled by its result. -/
theorem Conserved.handled {pending : List Delivery} {messages : List V}
    (h : Conserved batchSize unmarshal pending s) (hne : pending ≠ [])
    (hsize : (pending.length : Int) ≤ max 1 batchSize)
    (hparallel : pending.map (decode unmarshal) = messages.map .ok) (hreceived : t.received = s.received)
    (hcalls : t.calls = s.calls ++ [⟨messages, pending, result⟩])
    (hsettled : t.settled = s.settled ++ pending.map (·, settlementOf result)) :
    Conserved batchSize unmarshal [] t := by
  constructor
  · rw [hreceived]
    exact h.tags
  · have hfst : (pending.map (·, settlementOf result)).map Prod.fst = pending := by
      simp [List.map_map, Function.comp_def]
    rw [hreceived, hsettled, List.map_append, hfst, List.append_nil]
    exact h.once
  · intro d
    rw [hreceived, hsettled, ← h.reject d]
    cases result <;> simp [settlementOf]
  · intro d
    rw [hsettled, hcalls, List.mem_append, h.ack d]
    cases result <;> simp [settlementOf, or_and_right, exists_or]
  · intro d
    rw [hsettled, hcalls, List.mem_append, h.nack d]
    cases result <;> simp [settlementOf, or_and_right, exists_or]
  · rw [hreceived, hcalls, ← h.order]
    simp
  · intro c hc
    rw [hcalls, List.mem_append, List.mem_singleton] at hc
    rcases hc with hc | rfl
    · exact h.sizes c hc
    · exact ⟨hne, hsize⟩
  · intro c hc
    rw [hcalls, List.mem_append, List.mem_singleton] at hc
    rcases hc with hc | rfl
    · exact h.decoded c hc
    · exact hparallel

theorem flush_conserves (settleErr : Delivery → Settlement → Option Error) (text : String) (result : Option Error)
    (hs : InLoop batchSize unmarshal s)
    (hsize : (s.batchDeliveries.length : Int) ≤ max 1 batchSize) :
    InLoop batchSize unmarshal (flushLogged settleErr text s result) ∧
      (flushLogged settleErr text s result).batchDeliveries = [] := by
  obtain ⟨log, hlog⟩ := flushLogged_eq settleErr text s result
  rw [hlog]
  by_cases hbatch : s.batch = []
  · have hdeliveries : s.batchDeliveries = [] := by
      have hlen := hs.length
      rw [hbatch] at hlen
      exact List.length_eq_zero_iff.mp hlen
    have hflush : flush settleErr s result = (s, none) := by simp [flush, hbatch]
    rw [hflush]
    exact ⟨⟨hs.conserved.same rfl rfl rfl, hs.parallel⟩, hdeliveries⟩
  · obtain ⟨log', hflush⟩ := flush_batch settleErr result hbatch
    rw [hflush]
    have hne : s.batchDeliveries ≠ [] := by
      intro hnil
      have hlen := hs.length
      rw [hnil] at hlen
      exact hbatch (List.length_eq_zero_iff.mp hlen.symm)
    exact ⟨⟨hs.conserved.handled hne hsize hs.parallel rfl rfl rfl, rfl⟩, rfl⟩

/-! ### One turn -/

theorem tags_take (h : s.received.map (·.tag) = List.range' 1 s.received.length) (m : Message) :
    (s.take m).received.map (·.tag) = List.range' 1 (s.take m).received.length := by
  simp only [State.take, List.map_append, List.map_cons, List.map_nil, List.length_append, List.length_singleton, h]
  rw [List.range'_concat]
  simp [Nat.add_comm]

theorem Conserved.rejected {pending : List Delivery} {m : Message} (text : String)
    (h : Conserved batchSize unmarshal pending s) (hd : valid unmarshal ⟨s.received.length + 1, m⟩ = false) :
    Conserved batchSize unmarshal pending
      (settle settleErr .reject text (s.take m) ⟨s.received.length + 1, m⟩) := by
  constructor
  · exact tags_take h.tags m
  · have hmove : (s.settled.map Prod.fst ++ [(⟨s.received.length + 1, m⟩ : Delivery)] ++ pending).Perm
        (s.settled.map Prod.fst ++ pending ++ [⟨s.received.length + 1, m⟩]) := by
      rw [List.append_assoc, List.append_assoc]
      exact List.perm_append_comm.append_left _
    simp only [settle, State.take, List.map_append, List.map_cons, List.map_nil]
    exact hmove.trans (h.once.append_right _)
  · intro d
    simp only [settle, State.take, List.mem_append, List.mem_singleton, h.reject d, Prod.mk.injEq, and_true]
    constructor
    · rintro (⟨hmem, hinvalid⟩ | rfl)
      · exact ⟨.inl hmem, hinvalid⟩
      · exact ⟨.inr rfl, hd⟩
    · rintro ⟨hmem | hmem, hinvalid⟩
      · exact .inl ⟨hmem, hinvalid⟩
      · exact .inr hmem
  · intro d
    rw [show (settle settleErr .reject text (s.take m) ⟨s.received.length + 1, m⟩).calls = s.calls from rfl, ← h.ack d]
    simp [settle, State.take]
  · intro d
    rw [show (settle settleErr .reject text (s.take m) ⟨s.received.length + 1, m⟩).calls = s.calls from rfl, ← h.nack d]
    simp [settle, State.take]
  · simp only [settle, State.take, List.filter_append, List.filter_cons, hd, h.order]
    simp
  · exact h.sizes
  · exact h.decoded

theorem InLoop.appended {m : Message} {msg : V} (hs : InLoop batchSize unmarshal s)
    (hmsg : unmarshal m.body = .ok msg) :
    InLoop batchSize unmarshal ((s.take m).append msg ⟨s.received.length + 1, m⟩) := by
  have h := hs.conserved
  have hd : valid unmarshal ⟨s.received.length + 1, m⟩ = true := by
    simp [valid, decode, hmsg, Except.toBool]
  refine ⟨⟨tags_take h.tags m, ?_, ?_, h.ack, h.nack, ?_, h.sizes, h.decoded⟩, ?_⟩
  · simp only [State.append, State.take, ← List.append_assoc]
    exact h.once.append_right _
  · intro d
    simp only [State.append, State.take, List.mem_append, List.mem_singleton, h.reject d]
    constructor
    · rintro ⟨hmem, hinvalid⟩
      exact ⟨.inl hmem, hinvalid⟩
    · rintro ⟨hmem | rfl, hinvalid⟩
      · exact ⟨hmem, hinvalid⟩
      · rw [hd] at hinvalid
        cases hinvalid
  · simp only [State.append, State.take, List.filter_append, List.filter_cons, hd, ← List.append_assoc, h.order]
    rfl
  · simp only [State.append, State.take, List.map_append, hs.parallel, List.map_cons, List.map_nil, decode, hmsg]

/-- Between turns the batch is empty or below its size. -/
def Room (batchSize : Int) (s : State V) : Prop := s.batchDeliveries = [] ∨ (s.batchDeliveries.length : Int) < batchSize

theorem Room.size (h : Room batchSize s) : (s.batchDeliveries.length : Int) + 1 ≤ max 1 batchSize := by
  rcases h with h | h
  · rw [h, List.length_nil]
    omega
  · omega

theorem turn_conserves (settleErr : Delivery → Settlement → Option Error) (event : Event)
    (hs : InLoop batchSize unmarshal s) (hroom : Room batchSize s) :
    InLoop batchSize unmarshal (turn batchSize unmarshal settleErr s event) ∧
      Room batchSize (turn batchSize unmarshal settleErr s event) := by
  have hsize := hroom.size
  cases event with
  | flushTimer result =>
    obtain ⟨hloop, hempty⟩ := flush_conserves settleErr "failed to flush batch on timeout" result hs (by omega)
    exact ⟨hloop, .inl hempty⟩
  | delivery m result =>
    simp only [turn]
    split
    · rename_i e he
      have hd : valid unmarshal ⟨s.received.length + 1, m⟩ = false := by
        simp [valid, decode, he, Except.toBool]
      exact ⟨⟨hs.conserved.rejected _ hd, hs.parallel⟩, hroom⟩
    · rename_i msg hmsg
      have happended := hs.appended hmsg
      have hlen : ((s.take m).append msg ⟨s.received.length + 1, m⟩).batchDeliveries.length =
          s.batchDeliveries.length + 1 := by
        simp [State.append, State.take]
      have hbatch := happended.length
      split
      · obtain ⟨hloop, hempty⟩ := flush_conserves settleErr "failed to flush full batch" result happended (by omega)
        exact ⟨hloop, .inl hempty⟩
      · exact ⟨happended, .inr (by omega)⟩

theorem turns_conserve (settleErr : Delivery → Settlement → Option Error) (events : List Event)
    (hs : InLoop batchSize unmarshal s) (hroom : Room batchSize s) :
    InLoop batchSize unmarshal (events.foldl (turn batchSize unmarshal settleErr) s) ∧
      Room batchSize (events.foldl (turn batchSize unmarshal settleErr) s) := by
  induction events generalizing s with
  | nil => exact ⟨hs, hroom⟩
  | cons event events ih =>
    obtain ⟨hloop, hroom'⟩ := turn_conserves settleErr event hs hroom
    exact ih hloop hroom'

theorem start_conserved : Conserved batchSize unmarshal [] (State.start V) := by
  constructor <;> simp [State.start]

theorem leave_conserves (settleErr : Delivery → Settlement → Option Error) (exit : Exit) (result : Option Error)
    (hs : InLoop batchSize unmarshal s) (hroom : Room batchSize s) :
    Conserved batchSize unmarshal [] (leave settleErr s result exit).1 := by
  have hflush (text : String) : Conserved batchSize unmarshal [] (flushLogged settleErr text s result) := by
    have hsize := hroom.size
    obtain ⟨hloop, hempty⟩ := flush_conserves settleErr text result hs (by omega)
    rw [← hempty]
    exact hloop.conserved
  cases exit with
  | ctxDone err => exact (hflush _).same rfl rfl rfl
  | deliveriesClosed => exact (hflush _).same rfl rfl rfl

/-! ### What arrives -/

def Event.arrived : Event → Option Message
  | .delivery m _ => some m
  | .flushTimer _ => none

theorem flushLogged_received (settleErr : Delivery → Settlement → Option Error) (text : String) (s : State V)
    (result : Option Error) : (flushLogged settleErr text s result).received = s.received := by
  obtain ⟨log, hlog⟩ := flushLogged_eq settleErr text s result
  rw [hlog]
  by_cases hbatch : s.batch = []
  · simp [flush, hbatch]
  · obtain ⟨log', hflush⟩ := flush_batch settleErr result hbatch
    rw [hflush]

theorem turn_received (event : Event) :
    (turn batchSize unmarshal settleErr s event).received.map (·.message) =
      s.received.map (·.message) ++ event.arrived.toList := by
  cases event with
  | flushTimer result => simp [turn, flushLogged_received, Event.arrived]
  | delivery m result =>
    simp only [turn]
    split
    · simp [settle, State.take, Event.arrived]
    · split
      · rw [flushLogged_received]
        simp [State.append, State.take, Event.arrived]
      · simp [State.append, State.take, Event.arrived]

theorem turns_received (events : List Event) :
    (events.foldl (turn batchSize unmarshal settleErr) s).received.map (·.message) =
      s.received.map (·.message) ++ events.filterMap Event.arrived := by
  induction events generalizing s with
  | nil => simp
  | cons event events ih =>
    rw [List.foldl_cons, ih, turn_received, List.append_assoc]
    cases h : event.arrived <;> simp [h]

theorem leave_received (exit : Exit) : (leave settleErr s result exit).1.received = s.received := by
  cases exit <;> exact flushLogged_received ..

/-- Whatever arrives, however the handler answers and whichever way the loop ends, every
delivery has been settled exactly once and as its body and its handler call
decide, and the batches are what arrived, in order. -/
theorem startBatchConsumer_conserves (batchSize : Int) (unmarshal : List UInt8 → Except Error V)
    (settleErr : Delivery → Settlement → Option Error) (setup : Setup) (events : List Event) (exit : Exit)
    (result : Option Error) :
    Conserved batchSize unmarshal []
      (startBatchConsumer batchSize unmarshal settleErr setup events exit result).1 ∧
    (startBatchConsumer batchSize unmarshal settleErr setup events exit result).1.received.map (·.message) =
      if setup = ⟨none, none, none⟩ then events.filterMap Event.arrived else [] := by
  obtain ⟨channelErr, qosErr, consumeErr⟩ := setup
  cases channelErr with
  | some err => exact ⟨start_conserved, by simp [startBatchConsumer, State.start]⟩
  | none =>
    cases qosErr with
    | some err => exact ⟨start_conserved.same rfl rfl rfl, by simp [startBatchConsumer, State.start]⟩
    | none =>
      cases consumeErr with
      | some err => exact ⟨start_conserved.same rfl rfl rfl, by simp [startBatchConsumer, State.start]⟩
      | none =>
        have hstart : InLoop batchSize unmarshal (State.start V) := ⟨start_conserved, rfl⟩
        obtain ⟨hloop, hroom⟩ := turns_conserve settleErr events hstart (.inl rfl)
        refine ⟨leave_conserves settleErr exit result hloop hroom, ?_⟩
        simp only [startBatchConsumer]
        rw [leave_received, turns_received]
        simp [State.start]

end Ghost.Rabbitmq.BatchConsumer
