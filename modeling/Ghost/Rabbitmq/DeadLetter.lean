import Ghost.Amqp.Broker
import Ghost.Rabbitmq.Topology

/-!
# Dead-letter topology on a broker (rabbitmq/topology.go)

The topology manager connected to a broker, and what
`SetupDeadLetterExchange` and `SetupQueueWithDLX` leave there when they succeed.
-/

namespace Ghost.Rabbitmq
open Go Amqp

/-! ### The broker behind a topology manager

The arguments are encoded on the way, so a time to live that does not fit into 32
bits arrives as another one. -/

def exchangeOf (config : ExchangeConfig) (args : Table) : Exchange where
  name := config.name
  kind := config.kind
  durable := config.durable
  autoDelete := config.autoDelete
  internal := config.internal
  args := args.encoded

def queueOf (config : QueueConfig) (args : Table) : Queue where
  name := config.name
  durable := config.durable
  autoDelete := config.autoDelete
  exclusive := config.exclusive
  args := args.encoded

def bindingOf (config : BindingConfig) (args : Table) : Binding where
  queue := config.queueName
  exchange := config.exchange
  key := config.routingKey
  args := args.encoded

def brokerConnection : Connection Broker where
  createConsumerChannel := fun b => (none, b)
  exchangeDeclare := fun config args b =>
    match b.exchangeDeclare (exchangeOf config args) with
    | .ok c => (none, c)
    | .error e => (some e, b)
  queueDeclare := fun config args b =>
    match b.queueDeclare (queueOf config args) with
    | .ok (name, c) => (.ok name, c)
    | .error e => (.error e, b)
  queueBind := fun config args b =>
    match b.queueBind (bindingOf config args) with
    | .ok c => (none, c)
    | .error e => (some e, b)

theorem declareExchange_broker {config : ExchangeConfig} {s t : Tm Broker}
    (h : declareExchange brokerConnection config s = (.ok (), t)) :
    s.env.exchangeDeclare (exchangeOf config (s.table config.args)) = .ok t.env ∧
      t.heap = s.heap ∧ t.next = s.next := by
  simp only [declareExchange, brokerConnection] at h
  cases hd : s.env.exchangeDeclare (exchangeOf config (s.table config.args)) with
  | error e => simp [hd] at h
  | ok c =>
    simp only [hd, Prod.mk.injEq, true_and] at h
    subst h
    exact ⟨rfl, rfl, rfl⟩

theorem bindQueue_broker {config : BindingConfig} {s t : Tm Broker}
    (h : bindQueue brokerConnection config s = (.ok (), t)) :
    s.env.queueBind (bindingOf config (s.table config.args)) = .ok t.env ∧
      t.heap = s.heap ∧ t.next = s.next := by
  simp only [bindQueue, brokerConnection] at h
  cases hd : s.env.queueBind (bindingOf config (s.table config.args)) with
  | error e => simp [hd] at h
  | ok c =>
    simp only [hd, Prod.mk.injEq, true_and] at h
    subst h
    exact ⟨rfl, rfl, rfl⟩

theorem declareQueue_broker {qt : QueueType} {config : QueueConfig} {s t : Tm Broker} {name : String}
    (h : declareQueue brokerConnection qt config s = (.ok name, t)) :
    s.env.queueDeclare (queueOf config (quorumArgs qt config s).1) = .ok (name, t.env) := by
  simp only [declareQueue, brokerConnection] at h
  cases hd : s.env.queueDeclare (queueOf config (quorumArgs qt config s).1) with
  | error e => simp [hd] at h
  | ok r =>
    obtain ⟨n, c⟩ := r
    simp only [hd, Prod.mk.injEq, Except.ok.injEq] at h
    obtain ⟨rfl, rfl⟩ := h
    rfl

-- The quorum argument aside, the broker sees the caller's arguments.
theorem quorumArgs_get {σ : Type} (qt : QueueType) (config : QueueConfig) (s : Tm σ) {k : String}
    (h : k ≠ "x-queue-type") : (quorumArgs qt config s).1.get k = (s.table config.args).get k := by
  unfold quorumArgs
  split
  · cases config.args with
    | none => exact Table.get_set_other _ _ h
    | some r => exact Table.get_set_other _ _ h
  · rfl

/-! ### Names -/

theorem retry_ne_empty (m : String) : m ++ ".retry" ≠ "" := by
  intro h
  have hl := congrArg String.length h
  rw [String.length_append] at hl
  simp at hl

theorem append_retry_inj {a b : String} (h : a ++ ".retry" = b ++ ".retry") : a = b := by
  have hlist := congrArg String.toList h
  rw [String.toList_append, String.toList_append] at hlist
  exact String.toList_injective (List.append_cancel_right hlist)

theorem retry_ne_parkingLot (a b : String) : a ++ ".retry" ≠ b ++ ".parking-lot" := by
  intro h
  have hlast := congrArg (fun s => s.toList.getLast?) h
  simp only [String.toList_append, List.getLast?_append] at hlast
  have hy : ".retry".toList.getLast? = some 'y' := by decide
  have ht : ".parking-lot".toList.getLast? = some 't' := by decide
  rw [hy, ht] at hlast
  exact absurd (Option.some.inj hlast) (by decide)

def PlainName (m : String) : Prop := m ≠ "" ∧ '*' ∉ m.toList ∧ '#' ∉ m.toList

theorem PlainName.parkingLot_literal {m : String} (h : PlainName m) :
    '*' ∉ (m ++ ".parking-lot").toList ∧ '#' ∉ (m ++ ".parking-lot").toList := by
  have hsuffix : '*' ∉ ".parking-lot".toList ∧ '#' ∉ ".parking-lot".toList := by decide
  rw [String.toList_append]
  simp only [List.mem_append, not_or]
  exact ⟨⟨h.2.1, hsuffix.1⟩, h.2.2, hsuffix.2⟩

/-! ### What the two setups leave -/

-- The main queue sends its dead letters to `d` under its own name.
structure MainQueue (m d : String) (b : Broker) : Prop where
  queue : m ≠ "" → ∃ q, b.findQueue m = some q ∧
    q.args.get "x-dead-letter-exchange" = some (.str d) ∧
    q.args.get "x-dead-letter-routing-key" = some (.str m)

-- The retry queue receives what `d` gets under the main queue's name, and
-- hands it back to the main queue through the default exchange.
structure RetryQueue (m d : String) (ttl : Int) (b : Broker) : Prop where
  exchange : d ≠ "" ∧ ∃ e, b.findExchange d = some e ∧ e.kind = "topic"
  queue : ∃ q, b.findQueue (m ++ ".retry") = some q ∧
    q.args.get "x-message-ttl" = some (Value.int ttl).encoded ∧
    q.args.get "x-dead-letter-exchange" = some (.str "") ∧
    q.args.get "x-dead-letter-routing-key" = some (.str m)
  bound : ∃ x ∈ b.bindings, x.queue = m ++ ".retry" ∧ x.exchange = d ∧ x.key = m

theorem MainQueue.mono {m d : String} {b c : Broker} (h : MainQueue m d b) (hx : b.Extends c) :
    MainQueue m d c := by
  refine ⟨fun hm => ?_⟩
  obtain ⟨q, hq, hargs⟩ := h.queue hm
  exact ⟨q, hx.queue m q hq, hargs⟩

theorem RetryQueue.mono {m d : String} {ttl : Int} {b c : Broker} (h : RetryQueue m d ttl b)
    (hx : b.Extends c) : RetryQueue m d ttl c := by
  obtain ⟨hd, e, he, hk⟩ := h.exchange
  obtain ⟨q, hq, hargs⟩ := h.queue
  obtain ⟨x, hmem, hbound⟩ := h.bound
  exact ⟨⟨hd, e, hx.exchange d e he, hk⟩, ⟨q, hx.queue _ q hq, hargs⟩, x, hx.binding x hmem, hbound⟩

@[simp] theorem alloc_table {σ : Type} (s : Tm σ) (t : Table) :
    (s.alloc t).2.table (some (s.alloc t).1) = t := by
  simp [Tm.alloc, Tm.table]

theorem setupQueueWithDLX_calls {qt : QueueType} {m d name : String} {s t : Tm Broker}
    (h : setupQueueWithDLX brokerConnection qt m d s = (.ok name, t)) :
    ∃ q : Queue, q.name = m ∧ q.args.get "x-dead-letter-exchange" = some (.str d) ∧
      q.args.get "x-dead-letter-routing-key" = some (.str m) ∧ s.env.queueDeclare q = .ok (name, t.env) := by
  unfold setupQueueWithDLX at h
  simp only at h
  split at h
  · cases h
  · rename_i n u hq
    cases h
    have hcall := declareQueue_broker hq
    refine ⟨_, rfl, ?_, ?_, hcall⟩
    · simp only [queueOf]
      rw [Table.get_encoded, quorumArgs_get _ _ _ (by decide), alloc_table]
      split <;> rfl
    · simp only [queueOf]
      rw [Table.get_encoded, quorumArgs_get _ _ _ (by decide), alloc_table]
      split <;> rfl

theorem setupQueueWithDLX_ok {qt : QueueType} {m d name : String} {s t : Tm Broker}
    (h : setupQueueWithDLX brokerConnection qt m d s = (.ok name, t)) :
    s.env.Extends t.env ∧ MainQueue m d t.env := by
  obtain ⟨q, rfl, hexchange, hkey, hcall⟩ := setupQueueWithDLX_calls h
  obtain ⟨hext, -, hfound⟩ := Broker.queueDeclare_ok hcall
  refine ⟨hext, ⟨fun hm => ?_⟩⟩
  obtain ⟨x, hfind, hget⟩ := hfound hm
  exact ⟨x, hfind, (hget _).trans hexchange, (hget _).trans hkey⟩

/- The five calls to the broker, each on what the one before it left. -/
theorem setupDeadLetterExchange_calls {qt : QueueType} {m d : String} {ttl : Int} {s t : Tm Broker}
    (h : setupDeadLetterExchange brokerConnection qt m d ttl s = (.ok (), t)) :
    ∃ (e : Exchange) (retry parking : Queue) (b₁ b₂ b₃ b₄ : Broker) (n n' : String),
      (e.name = d ∧ e.kind = "topic") ∧
      (retry.name = m ++ ".retry" ∧ retry.args.get "x-message-ttl" = some (Value.int ttl).encoded ∧
        retry.args.get "x-dead-letter-exchange" = some (.str "") ∧
        retry.args.get "x-dead-letter-routing-key" = some (.str m)) ∧
      (parking.name = m ++ ".parking-lot" ∧ parking.args.get "x-dead-letter-exchange" = none) ∧
      s.env.exchangeDeclare e = .ok b₁ ∧ b₁.queueDeclare retry = .ok (n, b₂) ∧
      b₂.queueBind ⟨m ++ ".retry", d, m, []⟩ = .ok b₃ ∧ b₃.queueDeclare parking = .ok (n', b₄) ∧
      b₄.queueBind ⟨m ++ ".parking-lot", d, m ++ ".parking-lot", []⟩ = .ok t.env := by
  unfold setupDeadLetterExchange at h
  split at h
  · cases h
  rename_i s₁ hx
  simp only at h
  split at h
  · cases h
  rename_i n s₂ hq
  split at h
  · cases h
  rename_i s₃ hb
  split at h
  · cases h
  rename_i n' s₄ hq'
  split at h
  · cases h
  rename_i s₅ hb'
  cases h
  have hexchange := (declareExchange_broker hx).1
  have hretry := declareQueue_broker hq
  have hbind := (bindQueue_broker hb).1
  have hparking := declareQueue_broker hq'
  have hbind' := (bindQueue_broker hb').1
  refine ⟨_, _, _, _, _, _, _, n, n', ⟨rfl, rfl⟩, ⟨rfl, ?_, ?_, ?_⟩, ⟨rfl, ?_⟩, hexchange, hretry, hbind, hparking,
    hbind'⟩
  · simp only [queueOf]
    rw [Table.get_encoded, quorumArgs_get _ _ _ (by decide), alloc_table]
    rfl
  · simp only [queueOf]
    rw [Table.get_encoded, quorumArgs_get _ _ _ (by decide), alloc_table]
    rfl
  · simp only [queueOf]
    rw [Table.get_encoded, quorumArgs_get _ _ _ (by decide), alloc_table]
    rfl
  · simp only [queueOf]
    rw [Table.get_encoded, quorumArgs_get _ _ _ (by decide)]
    rfl

theorem setupDeadLetterExchange_ok {qt : QueueType} {m d : String} {ttl : Int} {s t : Tm Broker}
    (h : setupDeadLetterExchange brokerConnection qt m d ttl s = (.ok (), t)) :
    s.env.Extends t.env ∧ RetryQueue m d ttl t.env := by
  obtain ⟨e, retry, parking, b₁, b₂, b₃, b₄, n, n', ⟨rfl, hkind⟩, ⟨hname, httl, hdlx, hkey⟩, -, hx, hq, hb, hq', hb'⟩ :=
    setupDeadLetterExchange_calls h
  obtain ⟨ext₁, hd, x, hfindx, hk⟩ := Broker.exchangeDeclare_ok hx
  obtain ⟨ext₂, -, hfound⟩ := Broker.queueDeclare_ok hq
  obtain ⟨ext₃, hmem⟩ := Broker.queueBind_ok hb
  obtain ⟨ext₄, -⟩ := Broker.queueDeclare_ok hq'
  obtain ⟨ext₅, -⟩ := Broker.queueBind_ok hb'
  have ext₃₅ := ext₄.trans ext₅
  have ext₂₅ := ext₃.trans ext₃₅
  have ext₁₅ := ext₂.trans ext₂₅
  rw [hname] at hfound
  obtain ⟨q, hfind, hget⟩ := hfound (retry_ne_empty m)
  have hqueue := ext₂₅.queue _ q hfind
  exact ⟨ext₁.trans ext₁₅, ⟨hd, x, ext₁₅.exchange _ x hfindx, hk.trans hkind⟩,
    ⟨q, hqueue, (hget _).trans httl, (hget _).trans hdlx, (hget _).trans hkey⟩, _, ext₃₅.binding _ hmem, rfl, rfl, rfl⟩

end Ghost.Rabbitmq
