import Ghost.Amqp.Replay
import Ghost.Rabbitmq.DeadLetter
import Ghost.Rabbitmq.TopologyThreads

/-!
# A restore on an empty broker (rabbitmq/topology.go)

After a broker has lost everything, `restoreTopology` declares by kind what the
client had declared in any order. `DeclareQueue` writes the quorum argument into
the caller's map, so the second declaration may find it there already; it sends
the same arguments nevertheless.
-/

namespace Ghost.Rabbitmq
open Go Amqp Registry TopologyThreads

/-! ### What the broker is sent -/

def Entry.args : Entry → Option Ref
  | .exchange c => c.args
  | .queue c => c.args
  | .binding c => c.args

def sent {σ : Type} (qt : QueueType) (s : Tm σ) : Entry → Decl
  | .exchange c => .exchange (exchangeOf c (s.table c.args))
  | .queue c => .queue (queueOf c (quorumArgs qt c s).1)
  | .binding c => .binding (bindingOf c (s.table c.args))

-- the store of argument maps after a declaration
def written {σ : Type} (qt : QueueType) (s : Tm σ) : Entry → Ref → Table
  | .queue c => (quorumArgs qt c s).2.heap
  | _ => s.heap

theorem Tm.eq_iff {σ : Type} {s t : Tm σ} :
    s = t ↔ s.env = t.env ∧ t.heap = s.heap ∧ t.next = s.next ∧ t.topology = s.topology := by
  obtain ⟨heap, next, topology, env⟩ := s
  obtain ⟨heap', next', topology', env'⟩ := t
  simp only [Tm.mk.injEq]
  tauto

theorem declare_broker_iff {qt : QueueType} {x : Entry} {s t : Tm Broker} :
    declare brokerConnection qt x s = (.ok (), t) ↔
      s.env.declare (sent qt s x) = .ok t.env ∧ t.heap = written qt s x ∧ t.next = s.next ∧
        t.topology = s.topology.add x := by
  cases x with
  | exchange c =>
    cases hd : s.env.exchangeDeclare (exchangeOf c (s.table c.args)) with
    | error e => simp [declare, declareExchange, brokerConnection, sent, Broker.declare, hd]
    | ok b =>
      simp only [declare, declareExchange, brokerConnection, sent, Broker.declare, hd, written, TopologyCache.add,
        Prod.mk.injEq, true_and, Tm.eq_iff, Except.ok.injEq]
  | queue c =>
    cases hd : s.env.queueDeclare (queueOf c (quorumArgs qt c s).1) with
    | error e => simp [declare, declareQueue, brokerConnection, sent, Broker.declare, hd, Except.map]
    | ok r =>
      have hnext : (quorumArgs qt c s).2.next = s.next := by
        unfold quorumArgs
        cases c.args <;> split <;> rfl
      simp only [declare, declareQueue, brokerConnection, sent, Broker.declare, hd, written, TopologyCache.add,
        Prod.mk.injEq, true_and, Tm.eq_iff, Except.ok.injEq, Except.map, quorumArgs_topology, hnext]
  | binding c =>
    cases hd : s.env.queueBind (bindingOf c (s.table c.args)) with
    | error e => simp [declare, bindQueue, brokerConnection, sent, Broker.declare, hd]
    | ok b =>
      simp only [declare, bindQueue, brokerConnection, sent, Broker.declare, hd, written, TopologyCache.add,
        Prod.mk.injEq, true_and, Tm.eq_iff, Except.ok.injEq]

/- No argument map is in two different configurations. -/
def Unshared (calls : List Entry) : Prop :=
  ∀ x ∈ calls, ∀ y ∈ calls, x.args ≠ none → x.args = y.args → x = y

instance (calls : List Entry) : Decidable (Unshared calls) :=
  inferInstanceAs (Decidable (∀ x ∈ calls, ∀ y ∈ calls, x.args ≠ none → x.args = y.args → x = y))

section Sent

variable {σ : Type} {qt : QueueType} {s t : Tm σ}

theorem sent_congr {y : Entry} (h : t.table y.args = s.table y.args) : sent qt t y = sent qt s y := by
  cases y with
  | exchange c => exact congrArg (fun args => Decl.exchange (exchangeOf c args)) h
  | binding c => exact congrArg (fun args => Decl.binding (bindingOf c args)) h
  | queue c =>
    have hargs : (quorumArgs qt c t).1 = (quorumArgs qt c s).1 := by
      unfold quorumArgs
      rw [show t.table c.args = s.table c.args from h]
      split
      · cases c.args <;> rfl
      · rfl
    exact congrArg (fun args => Decl.queue (queueOf c args)) hargs

/- A declaration leaves the maps as they are, or has set the quorum argument in the
map of its own configuration. -/
theorem written_cases (qt : QueueType) (s : Tm σ) (x : Entry) :
    written qt s x = s.heap ∨
      ∃ c r, x = .queue c ∧ c.args = some r ∧ qt = .quorum ∧ c.durable = true ∧
        written qt s x = Function.update s.heap r ((s.heap r).set "x-queue-type" (.str "quorum")) := by
  cases x with
  | exchange c => exact .inl rfl
  | binding c => exact .inl rfl
  | queue c =>
    simp only [written, quorumArgs]
    split
    · rename_i hquorum
      cases hc : c.args with
      | none => exact .inl rfl
      | some r => exact .inr ⟨c, r, rfl, hc, hquorum.1, hquorum.2, rfl⟩
    · exact .inl rfl

theorem sent_written {x y : Entry} (ht : t.heap = written qt s x)
    (hxy : x.args ≠ none → x.args = y.args → x = y) : sent qt t y = sent qt s y := by
  have htable : ∀ args, (∀ r, args = some r → t.heap r = s.heap r) → t.table args = s.table args := by
    intro args h
    cases args with
    | none => rfl
    | some r => exact h r rfl
  rcases written_cases qt s x with hsame | ⟨c, r, rfl, hargs, hquorum, hdurable, hwritten⟩
  · rw [hsame] at ht
    exact sent_congr (htable _ fun r _ => by rw [ht])
  · rw [hwritten] at ht
    by_cases hy : y.args = some r
    · -- the same configuration again: its map has the argument already
      obtain rfl := hxy (by simp [Entry.args, hargs]) (by rw [hy]; exact hargs)
      have hset : (t.heap r).set "x-queue-type" (.str "quorum") = (s.heap r).set "x-queue-type" (.str "quorum") := by
        rw [ht, Function.update_self, Table.set_set]
      simp only [sent, quorumArgs, hargs, hquorum, hdurable, and_self, if_true, Tm.table, hset]
    · refine sent_congr (htable _ fun r' hr' => ?_)
      have hne : r' ≠ r := by
        rintro rfl
        exact hy hr'
      rw [ht, Function.update_of_ne hne]

end Sent

/-! ### Whole histories -/

section Histories

variable {qt : QueueType} {all xs : List Entry} {s t : Tm Broker}

theorem sent_declare {x : Entry} (hall : Unshared all) (hx : x ∈ all)
    (h : declare brokerConnection qt x s = (.ok (), t)) : ∀ y ∈ all, sent qt t y = sent qt s y := by
  intro y hy
  exact sent_written (declare_broker_iff.mp h).2.1 (hall x hx y hy)

theorem forEach_sends (hall : Unshared all) (hxs : ∀ x ∈ xs, x ∈ all)
    (h : forEach (declare brokerConnection qt) xs s = (.ok (), t)) :
    s.env.declareAll (xs.map (sent qt s)) = .ok t.env ∧ ∀ y ∈ all, sent qt t y = sent qt s y := by
  induction xs generalizing s with
  | nil =>
    cases h
    exact ⟨rfl, fun _ _ => rfl⟩
  | cons x xs ih =>
    obtain ⟨⟨⟩, u, hx, hrest⟩ := forEach_cons.mp h
    have hsame := sent_declare hall (hxs x List.mem_cons_self) hx
    have hxs' : ∀ y ∈ xs, y ∈ all := fun y hy => hxs y (List.mem_cons_of_mem x hy)
    obtain ⟨hdeclared, hsent⟩ := ih hxs' hrest
    have hmap : xs.map (sent qt u) = xs.map (sent qt s) := List.map_congr_left fun y hy => hsame y (hxs' y hy)
    rw [hmap] at hdeclared
    exact ⟨Broker.declareAll_cons.mpr ⟨u.env, (declare_broker_iff.mp hx).1, hdeclared⟩,
      fun y hy => (hsent y hy).trans (hsame y hy)⟩

theorem forEach_succeeds {b : Broker} (hall : Unshared all) (hxs : ∀ x ∈ xs, x ∈ all)
    (h : s.env.declareAll (xs.map (sent qt s)) = .ok b) :
    ∃ t, forEach (declare brokerConnection qt) xs s = (.ok (), t) ∧ t.env = b := by
  induction xs generalizing s with
  | nil =>
    cases h
    exact ⟨s, rfl, rfl⟩
  | cons x xs ih =>
    obtain ⟨a, ha, hrest⟩ := Broker.declareAll_cons.mp h
    obtain ⟨u, hu, henv⟩ : ∃ u, declare brokerConnection qt x s = (.ok (), u) ∧ u.env = a :=
      ⟨⟨written qt s x, s.next, s.topology.add x, a⟩, declare_broker_iff.mpr ⟨ha, rfl, rfl, rfl⟩, rfl⟩
    have hsame := sent_declare hall (hxs x List.mem_cons_self) hu
    have hxs' : ∀ y ∈ xs, y ∈ all := fun y hy => hxs y (List.mem_cons_of_mem x hy)
    have hmap : xs.map (sent qt s) = xs.map (sent qt u) := List.map_congr_left fun y hy => (hsame y (hxs' y hy)).symm
    rw [hmap, ← henv] at hrest
    obtain ⟨t, ht, htb⟩ := ih hxs' hrest
    exact ⟨t, forEach_cons.mpr ⟨(), u, hu, ht⟩, htb⟩

-- The cache keeps the calls by kind, each kind in the order of the calls.
theorem entries_sent (calls : List Entry) :
    (calls.foldl TopologyCache.add .empty).entries.map (sent qt s) = Broker.byKind (calls.map (sent qt s)) := by
  rw [TopologyCache.foldl_add]
  simp only [TopologyCache.empty, TopologyCache.entries, List.nil_append, List.map_append, Broker.byKind]
  congr 1
  · induction calls with
    | nil => rfl
    | cons x calls ih =>
      cases x <;> simpa [List.filterMap_cons, Entry.exchange?, sent, Broker.exchangeItem] using ih
  · congr 1
    · induction calls with
      | nil => rfl
      | cons x calls ih =>
        cases x <;> simpa [List.filterMap_cons, Entry.queue?, sent, Broker.queueItem] using ih
    · induction calls with
      | nil => rfl
      | cons x calls ih =>
        cases x <;> simpa [List.filterMap_cons, List.filter_cons, Entry.binding?, sent, Broker.isBinding] using ih

theorem mem_entries_foldl (x : Entry) (calls : List Entry) (c : TopologyCache) :
    x ∈ (calls.foldl TopologyCache.add c).entries ↔ x ∈ c.entries ∨ x ∈ calls := by
  induction calls generalizing c with
  | nil => simp
  | cons y calls ih => rw [List.foldl_cons, ih, TopologyCache.mem_entries_add, List.mem_cons, or_assoc]

theorem exchangeItem_sent (calls : List Entry) (n : String) :
    (∃ p, (n, p) ∈ (calls.map (sent qt s)).filterMap Broker.exchangeItem) ↔
      ∃ c, .exchange c ∈ calls ∧ c.name = n := by
  simp only [List.mem_filterMap, List.mem_map]
  constructor
  · rintro ⟨p, d, ⟨y, hy, rfl⟩, hitem⟩
    cases y with
    | exchange c =>
      cases hitem
      exact ⟨c, hy, rfl⟩
    | queue c => cases hitem
    | binding c => cases hitem
  · rintro ⟨c, hc, rfl⟩
    exact ⟨_, _, ⟨_, hc, rfl⟩, rfl⟩

theorem queueItem_sent (calls : List Entry) (n : String) :
    (∃ p, (n, p) ∈ (calls.map (sent qt s)).filterMap Broker.queueItem) ↔ ∃ c, .queue c ∈ calls ∧ c.name = n := by
  simp only [List.mem_filterMap, List.mem_map]
  constructor
  · rintro ⟨p, d, ⟨y, hy, rfl⟩, hitem⟩
    cases y with
    | queue c =>
      cases hitem
      exact ⟨c, hy, rfl⟩
    | exchange c => cases hitem
    | binding c => cases hitem
  · rintro ⟨c, hc, rfl⟩
    exact ⟨_, _, ⟨_, hc, rfl⟩, rfl⟩

theorem binding_sent (calls : List Entry) (y : Binding) :
    Decl.binding y ∈ calls.map (sent qt s) ↔ ∃ c, .binding c ∈ calls ∧ y = bindingOf c (s.table c.args) := by
  rw [List.mem_map]
  constructor
  · rintro ⟨x, hx, hxy⟩
    cases x with
    | binding c =>
      cases hxy
      exact ⟨c, hx, rfl⟩
    | exchange c => cases hxy
    | queue c => cases hxy
  · rintro ⟨c, hc, rfl⟩
    exact ⟨_, hc, rfl⟩

end Histories

/- Each binding comes after a declaration of its exchange and of its queue. -/
def EndsDeclared (calls : List Entry) : Prop :=
  ∀ before c after, calls = before ++ .binding c :: after →
    (∃ e, .exchange e ∈ before ∧ e.name = c.exchange) ∧ ∃ q, .queue q ∈ before ∧ q.name = c.queueName

theorem EndsDeclared.sent {calls : List Entry} (h : EndsDeclared calls) (qt : QueueType) (s : Tm Broker) :
    ∀ x, Decl.binding x ∈ calls.map (sent qt s) →
      (∃ e, Decl.exchange e ∈ calls.map (sent qt s) ∧ e.name = x.exchange) ∧
        ∃ q, Decl.queue q ∈ calls.map (sent qt s) ∧ q.name = x.queue := by
  intro x hx
  obtain ⟨y, hy, hsent⟩ := List.mem_map.mp hx
  cases y with
  | exchange c => cases hsent
  | queue c => cases hsent
  | binding c =>
    cases hsent
    obtain ⟨before, after, hsplit⟩ := List.append_of_mem hy
    obtain ⟨⟨e, he, hename⟩, q, hq, hqname⟩ := h before c after hsplit
    have hmem : ∀ z ∈ before, z ∈ calls := by
      intro z hz
      rw [hsplit]
      exact List.mem_append_left _ hz
    exact ⟨⟨_, List.mem_map.mpr ⟨_, hmem _ he, rfl⟩, hename⟩, _, List.mem_map.mpr ⟨_, hmem _ hq, rfl⟩, hqname⟩

-- a queue with a map of its own, declared twice, before the exchange it is bound to
def ordersCalls : List Entry :=
  [.queue { name := "orders", durable := true, args := some 0 },
    .exchange { name := "events", kind := "topic", durable := true },
    .binding { queueName := "orders", exchange := "events", routingKey := "order.#" },
    .queue { name := "orders", durable := true, args := some 0 }]

-- a manager that holds the map of the queue
def ordersManager : Tm Broker := ⟨fun _ => [("x-max-length", .int 10)], 1, .empty, .empty⟩

end Ghost.Rabbitmq
