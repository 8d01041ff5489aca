import Ghost.Rabbitmq.Topology
import Mathlib.Data.List.Basic
import Mathlib.Tactic.Tauto

/-!
# A restore that fails half way

`restoreTopology` empties the cache and lets the declarations refill it. When
one of them fails it returns at once, so the cache holds what was re-declared
before the failure and nothing of what was still to come. The three loops are
one loop over the list of all entries, and the point of failure is an index
into that list.
-/

namespace Ghost.Rabbitmq
open Go Amqp

variable {σ : Type}

inductive Entry where
  | exchange (c : ExchangeConfig)
  | queue (c : QueueConfig)
  | binding (c : BindingConfig)
  deriving DecidableEq, Repr

/-- The cached declarations in the order `restoreTopology` replays them. -/
def TopologyCache.entries (c : TopologyCache) : List Entry :=
  c.exchanges.map .exchange ++ (c.queues.map .queue ++ c.bindings.map .binding)

def TopologyCache.add (c : TopologyCache) : Entry → TopologyCache
  | .exchange e => { c with exchanges := c.exchanges ++ [e] }
  | .queue q => { c with queues := c.queues ++ [q] }
  | .binding b => { c with bindings := c.bindings ++ [b] }

theorem TopologyCache.mem_entries_add (c : TopologyCache) (x y : Entry) :
    x ∈ (c.add y).entries ↔ x ∈ c.entries ∨ x = y := by
  cases y <;> simp only [add, entries, List.map_append, List.mem_append, List.map_cons,
    List.map_nil, List.mem_singleton]
  · tauto
  · tauto
  · tauto

def Entry.exchange? : Entry → Option ExchangeConfig
  | .exchange c => some c
  | _ => none

def Entry.queue? : Entry → Option QueueConfig
  | .queue c => some c
  | _ => none

def Entry.binding? : Entry → Option BindingConfig
  | .binding c => some c
  | _ => none

theorem TopologyCache.entries_lists (c : TopologyCache) :
    c.entries.filterMap Entry.exchange? = c.exchanges ∧ c.entries.filterMap Entry.queue? = c.queues ∧
      c.entries.filterMap Entry.binding? = c.bindings := by
  simp [TopologyCache.entries, List.filterMap_append, List.filterMap_map, Function.comp_def, Entry.exchange?,
    Entry.queue?, Entry.binding?]

theorem TopologyCache.foldl_add (xs : List Entry) (c : TopologyCache) :
    xs.foldl TopologyCache.add c = ⟨c.queues ++ xs.filterMap Entry.queue?, c.exchanges ++ xs.filterMap Entry.exchange?,
      c.bindings ++ xs.filterMap Entry.binding?⟩ := by
  induction xs generalizing c with
  | nil => simp
  | cons x xs ih =>
    rw [List.foldl_cons, ih]
    cases x <;> simp [TopologyCache.add, List.filterMap_cons, Entry.exchange?, Entry.queue?, Entry.binding?]

theorem TopologyCache.foldl_add_entries (c : TopologyCache) : c.entries.foldl TopologyCache.add .empty = c := by
  obtain ⟨hexchanges, hqueues, hbindings⟩ := entries_lists c
  rw [foldl_add, hexchanges, hqueues, hbindings]
  rfl

/-- One iteration of the loop over its kind. -/
def declare (a : Connection σ) (qt : QueueType) : Entry → Tm σ → Except Error Unit × Tm σ
  | .exchange c, s => declareExchange a c s
  | .queue c, s =>
    match declareQueue a qt c s with
    | (.error e, t) => (.error e, t)
    | (.ok _, t) => (.ok (), t)
  | .binding c, s => bindQueue a c s

/-! ### The three loops are one -/

theorem forEach_cons {α β : Type} {f : α → Tm σ → Except Error β × Tm σ} {x : α} {xs : List α} {s t : Tm σ} :
    forEach f (x :: xs) s = (.ok (), t) ↔ ∃ v u, f x s = (.ok v, u) ∧ forEach f xs u = (.ok (), t) := by
  simp only [forEach]
  cases f x s with
  | mk r u => cases r <;> simp

theorem forEach_append {α β : Type} (f : α → Tm σ → Except Error β × Tm σ) (xs ys : List α)
    (s : Tm σ) :
    forEach f (xs ++ ys) s =
      match forEach f xs s with
      | (.error e, t) => (.error e, t)
      | (.ok (), t) => forEach f ys t := by
  induction xs generalizing s with
  | nil => rfl
  | cons x xs ih =>
    simp only [List.cons_append, forEach]
    split
    · rfl
    · exact ih _

/-- A loop whose body only differs in the value it returns on success. -/
theorem forEach_map {α β γ δ : Type} (f : β → Tm σ → Except Error δ × Tm σ)
    (g : α → Tm σ → Except Error γ × Tm σ) (h : α → β)
    (herr : ∀ x s e t, g x s = (.error e, t) → f (h x) s = (.error e, t))
    (hok : ∀ x s v t, g x s = (.ok v, t) → ∃ w, f (h x) s = (.ok w, t)) (xs : List α) (s : Tm σ) :
    forEach f (xs.map h) s = forEach g xs s := by
  induction xs generalizing s with
  | nil => rfl
  | cons x xs ih =>
    simp only [List.map_cons, forEach]
    cases hg : g x s with
    | mk r t =>
      cases r with
      | error e => rw [herr x s e t hg]
      | ok v =>
        obtain ⟨w, hw⟩ := hok x s v t hg
        rw [hw]
        exact ih t

theorem restoreTopology_eq (a : Connection σ) (qt : QueueType) (s : Tm σ) :
    restoreTopology a qt s =
      forEach (declare a qt) s.topology.entries { s with topology := .empty } := by
  have hex : ∀ t, forEach (declare a qt) (s.topology.exchanges.map .exchange) t =
      forEach (declareExchange a) s.topology.exchanges t :=
    fun t => forEach_map (declare a qt) (declareExchange a) .exchange (fun x s e t h => h)
      (fun x s v t h => ⟨v, h⟩) _ t
  have hqu : ∀ t, forEach (declare a qt) (s.topology.queues.map .queue) t =
      forEach (declareQueue a qt) s.topology.queues t :=
    fun t => forEach_map (declare a qt) (declareQueue a qt) .queue
      (fun x s e t h => by simp only [declare, h])
      (fun x s v t h => ⟨(), by simp only [declare, h]⟩) _ t
  have hbi : ∀ t, forEach (declare a qt) (s.topology.bindings.map .binding) t =
      forEach (bindQueue a) s.topology.bindings t :=
    fun t => forEach_map (declare a qt) (bindQueue a) .binding (fun x s e t h => h)
      (fun x s v t h => ⟨v, h⟩) _ t
  cases hx : forEach (declareExchange a) s.topology.exchanges { s with topology := .empty } with
  | mk r t =>
    cases r with
    | error e => simp only [restoreTopology, TopologyCache.entries, forEach_append, hex, hx]
    | ok u =>
      cases hq : forEach (declareQueue a qt) s.topology.queues t with
      | mk r t =>
        cases r with
        | error e => simp only [restoreTopology, TopologyCache.entries, forEach_append, hex, hx, hqu, hq]
        | ok u => simp only [restoreTopology, TopologyCache.entries, forEach_append, hex, hx, hqu, hq, hbi]

/-! ### A connection that answers from a script -/

-- How the n-th declaration fares: its channel, then the broker's answer.
inductive Reply where
  | ok
  | channelError (e : Error)
  | declareError (e : Error)
  deriving DecidableEq

-- The state is the number of declarations answered so far.
def scripted (reply : Nat → Reply) : Connection Nat where
  createConsumerChannel n :=
    match reply n with
    | .channelError e => (some e, n + 1)
    | _ => (none, n)
  exchangeDeclare _ _ n :=
    match reply n with
    | .declareError e => (some e, n + 1)
    | _ => (none, n + 1)
  queueDeclare config _ n :=
    match reply n with
    | .declareError e => (.error e, n + 1)
    | _ => (.ok config.name, n + 1)
  queueBind _ _ n :=
    match reply n with
    | .declareError e => (some e, n + 1)
    | _ => (none, n + 1)

theorem quorumArgs_topology (qt : QueueType) (c : QueueConfig) (s : Tm σ) :
    (quorumArgs qt c s).2.topology = s.topology := by
  unfold quorumArgs
  split
  · cases hc : c.args <;> rfl
  · rfl

theorem declare_scripted_ok (reply : Nat → Reply) (qt : QueueType) (x : Entry) (s : Tm Nat)
    (h : reply s.env = .ok) :
    ∃ t, declare (scripted reply) qt x s = (.ok (), t) ∧ t.env = s.env + 1 ∧
      t.topology = s.topology.add x := by
  cases x with
  | exchange c =>
    simp only [declare, declareExchange, scripted, h]
    exact ⟨_, rfl, rfl, rfl⟩
  | queue c =>
    simp only [declare, declareQueue, scripted, h]
    refine ⟨_, rfl, rfl, ?_⟩
    simp only [TopologyCache.add, quorumArgs_topology]
  | binding c =>
    simp only [declare, bindQueue, scripted, h]
    exact ⟨_, rfl, rfl, rfl⟩

theorem declare_scripted_error (reply : Nat → Reply) (qt : QueueType) (x : Entry) (s : Tm Nat)
    (h : reply s.env ≠ .ok) :
    ∃ e t, declare (scripted reply) qt x s = (.error e, t) ∧ t.topology = s.topology := by
  cases hr : reply s.env with
  | ok => exact absurd hr h
  | channelError e =>
    cases x with
    | exchange c =>
      simp only [declare, declareExchange, scripted, hr]
      exact ⟨_, _, rfl, rfl⟩
    | queue c =>
      simp only [declare, declareQueue, scripted, hr]
      exact ⟨_, _, rfl, rfl⟩
    | binding c =>
      simp only [declare, bindQueue, scripted, hr]
      exact ⟨_, _, rfl, rfl⟩
  | declareError e =>
    cases x with
    | exchange c =>
      simp only [declare, declareExchange, scripted, hr]
      exact ⟨_, _, rfl, rfl⟩
    | queue c =>
      simp only [declare, declareQueue, scripted, hr]
      exact ⟨_, _, rfl, quorumArgs_topology qt c s⟩
    | binding c =>
      simp only [declare, bindQueue, scripted, hr]
      exact ⟨_, _, rfl, rfl⟩

/-! ### What is left after the failure -/

/- The loop over `xs` meets its first bad answer at index `k`: the cache has
grown by the first `k` entries. -/
theorem forEach_fails_at (reply : Nat → Reply) (qt : QueueType) (xs : List Entry) (k : Nat)
    (s : Tm Nat) (hk : k < xs.length) (hok : ∀ j < k, reply (s.env + j) = .ok)
    (hfail : reply (s.env + k) ≠ .ok) :
    ∃ e t, forEach (declare (scripted reply) qt) xs s = (.error e, t) ∧
      ∀ x, x ∈ t.topology.entries ↔ x ∈ s.topology.entries ∨ x ∈ xs.take k := by
  induction xs generalizing k s with
  | nil => simp at hk
  | cons y ys ih =>
    cases k with
    | zero =>
      obtain ⟨e, t, hd, ht⟩ := declare_scripted_error reply qt y s hfail
      refine ⟨e, t, by simp only [forEach, hd], fun x => ?_⟩
      rw [ht]
      simp
    | succ k =>
      obtain ⟨u, hd, henv, hu⟩ := declare_scripted_ok reply qt y s (hok 0 (by omega))
      have hlen : k < ys.length := by
        simp only [List.length_cons] at hk
        omega
      have hok' : ∀ j < k, reply (u.env + j) = .ok := by
        intro j hj
        rw [henv, Nat.add_assoc, Nat.add_comm 1 j]
        exact hok (j + 1) (by omega)
      have hfail' : reply (u.env + k) ≠ .ok := by
        rw [henv, Nat.add_assoc, Nat.add_comm 1 k]
        exact hfail
      obtain ⟨e, t, ht, hmem⟩ := ih k u hlen hok' hfail'
      refine ⟨e, t, by simp only [forEach, hd, ht], fun x => ?_⟩
      rw [hmem, hu, TopologyCache.mem_entries_add, List.take_succ_cons, List.mem_cons]
      tauto

/-- A topology manager of a client with the given cache, on a fresh script. -/
def cached (heap : Ref → Table) (next : Ref) (c : TopologyCache) : Tm Nat := ⟨heap, next, c, 0⟩

/- For every cache and every failure point `k`: the cache keeps all it held
exactly when each entry from the failing one on repeats an earlier one. -/
theorem restoreTopology_keeps_iff (reply : Nat → Reply) (qt : QueueType) (heap : Ref → Table)
    (next : Ref) (c : TopologyCache) (k : Nat) (hk : k < c.entries.length)
    (hok : ∀ j < k, reply j = .ok) (hfail : reply k ≠ .ok) :
    ∃ e t, restoreTopology (scripted reply) qt (cached heap next c) = (.error e, t) ∧
      ((∀ x ∈ c.entries, x ∈ t.topology.entries) ↔
        ∀ x ∈ c.entries.drop k, x ∈ c.entries.take k) := by
  obtain ⟨e, t, ht, hmem⟩ := forEach_fails_at reply qt c.entries k
    { cached heap next c with topology := .empty } hk
    (by simpa only [cached, Nat.zero_add] using hok) (by simpa only [cached, Nat.zero_add] using hfail)
  have hleft : ∀ x, x ∈ t.topology.entries ↔ x ∈ c.entries.take k := by
    intro x
    rw [hmem]
    simp [TopologyCache.empty, TopologyCache.entries]
  refine ⟨e, t, by rw [restoreTopology_eq]; exact ht, ?_⟩
  simp only [hleft]
  constructor
  · intro h x hx
    exact h x (List.mem_of_mem_drop hx)
  · intro h x hx
    rw [← List.take_append_drop k c.entries, List.mem_append] at hx
    rcases hx with hx | hx
    · exact hx
    · exact h x hx

/-! ### One lost queue -/

def ordersCache : TopologyCache where
  exchanges := [{ name := "orders.dlx", kind := "topic", durable := true }]
  queues := [{ name := "orders", durable := true }]
  bindings := []

-- the exchange comes back, then the broker refuses the queue
def refuseSecond : Nat → Reply
  | 1 => .declareError (.new "amqp" "Exception (541) Reason: INTERNAL_ERROR")
  | _ => .ok

theorem restoreTopology_keeps_iff_orders :
    ∃ e t, restoreTopology (scripted refuseSecond) .quorum (cached (fun _ => []) 0 ordersCache) =
        (.error e, t) ∧
      ((∀ x ∈ ordersCache.entries, x ∈ t.topology.entries) ↔
        ∀ x ∈ ordersCache.entries.drop 1, x ∈ ordersCache.entries.take 1) := by
  refine restoreTopology_keeps_iff refuseSecond .quorum (fun _ => []) 0 ordersCache 1 (by decide)
    (fun j hj => ?_) (by decide)
  have hj0 : j = 0 := by omega
  rw [hj0]
  rfl

theorem restoreTopology_loses_queue :
    ∃ e t, restoreTopology (scripted refuseSecond) .quorum (cached (fun _ => []) 0 ordersCache) =
        (.error e, t) ∧
      Entry.queue { name := "orders", durable := true } ∈ ordersCache.entries ∧
      Entry.queue { name := "orders", durable := true } ∉ t.topology.entries := by
  exact ⟨_, _, rfl, by decide, by decide⟩

end Ghost.Rabbitmq
