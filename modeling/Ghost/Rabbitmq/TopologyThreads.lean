import Ghost.Rabbitmq.Restore
import Ghost.Transition.History
import Ghost.Transition.Threads

/-!
# The topology cache under concurrency (rabbitmq/topology.go)

Any number of `restoreTopology` runs and of `DeclareExchange`, `DeclareQueue`
and `BindQueue` calls over one cache. A goroutine stops before each of its
critical sections and before each call to the broker. `restoreTopology` empties
the cache, and what it took out is its own until the declarations have put it
back.
-/

namespace Ghost.Rabbitmq.TopologyThreads
open Go Amqp Transition

variable {σ : Type} {a : Connection σ} {qt : QueueType}

/-! ### The goroutines -/

/- Where a goroutine stands; `rest` is what a `restoreTopology` still has to declare
after `x`, and empty in a call from outside. -/
inductive Pc where
  | snapshot
  | opening (x : Entry) (rest : List Entry)
  | calling (x : Entry) (rest : List Entry)
  | caching (x : Entry) (rest : List Entry)
  | done (err : Option Error)

-- the head of the loops of `restoreTopology`
def turn : List Entry → Pc
  | [] => .done none
  | x :: rest => .opening x rest

/-- The call to the broker inside a declaration. -/
def ask (a : Connection σ) (qt : QueueType) (x : Entry) (s : Tm σ) : Option Error × Tm σ :=
  match x with
  | .exchange c =>
    match a.exchangeDeclare c (s.table c.args) s.env with
    | (some e, env) => (some (e.annotate ("failed to declare exchange " ++ c.name)), { s with env := env })
    | (none, env) => (none, { s with env := env })
  | .queue c =>
    match a.queueDeclare c (quorumArgs qt c s).1 s.env with
    | (.error e, env) =>
      (some (e.annotate ("failed to declare queue " ++ c.name)), { (quorumArgs qt c s).2 with env := env })
    | (.ok _, env) => (none, { (quorumArgs qt c s).2 with env := env })
  | .binding c =>
    match a.queueBind c (s.table c.args) s.env with
    | (some e, env) =>
      (some (e.annotate ("failed to bind queue " ++ c.queueName ++ " to exchange " ++ c.exchange)),
        { s with env := env })
    | (none, env) => (none, { s with env := env })

def stepPc (a : Connection σ) (qt : QueueType) (s : Tm σ) : Pc → Option (Tm σ × Pc)
  | .snapshot => some ({ s with topology := .empty }, turn s.topology.entries)
  | .opening x rest =>
    match a.createConsumerChannel s.env with
    | (some e, env) => some ({ s with env := env }, .done (some (e.annotate "failed to create channel")))
    | (none, env) => some ({ s with env := env }, .calling x rest)
  | .calling x rest =>
    match ask a qt x s with
    | (some e, t) => some (t, .done (some e))
    | (none, t) => some (t, .caching x rest)
  | .caching x rest => some ({ s with topology := s.topology.add x }, turn rest)
  | .done _ => none

structure Sys (σ : Type) where
  tm : Tm σ
  threads : List Pc

inductive Action (σ : Type) where
  | restore
  | call (x : Entry)
  | run (i : Nat)
  -- whatever else happens to the argument maps and behind the connection
  | outside (heap : Ref → Table) (next : Ref) (env : σ)

def step (a : Connection σ) (qt : QueueType) (s : Sys σ) : Action σ → Option (Sys σ)
  | .restore => some { s with threads := s.threads ++ [.snapshot] }
  | .call x => some { s with threads := s.threads ++ [.opening x []] }
  | .run i =>
    match s.threads[i]? with
    | none => none
    | some pc =>
      match stepPc a qt s.tm pc with
      | none => none
      | some (tm, next) => some ⟨tm, Threads.advance s.threads i next []⟩
  | .outside heap next env => some { s with tm := { s.tm with heap := heap, next := next, env := env } }

def called (_ : Sys σ) (act : Action σ) (calls : List Entry) : List Entry :=
  match act with
  | .call x => calls ++ [x]
  | _ => calls

/-! ### A goroutine alone is the function -/

theorem quorumArgs_env (c : QueueConfig) (s : Tm σ) (env : σ) :
    quorumArgs qt c { s with env := env } = ((quorumArgs qt c s).1, { (quorumArgs qt c s).2 with env := env }) := by
  unfold quorumArgs
  cases hc : c.args with
  | none => split <;> rfl
  | some r => split <;> rfl

theorem declare_eq (x : Entry) (s : Tm σ) :
    declare a qt x s =
      match a.createConsumerChannel s.env with
      | (some e, env) => (.error (e.annotate "failed to create channel"), { s with env := env })
      | (none, env) =>
        match ask a qt x { s with env := env } with
        | (some e, t) => (.error e, t)
        | (none, t) => (.ok (), { t with topology := t.topology.add x }) := by
  cases hch : a.createConsumerChannel s.env with
  | mk err env =>
    have htable : ∀ args, Tm.table { s with env := env } args = s.table args := by
      intro args
      cases args <;> rfl
    cases err with
    | some e => cases x <;> simp only [declare, declareExchange, declareQueue, bindQueue, hch]
    | none =>
      cases x with
      | exchange c =>
        simp only [declare, declareExchange, hch, ask, htable]
        rcases a.exchangeDeclare c (s.table c.args) env with ⟨_ | e, env'⟩ <;> rfl
      | queue c =>
        simp only [declare, declareQueue, hch, ask, quorumArgs_env]
        rcases a.queueDeclare c (quorumArgs qt c s).1 env with ⟨e | name, env'⟩ <;> rfl
      | binding c =>
        simp only [declare, bindQueue, hch, ask, htable]
        rcases a.queueBind c (s.table c.args) env with ⟨_ | e, env'⟩ <;> rfl

theorem step_run {s : Sys σ} {i : Nat} {pc next : Pc} {tm : Tm σ} (hpc : s.threads[i]? = some pc)
    (h : stepPc a qt s.tm pc = some (tm, next)) :
    step a qt s (.run i) = some ⟨tm, Threads.advance s.threads i next []⟩ := by
  simp only [step, hpc, h]

theorem advance_twice {gs : List Pc} {i : Nat} (x y : Pc) :
    Threads.advance (Threads.advance gs i x []) i y [] = Threads.advance gs i y [] := by
  simp [Threads.advance]

-- The next step of a goroutine that has just moved.
theorem step_again {gs : List Pc} {i : Nat} {first pc next : Pc} {tm tm' : Tm σ} (hgs : gs[i]? = some first)
    (h : stepPc a qt tm pc = some (tm', next)) :
    step a qt ⟨tm, Threads.advance gs i pc []⟩ (.run i) = some ⟨tm', Threads.advance gs i next []⟩ := by
  rw [step_run (s := ⟨tm, Threads.advance gs i pc []⟩) (Threads.getElem?_advance_self hgs) h]
  simp only [advance_twice]

def afterDeclare (rest : List Entry) : Except Error Unit → Pc
  | .error e => .done (some e)
  | .ok () => turn rest

-- One declaration by one goroutine while nobody else moves.
theorem declare_alone (a : Connection σ) (qt : QueueType) (x : Entry) (rest : List Entry) (s : Sys σ) (i : Nat)
    (hpc : s.threads[i]? = some (.opening x rest)) :
    ∃ n, exec (step a qt) s (List.replicate n (.run i)) =
      some ⟨(declare a qt x s.tm).2,
        Threads.advance s.threads i (afterDeclare rest (declare a qt x s.tm).1) []⟩ := by
  cases hch : a.createConsumerChannel s.tm.env with
  | mk err env =>
    cases err with
    | some e =>
      have hopen : stepPc a qt s.tm (.opening x rest) = some ({ s.tm with env := env },
          .done (some (e.annotate "failed to create channel"))) := by
        simp only [stepPc, hch]
      simp only [declare_eq, hch]
      exact ⟨1, exec_single (step_run hpc hopen)⟩
    | none =>
      have hopen : stepPc a qt s.tm (.opening x rest) = some ({ s.tm with env := env }, .calling x rest) := by
        simp only [stepPc, hch]
      have hfirst := step_run hpc hopen
      cases hask : ask a qt x { s.tm with env := env } with
      | mk err t =>
        cases err with
        | some e =>
          have hcall : stepPc a qt { s.tm with env := env } (.calling x rest) = some (t, .done (some e)) := by
            simp only [stepPc, hask]
          simp only [declare_eq, hch, hask]
          exact ⟨2, exec_cons_eq_some.mpr ⟨_, hfirst, exec_single (step_again hpc hcall)⟩⟩
        | none =>
          have hcall : stepPc a qt { s.tm with env := env } (.calling x rest) = some (t, .caching x rest) := by
            simp only [stepPc, hask]
          have hcache : stepPc a qt t (.caching x rest) =
              some ({ t with topology := t.topology.add x }, turn rest) := rfl
          simp only [declare_eq, hch, hask]
          exact ⟨3, exec_cons_eq_some.mpr ⟨_, hfirst,
            exec_cons_eq_some.mpr ⟨_, step_again hpc hcall, exec_single (step_again hpc hcache)⟩⟩⟩

def errOf : Except Error Unit → Option Error
  | .ok () => none
  | .error e => some e

theorem loop_alone (a : Connection σ) (qt : QueueType) (xs : List Entry) (s : Sys σ) (i : Nat) (hpc : s.threads[i]? = some (turn xs)) :
    ∃ n, exec (step a qt) s (List.replicate n (.run i)) =
      some ⟨(forEach (declare a qt) xs s.tm).2,
        Threads.advance s.threads i (.done (errOf (forEach (declare a qt) xs s.tm).1)) []⟩ := by
  induction xs generalizing s with
  | nil =>
    refine ⟨0, ?_⟩
    have hget := (List.getElem?_eq_some_iff.mp hpc).2
    simp [Threads.advance, forEach, errOf, ← show turn [] = Pc.done none from rfl, ← hget]
  | cons x xs ih =>
    obtain ⟨n, hn⟩ := declare_alone a qt x xs s i hpc
    cases hdeclare : declare a qt x s.tm with
    | mk r t =>
      rw [hdeclare] at hn
      cases r with
      | error e =>
        refine ⟨n, hn.trans ?_⟩
        simp only [forEach, hdeclare, errOf, afterDeclare]
      | ok =>
        obtain ⟨m, hm⟩ := ih ⟨t, Threads.advance s.threads i (turn xs) []⟩ (Threads.getElem?_advance_self hpc)
        refine ⟨n + m, ?_⟩
        rw [← List.replicate_append_replicate]
        refine (exec_trans hn hm).trans ?_
        rw [advance_twice]
        simp only [forEach, hdeclare]

/-- A `restoreTopology` that nobody interrupts is the function of that name. -/
theorem restore_alone (a : Connection σ) (qt : QueueType) (s : Sys σ) (i : Nat) (hpc : s.threads[i]? = some .snapshot) :
    ∃ n, exec (step a qt) s (List.replicate n (.run i)) =
      some ⟨(restoreTopology a qt s.tm).2,
        Threads.advance s.threads i (.done (errOf (restoreTopology a qt s.tm).1)) []⟩ := by
  have hsnapshot : stepPc a qt s.tm .snapshot =
      some ({ s.tm with topology := .empty }, turn s.tm.topology.entries) := rfl
  obtain ⟨n, hn⟩ := loop_alone a qt s.tm.topology.entries
    ⟨{ s.tm with topology := .empty }, Threads.advance s.threads i (turn s.tm.topology.entries) []⟩ i
    (Threads.getElem?_advance_self hpc)
  rw [advance_twice, ← restoreTopology_eq] at hn
  exact ⟨n + 1, exec_cons_eq_some.mpr ⟨_, step_run hpc hsnapshot, hn⟩⟩

/-! ### Entries are conserved -/

def Pc.held : Pc → List Entry
  | .snapshot | .done _ => []
  | .opening x rest | .calling x rest | .caching x rest => x :: rest

def Pc.failed : Pc → Prop
  | .done (some _) => True
  | _ => False

theorem held_turn (xs : List Entry) : (turn xs).held = xs := by
  cases xs <;> rfl

theorem count_entries_add (c : TopologyCache) (x y : Entry) :
    (c.add y).entries.count x = c.entries.count x + [y].count x := by
  cases y <;> simp only [TopologyCache.add, TopologyCache.entries, List.map_append, List.count_append, List.map_cons,
    List.map_nil] <;> omega

theorem ask_topology (a : Connection σ) (qt : QueueType) (x : Entry) (s : Tm σ) : (ask a qt x s).2.topology = s.topology := by
  cases x with
  | exchange c =>
    simp only [ask]
    rcases a.exchangeDeclare c (s.table c.args) s.env with ⟨_ | e, env'⟩ <;> rfl
  | queue c =>
    simp only [ask]
    rcases a.queueDeclare c (quorumArgs qt c s).1 s.env with ⟨e | name, env'⟩ <;> exact quorumArgs_topology qt c s
  | binding c =>
    simp only [ask]
    rcases a.queueBind c (s.table c.args) s.env with ⟨_ | e, env'⟩ <;> rfl

/- A step of a goroutine moves entries between the cache and its hands, or fails. -/
theorem stepPc_conserves {s t : Tm σ} {pc next : Pc} (h : stepPc a qt s pc = some (t, next)) :
    next.failed ∨ ∀ x, t.topology.entries.count x + next.held.count x =
      s.topology.entries.count x + pc.held.count x := by
  cases pc with
  | snapshot =>
    cases h
    refine .inr fun x => ?_
    rw [held_turn]
    simp [TopologyCache.empty, TopologyCache.entries, Pc.held]
  | opening y rest =>
    simp only [stepPc] at h
    split at h
    · cases h
      exact .inl trivial
    · cases h
      exact .inr fun x => rfl
  | calling y rest =>
    have htopology := ask_topology a qt y s
    simp only [stepPc] at h
    split at h
    · cases h
      exact .inl trivial
    · rename_i u hask
      cases h
      rw [hask] at htopology
      refine .inr fun x => ?_
      rw [htopology]
      rfl
  | caching y rest =>
    cases h
    refine .inr fun x => ?_
    have hadd := count_entries_add s.topology x y
    have hcons : (y :: rest).count x = [y].count x + rest.count x := by
      rw [List.count_cons, List.count_singleton, Nat.add_comm]
    rw [held_turn]
    show (s.topology.add y).entries.count x + rest.count x = s.topology.entries.count x + (y :: rest).count x
    omega
  | done err => cases h

/- What the cache and the goroutines hold together. -/
def Balanced (init : List Entry) (s : Sys σ) (calls : List Entry) : Prop :=
  ∀ x, s.tm.topology.entries.count x + (s.threads.flatMap Pc.held).count x = init.count x + calls.count x

theorem step_balanced {init calls : List Entry} {s t : Sys σ} {act : Action σ}
    (hs : (∃ pc ∈ s.threads, pc.failed) ∨ Balanced init s calls) (h : step a qt s act = some t) :
    (∃ pc ∈ t.threads, pc.failed) ∨ Balanced init t (called s act calls) := by
  cases act with
  | restore =>
    cases h
    refine hs.imp (fun ⟨pc, hpc, hf⟩ => ⟨pc, List.mem_append_left _ hpc, hf⟩) fun hb x => ?_
    simpa [called, Pc.held] using hb x
  | call y =>
    cases h
    refine hs.imp (fun ⟨pc, hpc, hf⟩ => ⟨pc, List.mem_append_left _ hpc, hf⟩) fun hb x => ?_
    have hx := hb x
    simp only [called, List.flatMap_append, List.flatMap_cons, List.flatMap_nil, Pc.held, List.append_nil,
      List.count_append]
    omega
  | outside heap next env =>
    cases h
    exact hs.imp id fun hb x => hb x
  | run i =>
    simp only [step] at h
    split at h
    · cases h
    · rename_i pc hpc
      split at h
      · cases h
      · rename_i tm next hnext
        cases h
        rcases stepPc_conserves hnext with hfailed | hcount
        · exact .inl ⟨next, List.mem_of_getElem? (Threads.getElem?_advance_self hpc), hfailed⟩
        · refine hs.imp (fun hf => Threads.exists_mem_advance hpc hf fun hold => ?_) fun hb x => ?_
          · -- a goroutine that has failed takes no step
            cases pc with
            | done err => cases hnext
            | _ => exact hold.elim
          · have hheld := Threads.countP_advance Pc.held (· == x) next [] hpc
            have hx := hb x
            have hmove := hcount x
            simp only [List.flatMap_nil, List.countP_nil] at hheld
            simp only [called, List.count] at hx hmove ⊢
            omega

/-! ### One restore after the other -/

theorem declare_ok_topology {x : Entry} {s t : Tm σ} (h : declare a qt x s = (.ok (), t)) :
    t.topology = s.topology.add x := by
  rw [declare_eq] at h
  split at h
  · cases h
  · rename_i env hch
    have htopology := ask_topology a qt x { s with env := env }
    split at h
    · cases h
    · rename_i u hask
      rw [hask] at htopology
      cases h
      exact congrArg (TopologyCache.add · x) htopology

theorem forEach_ok_topology {xs : List Entry} {s t : Tm σ} (h : forEach (declare a qt) xs s = (.ok (), t)) :
    t.topology = xs.foldl TopologyCache.add s.topology := by
  induction xs generalizing s with
  | nil =>
    cases h
    rfl
  | cons x xs ih =>
    simp only [forEach] at h
    split at h
    · cases h
    · rename_i u hx
      rw [ih h, declare_ok_topology hx]
      rfl

theorem restoreTopology_ok_topology {s : Tm σ} (h : (restoreTopology a qt s).1 = .ok ()) :
    (restoreTopology a qt s).2.topology = s.topology := by
  rw [restoreTopology_eq] at h ⊢
  rw [forEach_ok_topology (Prod.ext h rfl)]
  exact TopologyCache.foldl_add_entries s.topology

/-- One after the other. -/
def restores (a : Connection σ) (qt : QueueType) : Nat → Tm σ → Except Error Unit × Tm σ
  | 0, s => (.ok (), s)
  | n + 1, s =>
    match restoreTopology a qt s with
    | (.error e, t) => (.error e, t)
    | (.ok (), t) => restores a qt n t

theorem restores_ok_topology {n : Nat} {s : Tm σ} (h : (restores a qt n s).1 = .ok ()) :
    (restores a qt n s).2.topology = s.topology := by
  induction n generalizing s with
  | zero => rfl
  | succ n ih =>
    cases hr : restoreTopology a qt s with
    | mk r t =>
      simp only [restores, hr] at h ⊢
      cases r with
      | error e => cases h
      | ok =>
        have htopology : (restoreTopology a qt s).2.topology = s.topology :=
          restoreTopology_ok_topology (by rw [hr])
        rw [hr] at htopology
        exact (ih h).trans htopology

/-- Whatever the interleaving of restores and calls: once all have returned without an
error, each list holds what it held and one entry for each call; and restores
one after the other leave the lists as they are. -/
theorem topology_conserved (a : Connection σ) (qt : QueueType) (s : Tm σ) :
    (∀ as t calls, exec (noted (step a qt) called) (⟨s, []⟩, []) as = some (t, calls) →
      (∀ pc ∈ t.threads, pc = .done none) →
      t.tm.topology.exchanges.Perm (s.topology.exchanges ++ calls.filterMap Entry.exchange?) ∧
      t.tm.topology.queues.Perm (s.topology.queues ++ calls.filterMap Entry.queue?) ∧
      t.tm.topology.bindings.Perm (s.topology.bindings ++ calls.filterMap Entry.binding?)) ∧
    ∀ n, (restores a qt n s).1 = .ok () → (restores a qt n s).2.topology = s.topology := by
  refine ⟨?_, fun n => restores_ok_topology⟩
  intro as t calls hrun hdone
  have hstep : ∀ (u : Sys σ) (cs : List Entry) (act : Action σ) (v : Sys σ), True →
      ((∃ pc ∈ u.threads, pc.failed) ∨ Balanced s.topology.entries u cs) → True → step a qt u act = some v →
      (∃ pc ∈ v.threads, pc.failed) ∨ Balanced s.topology.entries v (called u act cs) :=
    fun _ _ _ _ _ hu _ h => step_balanced hu h
  have hend := (noted_invariant (I := fun _ => True) (fun _ _ _ _ _ _ => trivial) hstep trivial
    (.inr fun x => by simp) (meets_true _ as) hrun).2
  have hnone : ¬ ∃ pc ∈ t.threads, pc.failed := by
    rintro ⟨pc, hpc, hfailed⟩
    rw [hdone pc hpc] at hfailed
    exact hfailed
  have hheld : t.threads.flatMap Pc.held = [] := by
    rw [List.flatMap_eq_nil_iff]
    intro pc hpc
    rw [hdone pc hpc]
    rfl
  have hperm : t.tm.topology.entries.Perm (s.topology.entries ++ calls) := by
    rw [List.perm_iff_count]
    intro x
    have hx := hend.resolve_left hnone x
    rw [hheld] at hx
    rw [List.count_append]
    exact hx
  obtain ⟨hexchanges, hqueues, hbindings⟩ := TopologyCache.entries_lists t.tm.topology
  obtain ⟨hexchanges', hqueues', hbindings'⟩ := TopologyCache.entries_lists s.topology
  refine ⟨?_, ?_, ?_⟩
  · have h := hperm.filterMap Entry.exchange?
    rwa [List.filterMap_append, hexchanges, hexchanges'] at h
  · have h := hperm.filterMap Entry.queue?
    rwa [List.filterMap_append, hqueues, hqueues'] at h
  · have h := hperm.filterMap Entry.binding?
    rwa [List.filterMap_append, hbindings, hbindings'] at h

def bindOrders : Entry := .binding { queueName := "orders", exchange := "orders.dlx", routingKey := "#" }

/- The second restore takes the exchange that the first has just put back, while a third
goroutine binds a queue. -/
def overlap : List (Action Nat) :=
  [.restore, .run 0, .run 0, .run 0, .run 0, .restore, .run 1, .call bindOrders, .run 2, .run 0, .run 2, .run 0, .run 0,
    .run 1, .run 2, .run 1, .run 1]

theorem topology_conserved_overlap :
    (∃ t, exec (noted (step (scripted fun _ => .ok) .quorum) called) (⟨cached (fun _ => []) 0 ordersCache, []⟩, [])
        overlap = some (t, [bindOrders]) ∧ t.threads = [.done none, .done none, .done none] ∧
      t.tm.topology.queues.Perm (ordersCache.queues ++ [bindOrders].filterMap Entry.queue?)) ∧
    (restores (scripted fun _ => .ok) .quorum 2 (cached (fun _ => []) 0 ordersCache)).2.topology = ordersCache := by
  have h := topology_conserved (scripted fun _ => .ok) .quorum (cached (fun _ => []) 0 ordersCache)
  have hdone : ∀ pc ∈ [Pc.done none, .done none, .done none], pc = .done none := by simp
  exact ⟨⟨_, rfl, rfl, (h.1 overlap _ _ rfl hdone).2.1⟩, h.2 2 rfl⟩

end Ghost.Rabbitmq.TopologyThreads
