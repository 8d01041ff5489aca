import Ghost.Amqp.Replay
import Ghost.Rabbitmq.DeadLetter
import Ghost.Rabbitmq.Restore

/-!
# Queues on one dead-letter exchange (rabbitmq/topology.go)

The names of the retry queue and of the parking lot are the main queue's name
and a suffix, and so is one of the binding keys. A name that is another's
derived name would make the two share a queue; but the declarations of the two
differ in their arguments, and the second of them fails.
-/

namespace Ghost.Rabbitmq
open Go Amqp Registry

/-! ### The two setups as declarations -/

theorem setupQueueWithDLX_declares {qt : QueueType} {m d name : String} {s t : Tm Broker}
    (h : setupQueueWithDLX brokerConnection qt m d s = (.ok name, t)) :
    ∃ q : Queue, q.name = m ∧ q.args.get "x-dead-letter-exchange" = some (.str d) ∧
      q.args.get "x-dead-letter-routing-key" = some (.str m) ∧ s.env.declareAll [.queue q] = .ok t.env := by
  obtain ⟨q, hname, hexchange, hkey, hcall⟩ := setupQueueWithDLX_calls h
  have hdeclare := Broker.declare_queue.mpr ⟨name, hcall⟩
  exact ⟨q, hname, hexchange, hkey, Broker.declareAll_cons.mpr ⟨_, hdeclare, rfl⟩⟩

structure DeadLetterDecls (m d : String) (e : Exchange) (retry parking : Queue) : Prop where
  exchange : e.name = d ∧ e.kind = "topic"
  retry : retry.name = m ++ ".retry" ∧ retry.args.get "x-dead-letter-exchange" = some (.str "") ∧
    retry.args.get "x-dead-letter-routing-key" = some (.str m)
  parking : parking.name = m ++ ".parking-lot" ∧ parking.args.get "x-dead-letter-exchange" = none

def deadLetterDecls (m d : String) (e : Exchange) (retry parking : Queue) : List Decl :=
  [.exchange e, .queue retry, .binding ⟨m ++ ".retry", d, m, []⟩, .queue parking,
    .binding ⟨m ++ ".parking-lot", d, m ++ ".parking-lot", []⟩]

theorem setupDeadLetterExchange_declares {qt : QueueType} {m d : String} {ttl : Int} {s t : Tm Broker}
    (h : setupDeadLetterExchange brokerConnection qt m d ttl s = (.ok (), t)) :
    ∃ e retry parking, DeadLetterDecls m d e retry parking ∧
      s.env.declareAll (deadLetterDecls m d e retry parking) = .ok t.env := by
  obtain ⟨e, retry, parking, b₁, b₂, b₃, b₄, n, n', hexchange, ⟨hname, -, hdlx, hkey⟩, hparking, hx, hq, hb, hq', hb'⟩ :=
    setupDeadLetterExchange_calls h
  have hdeclare := Broker.declare_queue.mpr ⟨n, hq⟩
  have hdeclare' := Broker.declare_queue.mpr ⟨n', hq'⟩
  exact ⟨e, retry, parking, ⟨hexchange, ⟨hname, hdlx, hkey⟩, hparking⟩, Broker.declareAll_cons.mpr ⟨b₁, hx,
    Broker.declareAll_cons.mpr ⟨b₂, hdeclare, Broker.declareAll_cons.mpr ⟨b₃, hb,
      Broker.declareAll_cons.mpr ⟨b₄, hdeclare', Broker.declareAll_cons.mpr ⟨t.env, hb', rfl⟩⟩⟩⟩⟩⟩

/-! ### Any number of setups -/

inductive Setup where
  | dlx (m : String) (retryTTL : Int)
  | main (m : String)
  deriving DecidableEq

def Setup.name : Setup → String
  | .dlx m _ => m
  | .main m => m

def setUp (qt : QueueType) (d : String) : Setup → Tm Broker → Except Error Unit × Tm Broker
  | .dlx m retryTTL, s => setupDeadLetterExchange brokerConnection qt m d retryTTL s
  | .main m, s =>
    match setupQueueWithDLX brokerConnection qt m d s with
    | (.error e, t) => (.error e, t)
    | (.ok _, t) => (.ok (), t)

/- What was declared, and that nothing else was bound. -/
structure Declared (d : String) (calls : List Setup) (ds : List Decl) : Prop where
  main : ∀ m, .main m ∈ calls → ∃ q, Decl.queue q ∈ ds ∧ q.name = m ∧
    q.args.get "x-dead-letter-exchange" = some (.str d) ∧ q.args.get "x-dead-letter-routing-key" = some (.str m)
  dlx : ∀ m ttl, .dlx m ttl ∈ calls → ∃ e retry parking, DeadLetterDecls m d e retry parking ∧
    ∀ x ∈ deadLetterDecls m d e retry parking, x ∈ ds
  named : ∀ q, Decl.queue q ∈ ds → ∃ c ∈ calls, ∃ suffix, q.name = c.name ++ suffix
  bound : ∀ x, Decl.binding x ∈ ds → ∃ m ttl, .dlx m ttl ∈ calls ∧
    (x.queue = m ++ ".retry" ∧ x.key = m ∨ x.queue = m ++ ".parking-lot" ∧ x.key = m ++ ".parking-lot")

theorem setUp_declared {qt : QueueType} {d : String} {c : Setup} {s t : Tm Broker}
    (h : setUp qt d c s = (.ok (), t)) : ∃ ds, Declared d [c] ds ∧ s.env.declareAll ds = .ok t.env := by
  cases c with
  | dlx m ttl =>
    obtain ⟨e, retry, parking, hdecls, hall⟩ := setupDeadLetterExchange_declares h
    refine ⟨_, ⟨?_, ?_, ?_, ?_⟩, hall⟩
    · simp
    · intro m' ttl' hmem
      cases List.mem_singleton.mp hmem
      exact ⟨e, retry, parking, hdecls, fun _ hx => hx⟩
    · intro q hq
      simp only [deadLetterDecls, List.mem_cons, Decl.queue.injEq, reduceCtorEq, List.not_mem_nil, or_false,
        false_or] at hq
      rcases hq with rfl | rfl
      · exact ⟨_, List.mem_singleton.mpr rfl, ".retry", hdecls.retry.1⟩
      · exact ⟨_, List.mem_singleton.mpr rfl, ".parking-lot", hdecls.parking.1⟩
    · intro x hx
      simp only [deadLetterDecls, List.mem_cons, Decl.binding.injEq, reduceCtorEq, List.not_mem_nil, or_false,
        false_or] at hx
      rcases hx with rfl | rfl
      · exact ⟨m, ttl, List.mem_singleton.mpr rfl, .inl ⟨rfl, rfl⟩⟩
      · exact ⟨m, ttl, List.mem_singleton.mpr rfl, .inr ⟨rfl, rfl⟩⟩
  | main m =>
    simp only [setUp] at h
    split at h
    · cases h
    · rename_i name u hq
      cases h
      obtain ⟨q, hname, hx, hk, hall⟩ := setupQueueWithDLX_declares hq
      refine ⟨_, ⟨?_, ?_, ?_, ?_⟩, hall⟩
      · intro m' hmem
        cases List.mem_singleton.mp hmem
        exact ⟨q, List.mem_singleton.mpr rfl, hname, hx, hk⟩
      · simp
      · intro q' hq'
        cases List.mem_singleton.mp hq'
        exact ⟨_, List.mem_singleton.mpr rfl, "", by simp [hname, Setup.name]⟩
      · simp

theorem Declared.append {d : String} {calls calls' : List Setup} {ds ds' : List Decl} (h : Declared d calls ds)
    (h' : Declared d calls' ds') : Declared d (calls ++ calls') (ds ++ ds') := by
  refine ⟨?_, ?_, ?_, ?_⟩
  · intro m hm
    rcases List.mem_append.mp hm with hm | hm
    · obtain ⟨q, hq, hrest⟩ := h.main m hm
      exact ⟨q, List.mem_append_left _ hq, hrest⟩
    · obtain ⟨q, hq, hrest⟩ := h'.main m hm
      exact ⟨q, List.mem_append_right _ hq, hrest⟩
  · intro m ttl hm
    rcases List.mem_append.mp hm with hm | hm
    · obtain ⟨e, retry, parking, hdecls, hsub⟩ := h.dlx m ttl hm
      exact ⟨e, retry, parking, hdecls, fun x hx => List.mem_append_left _ (hsub x hx)⟩
    · obtain ⟨e, retry, parking, hdecls, hsub⟩ := h'.dlx m ttl hm
      exact ⟨e, retry, parking, hdecls, fun x hx => List.mem_append_right _ (hsub x hx)⟩
  · intro q hq
    rcases List.mem_append.mp hq with hq | hq
    · obtain ⟨c, hc, hname⟩ := h.named q hq
      exact ⟨c, List.mem_append_left _ hc, hname⟩
    · obtain ⟨c, hc, hname⟩ := h'.named q hq
      exact ⟨c, List.mem_append_right _ hc, hname⟩
  · intro x hx
    rcases List.mem_append.mp hx with hx | hx
    · obtain ⟨m, ttl, hm, hx⟩ := h.bound x hx
      exact ⟨m, ttl, List.mem_append_left _ hm, hx⟩
    · obtain ⟨m, ttl, hm, hx⟩ := h'.bound x hx
      exact ⟨m, ttl, List.mem_append_right _ hm, hx⟩

theorem setUps_declared {qt : QueueType} {d : String} {calls : List Setup} {s t : Tm Broker}
    (h : forEach (setUp qt d) calls s = (.ok (), t)) :
    ∃ ds, Declared d calls ds ∧ s.env.declareAll ds = .ok t.env := by
  induction calls generalizing s with
  | nil =>
    cases h
    exact ⟨[], ⟨nofun, nofun, nofun, nofun⟩, rfl⟩
  | cons c calls ih =>
    obtain ⟨⟨⟩, u, hc, hrest⟩ := forEach_cons.mp h
    obtain ⟨ds, hds, hall⟩ := setUp_declared hc
    obtain ⟨ds', hds', hall'⟩ := ih hrest
    exact ⟨ds ++ ds', hds.append hds', by rw [Broker.declareAll_append hall, hall']⟩

/-! ### Where dead letters go -/

section Routes

variable {d m m' : String} {ttl : Int} {calls : List Setup} {ds : List Decl} {b c : Broker}

theorem Declared.queue_named (hds : Declared d calls ds) (hnames : ∀ x ∈ calls, PlainName x.name) :
    ∀ q, Decl.queue q ∈ ds → q.name ≠ "" := by
  intro q hq hempty
  obtain ⟨x, hx, suffix, hname⟩ := hds.named q hq
  rw [hempty] at hname
  have hlist := congrArg String.toList hname
  rw [String.toList_append] at hlist
  have hnil := (List.append_eq_nil_iff.mp hlist.symm).1
  exact (hnames x hx).1 (String.toList_injective hnil)

theorem Declared.dlx_named (hds : Declared d calls ds) (hnames : ∀ x ∈ calls, PlainName x.name)
    (h : b.declareAll ds = .ok c) (hm : .dlx m ttl ∈ calls) :
    d ≠ "" ∧ ∃ e, c.findExchange d = some e ∧ e.kind = "topic" := by
  obtain ⟨e, retry, parking, hdecls, hsub⟩ := hds.dlx m ttl hm
  obtain ⟨hname, x, hfind, hparams⟩ :=
    Broker.declareAll_exchange (hds.queue_named hnames) h (hsub (.exchange e) List.mem_cons_self)
  rw [hdecls.exchange.1] at hname hfind
  refine ⟨hname, x, hfind, ?_⟩
  rw [show x.kind = e.kind from congrArg Prod.fst hparams]
  exact hdecls.exchange.2

theorem params_get {q r : Queue} (h : q.params = r.params) (k : String) : q.args.get k = r.args.get k :=
  congrFun (congrArg (fun p => p.2.2.2) h) k

-- Two declarations of one queue have the same arguments.
theorem Declared.same_args (hds : Declared d calls ds) (hnames : ∀ x ∈ calls, PlainName x.name)
    (h : b.declareAll ds = .ok c) {q r : Queue} (hq : Decl.queue q ∈ ds) (hr : Decl.queue r ∈ ds)
    (hname : q.name = r.name) (k : String) : q.args.get k = r.args.get k := by
  obtain ⟨x, hx, hxq⟩ := Broker.declareAll_queue (hds.queue_named hnames) h hq
  obtain ⟨y, hy, hyr⟩ := Broker.declareAll_queue (hds.queue_named hnames) h hr
  rw [hname, hy] at hx
  cases hx
  rw [← params_get hxq, params_get hyr]

-- A main queue is nobody's parking lot and nobody's retry queue.
theorem Declared.main_ne (hds : Declared d calls ds) (hnames : ∀ x ∈ calls, PlainName x.name)
    (h : b.declareAll ds = .ok c) (hmain : .main m ∈ calls) (hm' : .dlx m' ttl ∈ calls) :
    m ≠ m' ++ ".parking-lot" ∧ m ≠ m' ++ ".retry" := by
  obtain ⟨q, hq, hname, hexchange, -⟩ := hds.main m hmain
  obtain ⟨e, retry, parking, hdecls, hsub⟩ := hds.dlx m' ttl hm'
  have hretry : Decl.queue retry ∈ ds := hsub _ (by simp [deadLetterDecls])
  have hparking : Decl.queue parking ∈ ds := hsub _ (by simp [deadLetterDecls])
  refine ⟨?_, ?_⟩
  · intro heq
    have hargs := hds.same_args hnames h hq hparking (hname.trans (heq.trans hdecls.parking.1.symm))
      "x-dead-letter-exchange"
    rw [hexchange, hdecls.parking.2] at hargs
    cases hargs
  · intro heq
    have hargs := hds.same_args hnames h hq hretry (hname.trans (heq.trans hdecls.retry.1.symm))
      "x-dead-letter-exchange"
    rw [hexchange, hdecls.retry.2.1] at hargs
    cases hargs
    exact (hds.dlx_named hnames h hm').1 rfl

theorem Declared.main_deadLetter (hds : Declared d calls ds) (hnames : ∀ x ∈ calls, PlainName x.name)
    (h : b.declareAll ds = .ok c) (hmain : .main m ∈ calls) (reason : String) (msg : Message) :
    (c.deadLetter m reason msg).1 = c.route d m := by
  obtain ⟨q, hq, hname, hexchange, hkey⟩ := hds.main m hmain
  obtain ⟨x, hfind, hparams⟩ := Broker.declareAll_queue (hds.queue_named hnames) h hq
  rw [hname] at hfind
  exact Broker.deadLetter_route hfind ((params_get hparams _).trans hexchange) ((params_get hparams _).trans hkey)
    reason msg

/- A message that a main queue has dropped comes to its own retry queue or nowhere; without
an exchange between them, to the main queue itself. -/
theorem Declared.main_target (hds : Declared d calls ds) (hnames : ∀ x ∈ calls, PlainName x.name)
    (h : b.declareAll ds = .ok c) (hfree : ∀ x ∈ b.bindings, x.exchange ≠ d) (hmain : .main m ∈ calls) {q : String}
    (hq : q ∈ c.route d m) : (d = "" ∧ q = m) ∨ q = m ++ ".retry" ∧ ∃ ttl, .dlx m ttl ∈ calls := by
  unfold Broker.route at hq
  split at hq
  · rename_i hempty
    exact .inl ⟨hempty, beq_iff_eq.mp (List.mem_filter.mp hq).2⟩
  · right
    split at hq
    · cases hq
    · rename_i e he
      simp only [List.mem_filter, List.any_eq_true, Bool.and_eq_true, beq_iff_eq] at hq
      obtain ⟨-, x, hx, ⟨hxd, rfl⟩, hmatch⟩ := hq
      have hdecl : Decl.binding x ∈ ds :=
        (((Broker.declareAll_bindings (hds.queue_named hnames) h).2 x).mp hx).resolve_left fun hold => hfree x hold hxd
      obtain ⟨m', ttl, hm', hbound⟩ := hds.bound x hdecl
      obtain ⟨-, e', he', hkind⟩ := hds.dlx_named hnames h hm'
      rw [he] at he'
      cases he'
      simp only [Broker.Binding.accepts, hkind] at hmatch
      have hplain : PlainName m' := hnames _ hm'
      rcases hbound with ⟨hqueue, hkey⟩ | ⟨hqueue, hkey⟩
      · rw [hkey] at hmatch
        obtain rfl := topicMatches_literal hplain.2.1 hplain.2.2 hmatch
        exact ⟨hqueue, ttl, hm'⟩
      · rw [hkey] at hmatch
        have hsame := topicMatches_literal hplain.parkingLot_literal.1 hplain.parkingLot_literal.2 hmatch
        exact absurd hsame.symm (hds.main_ne hnames h hmain hm').1

end Routes

/-- Any successful setups on one exchange with no other bindings: a dead letter of a main
queue reaches no queue of a setup for another name, and one that expires in a
retry queue reaches that queue's main queue only. -/
theorem sharedExchange_isolates (qt : QueueType) (d : String) (calls : List Setup) (s t : Tm Broker)
    (hnames : ∀ x ∈ calls, PlainName x.name) (hfree : ∀ x ∈ s.env.bindings, x.exchange ≠ d)
    (hcalls : forEach (setUp qt d) calls s = (.ok (), t)) :
    (∀ m m' reason msg, .main m ∈ calls → m' ≠ m →
      (∀ ttl, .dlx m' ttl ∈ calls → m' ++ ".retry" ∉ (t.env.deadLetter m reason msg).1 ∧
        m' ++ ".parking-lot" ∉ (t.env.deadLetter m reason msg).1) ∧
      (.main m' ∈ calls → m' ∉ (t.env.deadLetter m reason msg).1)) ∧
    ∀ m ttl reason msg, .dlx m ttl ∈ calls →
      (.main m ∈ calls → m ∈ (t.env.deadLetter (m ++ ".retry") reason msg).1) ∧
      ∀ q ∈ (t.env.deadLetter (m ++ ".retry") reason msg).1, q = m := by
  obtain ⟨ds, hds, hall⟩ := setUps_declared hcalls
  refine ⟨?_, ?_⟩
  · intro m m' reason msg hmain hne
    rw [hds.main_deadLetter hnames hall hmain]
    refine ⟨fun ttl hm' => ⟨fun hmem => ?_, fun hmem => ?_⟩, fun hmain' hmem => ?_⟩
    · rcases hds.main_target hnames hall hfree hmain hmem with ⟨hempty, -⟩ | ⟨hretry, -⟩
      · exact (hds.dlx_named hnames hall hm').1 hempty
      · exact hne (append_retry_inj hretry)
    · rcases hds.main_target hnames hall hfree hmain hmem with ⟨hempty, -⟩ | ⟨hretry, -⟩
      · exact (hds.dlx_named hnames hall hm').1 hempty
      · exact retry_ne_parkingLot m m' hretry.symm
    · rcases hds.main_target hnames hall hfree hmain hmem with ⟨-, heq⟩ | ⟨hretry, ttl, hm⟩
      · exact hne heq
      · exact (hds.main_ne hnames hall hmain' hm).2 hretry
  · intro m ttl reason msg hm
    obtain ⟨e, retry, parking, hdecls, hsub⟩ := hds.dlx m ttl hm
    obtain ⟨x, hfind, hparams⟩ :=
      Broker.declareAll_queue (hds.queue_named hnames) hall (hsub (.queue retry) (by simp [deadLetterDecls]))
    rw [hdecls.retry.1] at hfind
    have hroute : (t.env.deadLetter (m ++ ".retry") reason msg).1 = t.env.route "" m :=
      Broker.deadLetter_route hfind ((params_get hparams _).trans hdecls.retry.2.1)
        ((params_get hparams _).trans hdecls.retry.2.2) reason msg
    rw [hroute]
    refine ⟨fun hmain => ?_, fun q hq => ?_⟩
    · obtain ⟨q, hq, hname, -⟩ := hds.main m hmain
      obtain ⟨y, hy, -⟩ := Broker.declareAll_queue (hds.queue_named hnames) hall hq
      rw [hname] at hy
      exact Broker.mem_route_default hy
    · rw [Broker.route, if_pos rfl] at hq
      exact beq_iff_eq.mp (List.mem_filter.mp hq).2

def twoQueues : List Setup := [.main "orders", .dlx "orders" 30000, .dlx "orders.eu" 60000, .main "orders.eu"]

theorem sharedExchange_isolates_twoQueues :
    ∃ t, forEach (setUp .quorum "dlx") twoQueues ⟨fun _ => [], 0, .empty, .empty⟩ = (.ok (), t) ∧
      ∀ msg, "orders.retry" ∉ (t.env.deadLetter "orders.eu" "rejected" msg).1 := by
  have h := sharedExchange_isolates .quorum "dlx" twoQueues ⟨fun _ => [], 0, .empty, .empty⟩ _
    (by simp [twoQueues, Setup.name, PlainName]) nofun rfl
  refine ⟨_, rfl, fun msg => ?_⟩
  exact ((h.1 "orders.eu" "orders" "rejected" msg (by simp [twoQueues]) (by decide)).1 30000
    (by simp [twoQueues])).1

end Ghost.Rabbitmq
