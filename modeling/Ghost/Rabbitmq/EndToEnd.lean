import Ghost.Rabbitmq.AtLeastOnce
import Ghost.Rabbitmq.Prefetch
import Ghost.Rabbitmq.PublishConfirm
import Ghost.Transition.Simulation

/-!
# From PublishMessage to the handler (rabbitmq/producer.go, rabbitmq/consumer.go)

The producers and one consumer around a broker. What the broker routes to the
consumer's queue waits there; messages from elsewhere may come between. A message
whose `PublishMessage` returned nil and that was routed to the queue is not lost
by producer or consumer: it waits, or is out with the consumer, or a handler call
for it has returned nil, or it was rejected for a reason, or the broker has dropped
it. When that is, its expiration and its delivery mode decide among other things;
here it may be at any time while the message waits.
-/

namespace Ghost.Rabbitmq.EndToEnd
open Go Amqp Transition

structure Setting (P V : Type) where
  producer : Publish.Setting P
  consumer : ConsumeLoop.Setting V

variable {P V : Type}

def Setting.queue (w : Setting P V) : String := w.consumer.opts.queueName

structure Sys (P : Type) where
  pub : Publish.Sys P
  sub : ConsumeLoop.Sys

inductive Action (P : Type) where
  | producer (a : Publish.Action P)
  -- with `publish`, a message that somebody else has published
  | consumer (a : ConsumeLoop.Action)

def start (w : Setting P V) (client : Client.Shared) : Sys P := ⟨Publish.newProducer w.producer, .start client⟩

-- the message as the consumer gets it
def delivered (x : Publication Publish.Sent) : Message :=
  ⟨x.message.call, x.key, x.message.publishing.headers, x.message.publishing.body⟩

-- what the step puts into the queue
def arrival (w : Setting P V) (s : Publish.Sys P) (ch : Nat) : Option Message :=
  (s.chans ch).next.bind fun x =>
    if w.queue ∈ s.broker.route x.exchange x.key then some (delivered x) else none

def step (w : Setting P V) (s : Sys P) : Action P → Option (Sys P)
  | .producer a =>
    (Publish.step w.producer s.pub a).bind fun pub =>
      match a.reads.bind (arrival w s.pub) with
      | none => some ⟨pub, s.sub⟩
      | some x => (ConsumeLoop.step w.consumer s.sub (.publish x)).map fun sub => ⟨pub, sub⟩
  | .consumer a => (ConsumeLoop.step w.consumer s.sub a).map fun sub => ⟨s.pub, sub⟩

variable {w : Setting P V} {s t : Sys P}

inductive Step (w : Setting P V) (s : Sys P) : Sys P → Prop where
  | quiet (l : Option Nat) (pub : Publish.Sys P) (h : Publish.Step w.producer s.pub l pub)
      (hnone : l.bind (arrival w s.pub) = none) : Step w s ⟨pub, s.sub⟩
  | arrives (ch : Nat) (x : Message) (pub : Publish.Sys P) (h : Publish.Step w.producer s.pub (some ch) pub)
      (hx : arrival w s.pub ch = some x) :
      Step w s ⟨pub, { s.sub with ready := s.sub.ready ++ [x], published := s.sub.published ++ [x] }⟩
  | consumer (sub : ConsumeLoop.Sys) (h : ConsumeLoop.Step w.consumer s.sub sub) : Step w s ⟨s.pub, sub⟩

theorem step_cases {a : Action P} (h : step w s a = some t) : Step w s t := by
  cases a with
  | producer a =>
    obtain ⟨pub, hpub, hrest⟩ := Option.bind_eq_some_iff.mp h
    have hstep := Publish.step_cases hpub
    cases hl : a.reads with
    | none =>
      rw [hl] at hrest hstep
      cases hrest
      exact .quiet none pub hstep rfl
    | some ch =>
      rw [hl] at hrest hstep
      cases hx : arrival w s.pub ch with
      | none =>
        simp only [Option.bind_some, hx] at hrest
        cases hrest
        exact .quiet (some ch) pub hstep hx
      | some x =>
        simp only [Option.bind_some, hx] at hrest
        cases hrest
        exact .arrives ch x pub hstep hx
  | consumer a =>
    obtain ⟨sub, hsub, rfl⟩ := Option.map_eq_some_iff.mp h
    exact .consumer sub (ConsumeLoop.step_cases hsub)

/-! ### Either side by itself -/

theorem projects_consumer (w : Setting P V) : Projects (step w) (ConsumeLoop.step w.consumer) Sys.sub := by
  intro s a t h
  cases a with
  | producer a =>
    obtain ⟨pub, -, hrest⟩ := Option.bind_eq_some_iff.mp h
    split at hrest
    · cases hrest
      exact .inl rfl
    · rename_i x _
      obtain ⟨sub, hsub, rfl⟩ := Option.map_eq_some_iff.mp hrest
      exact .inr ⟨.publish x, hsub⟩
  | consumer a =>
    obtain ⟨sub, hsub, rfl⟩ := Option.map_eq_some_iff.mp h
    exact .inr ⟨a, hsub⟩

theorem projects_producer (w : Setting P V) : Projects (step w) (Publish.step w.producer) Sys.pub := by
  intro s a t h
  cases a with
  | producer a =>
    obtain ⟨pub, hpub, hrest⟩ := Option.bind_eq_some_iff.mp h
    split at hrest
    · cases hrest
      exact .inr ⟨a, hpub⟩
    · obtain ⟨sub, -, rfl⟩ := Option.map_eq_some_iff.mp hrest
      exact .inr ⟨a, hpub⟩
  | consumer a =>
    obtain ⟨sub, -, rfl⟩ := Option.map_eq_some_iff.mp h
    exact .inl rfl

/-! ### What is routed to the queue arrives there -/

theorem published_mono {s t : ConsumeLoop.Sys} {c : ConsumeLoop.Setting V} (h : ConsumeLoop.Step c s t) {x : Message}
    (hx : x ∈ s.published) : x ∈ t.published := by
  cases h with
  | publish y => exact List.mem_append_left _ hx
  | handle ch d result hpc =>
    unfold ConsumeLoop.handle
    simp only
    split <;> exact hx
  | settled ch d how result reached err front hpc hopen =>
    unfold ConsumeLoop.settled
    simp only
    split
    · rw [ConsumeLoop.Sys.settle_published]
      exact hx
    · exact hx
  | _ => exact hx

-- Only reading a message changes what is routed.
theorem routed_quiet {c : Publish.Setting P} {s t : Publish.Sys P} (h : Publish.Step c s none t) (ch : Nat) :
    (t.chans ch).routed = (s.chans ch).routed := by
  cases h with
  | goroutine i g choice r => exact Publish.confirmed_field (·.routed) (fun _ => rfl) g choice ch
  | sent i x call stage shared => exact Publish.sent_routed ch
  | chan x y shared hmove hsent hrouted =>
    show (Function.update s.chans x y ch).routed = _
    by_cases hx : ch = x
    · rw [hx, Function.update_self, hrouted]
    · rw [Function.update_of_ne hx]
  | _ => rfl

def Arrived (w : Setting P V) (s : Sys P) : Prop := ∀ (ch p : Nat) x (queues : List String), (s.pub.chans ch).sent[p]? = some x →
  (s.pub.chans ch).routed[p]? = some queues → w.queue ∈ queues → delivered x ∈ s.sub.published

theorem sent_stable {c : Publish.Setting P} {s t : Publish.Sys P} {l : Option Nat} (h : Publish.Step c s l t)
    (hs : Publish.Channels c s) {ch p : Nat} (hp : p < (s.chans ch).routed.length) :
    (t.chans ch).sent[p]? = (s.chans ch).sent[p]? := by
  have hlt : p < (s.chans ch).sent.length := Nat.lt_of_lt_of_le hp (hs.sound ch).handled
  rcases h.chans ch with hsame | hmove
  · rw [hsame]
  · obtain ⟨more, hmore⟩ := hmove.sent
    rw [← hmore, List.getElem?_append_left hlt]

theorem Arrived.quiet (ha : Arrived w s) (hs : Publish.Channels w.producer s.pub) {pub : Publish.Sys P}
    (h : Publish.Step w.producer s.pub none pub) : Arrived w ⟨pub, s.sub⟩ := by
  intro ch p x queues hx hqueues hmem
  rw [routed_quiet h] at hqueues
  have hp := (List.getElem?_eq_some_iff.mp hqueues).1
  rw [sent_stable h hs hp] at hx
  exact ha ch p x queues hx hqueues hmem

-- The broker reads one message; it is the next one, and is routed as the bindings are now.
theorem Arrived.read (ha : Arrived w s) (hs : Publish.Channels w.producer s.pub) {pub : Publish.Sys P} {ch : Nat}
    (h : Publish.Step w.producer s.pub (some ch) pub) {sub : ConsumeLoop.Sys}
    (hold : ∀ x ∈ s.sub.published, x ∈ sub.published)
    (hnew : ∀ x, arrival w s.pub ch = some x → x ∈ sub.published) : Arrived w ⟨pub, sub⟩ := by
  intro c p x queues hx hqueues hmem
  have hstable : p < (s.pub.chans c).routed.length → (pub.chans c).sent[p]? = (s.pub.chans c).sent[p]? :=
    fun hp => sent_stable h hs hp
  cases h with
  | accept _ y hnext =>
    by_cases hc : c = ch
    · subst hc
      have hrouted : (Function.update s.pub.chans c ((s.pub.chans c).handle y
          (s.pub.broker.route y.exchange y.key)) c).routed = (s.pub.chans c).routed ++ [s.pub.broker.route y.exchange y.key] := by
        rw [Function.update_self]
        rfl
      have hqueues : ((s.pub.chans c).routed ++ [s.pub.broker.route y.exchange y.key])[p]? = some queues := by
        rw [← hrouted]
        exact hqueues
      rcases Nat.lt_trichotomy p (s.pub.chans c).routed.length with hlt | heq | hgt
      · rw [List.getElem?_append_left hlt] at hqueues
        have hx := (hstable hlt).symm.trans hx
        exact hold _ (ha c p x queues hx hqueues hmem)
      · rw [heq, List.getElem?_concat_length] at hqueues
        have hsent : (Function.update s.pub.chans c ((s.pub.chans c).handle y
            (s.pub.broker.route y.exchange y.key)) c).sent = (s.pub.chans c).sent := by
          rw [Function.update_self]
          rfl
        have hx : (s.pub.chans c).sent[p]? = some x := by
          rw [← hsent]
          exact hx
        have hxy : x = y := by
          rw [heq] at hx
          exact Option.some.inj (hx.symm.trans hnext)
        refine hnew _ ?_
        rw [arrival, hnext, Option.bind_some, ← hxy, if_pos]
        rw [hxy, Option.some.inj hqueues]
        exact hmem
      · rw [List.getElem?_eq_none (by simp; omega)] at hqueues
        cases hqueues
    · have hother : Function.update s.pub.chans ch ((s.pub.chans ch).handle y
          (s.pub.broker.route y.exchange y.key)) c = s.pub.chans c := Function.update_of_ne hc ..
      have hx : (s.pub.chans c).sent[p]? = some x := by
        rw [← hother]
        exact hx
      have hqueues : (s.pub.chans c).routed[p]? = some queues := by
        rw [← hother]
        exact hqueues
      exact hold _ (ha c p x queues hx hqueues hmem)

structure Piped (w : Setting P V) (s : Sys P) : Prop where
  channels : Publish.Channels w.producer s.pub
  arrived : Arrived w s

theorem step_piped (h : Step w s t) (hs : Piped w s) : Piped w t := by
  cases h with
  | quiet l pub h hnone =>
    refine ⟨Publish.step_channels h hs.channels, ?_⟩
    cases l with
    | none => exact hs.arrived.quiet hs.channels h
    | some ch =>
      refine hs.arrived.read hs.channels h (fun _ hx => hx) ?_
      intro x hx
      rw [Option.bind_some, hx] at hnone
      cases hnone
  | arrives ch x pub h hx =>
    refine ⟨Publish.step_channels h hs.channels, hs.arrived.read hs.channels h ?_ ?_⟩
    · exact fun y hy => List.mem_append_left _ hy
    · intro y hy
      rw [hx] at hy
      cases hy
      exact List.mem_append_right _ List.mem_cons_self
  | consumer sub h =>
    refine ⟨hs.channels, ?_⟩
    intro ch p x queues hx hqueues hmem
    exact published_mono h (hs.arrived ch p x queues hx hqueues hmem)

theorem exec_piped {client : Client.Shared} {as : List (Action P)} (h : exec (step w) (start w client) as = some s) :
    Piped w s := by
  refine exec_invariant (fun _ _ _ hs hstep => step_piped (step_cases hstep) hs) ⟨?_, ?_⟩ h
  · exact Publish.newProducer_channels w.producer
  · intro ch p x queues hx
    cases hx

/-! ### The result -/

/- Where a message of the queue can be. -/
inductive Whereabouts (c : ConsumeLoop.Setting V) (s : ConsumeLoop.Sys) (x : Message) : Prop where
  | waits (h : x ∈ s.ready)
  | out (d : ConsumeLoop.Delivery) (hd : d.message = x) (h : d ∈ s.unacked)
  | done (d : ConsumeLoop.Delivery) (hd : d.message = x) (h : d ∈ s.acked) (hhandled : (d, none) ∈ s.handled)
  | rejected (d : ConsumeLoop.Delivery) (hd : d.message = x) (h : d ∈ s.rejected)
      (hwhy : (∃ e, c.unmarshal x.body = .error e) ∨
        ∃ e, (d, some e) ∈ s.handled ∧ c.config.maxRetries ≤ getRetryCount x)
  -- expired, over a limit of the queue, not persistent, gone with the queue, or taken by another consumer
  | dropped (h : x ∈ s.dropped)

theorem whereabouts {c : ConsumeLoop.Setting V} {s : ConsumeLoop.Sys} {x : Message} (hs : ConsumeLoop.NothingLost c s)
    (hx : x ∈ s.published) : Whereabouts c s x := by
  have hmem := hs.conserved.mem_iff.mpr hx
  simp only [List.mem_append, ConsumeLoop.messages, List.mem_map] at hmem
  rcases hmem with (((hready | ⟨d, hd, rfl⟩) | ⟨d, hd, rfl⟩) | ⟨d, hd, rfl⟩) | hdropped
  · exact .waits hready
  · exact .out d rfl hd
  · exact .done d rfl hd (hs.acked d hd)
  · exact .rejected d rfl hd (hs.rejected d hd)
  · exact .dropped hdropped

/-- From the producer to the handler: a message whose `PublishMessage` returned nil is where
the broker has routed it, and of those in the consumer's queue the consumer loses none. -/
theorem nil_notLost (w : Setting P V) (hconfirms : w.producer.config.publisherConfirms = true)
    (hmanual : w.consumer.autoAck = false) (client : Client.Shared) (as : List (Action P)) (s : Sys P)
    (h : exec (step w) (start w client) as = some s) (i : Nat) (call : Publish.Call) (hcall : s.pub.calls i = some call)
    (hnil : call.stage = .over none) :
    ∃ ch p queues, call.sentAt = some (ch, p) ∧ (s.pub.chans ch).routed[p]? = some queues ∧
      (w.queue ∈ queues → Whereabouts w.consumer s.sub (delivered (call.publication w.producer.config i))) := by
  obtain ⟨bs, hpub⟩ := (projects_producer w).exec h
  obtain ⟨cs, hsub⟩ := (projects_consumer w).exec h
  have hpublished := Publish.exec_published hpub
  have hlost : ConsumeLoop.NothingLost w.consumer s.sub :=
    (ConsumeLoop.exec_manual hmanual hsub).nothingLost
  obtain ⟨ch, p, hat, -, hp⟩ := hpublished.nil hconfirms hcall hnil
  refine ⟨ch, p, _, hat, List.getElem?_eq_getElem hp, fun hqueue => whereabouts hlost ?_⟩
  have hplaced := hpublished.located.placed i call ch p hcall hat
  exact (exec_piped h).arrived ch p _ _ hplaced (List.getElem?_eq_getElem hp) hqueue

-- One message from the call to its acknowledgement.
def orders : Setting Unit Unit := ⟨Publish.careful, ConsumeLoop.orders⟩

def withQueue : Broker := Broker.empty.addQueue ⟨"orders", true, false, false, []⟩ (by decide)

def publishing : List (Publish.Action Unit) :=
  [.topology withQueue, .publishMessage (Publish.sendMessage "orders") (), .begin 0 [], .client (.run 3 .go),
    .client (.run 3 .go), .client (.run 3 .go), .send 3 none false, .accept 0, .confirm 0 1 false true, .dispatch 0,
    .wait 3 false]

def consuming : List ConsumeLoop.Action :=
  [.run .go, .run .go, .run .go, .deliver 0, .run .delivery, .run (.handled none), .run (.settled true none false)]

def oneOrder : List (Action Unit) :=
  (Publish.running 0 12).map Action.producer ++ publishing.map Action.producer ++ consuming.map Action.consumer

theorem oneOrder_notLost : ∃ s call, exec (step orders) (start orders ConsumeLoop.connectedClient) oneOrder = some s ∧
    s.pub.calls 3 = some call ∧ s.sub.acked ≠ [] ∧
    ∃ ch p queues, call.sentAt = some (ch, p) ∧ (s.pub.chans ch).routed[p]? = some queues ∧
      ("orders" ∈ queues → Whereabouts orders.consumer s.sub (delivered (call.publication orders.producer.config 3))) :=
  ⟨_, _, rfl, rfl, by decide,
    nil_notLost orders rfl rfl ConsumeLoop.connectedClient oneOrder _ rfl 3 _ rfl rfl⟩

end Ghost.Rabbitmq.EndToEnd
