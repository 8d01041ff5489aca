import Ghost.Go.Context
import Ghost.Rabbitmq.ConsumeLoop
import Ghost.Transition.Reach

/-!
# Channels and restarts of a consumer (rabbitmq/consumer.go)

`startConsumerWithReconnect` runs `startConsumeLoop` again and again, each time
over a channel of its own. Every way out of the loop closes the channel first, so
no more than one is open at a time; and as long as the context lives the only way
out of the outer loop is to wait for the client and to start over.
-/

namespace Ghost.Rabbitmq.ConsumeLoop
open Go Amqp Transition

variable {V : Type} {w : Setting V} {s t : Sys} {client : Client.Shared} {as : List Action}

-- the channel the loop works with
def Pc.chan : Pc → Option Nat
  | .qos ch | .consume ch | .select ch | .handling ch _ | .settling ch _ _ _ | .closing ch _ => some ch
  | .create | .ended _ | .waiting | .returned _ => none

-- the channel, once it is subscribed
def Pc.subscribed : Pc → Option Nat
  | .select ch | .handling ch _ | .settling ch _ _ _ => some ch
  | _ => none

-- the error on its way out
def Pc.leaves : Pc → Option (Option Error)
  | .closing _ err | .ended err | .returned err => some err
  | _ => none

structure Lifecycle (w : Setting V) (s : Sys) : Prop where
  opened : ∀ ch, (s.chans ch).isOpen = true → s.pc.chan = some ch
  subscribed : ∀ ch, s.pc.subscribed = some ch → (s.chans ch).subscription = some w.subscription
  fails : ∀ err, s.pc.leaves = some err → err ≠ none
  returned : ∀ err, s.pc = .returned err → w.opts.autoReconnect = true → s.ctxErr ≠ none

theorem start_lifecycle (client : Client.Shared) : Lifecycle w (.start client) :=
  ⟨fun _ h => (by cases h), fun _ h => (by cases h), fun _ h => (by cases h), fun _ h => (by cases h)⟩

/-! ### One step -/

theorem finish_chan (err : Option Error) : (finish w err).chan = none := by
  unfold finish
  split <;> rfl

theorem finish_subscribed (err : Option Error) : (finish w err).subscribed = none := by
  unfold finish
  split <;> rfl

theorem finish_leaves (err : Option Error) : (finish w err).leaves = some err := by
  unfold finish
  split <;> rfl

theorem finish_returned {err e : Option Error} (h : finish w err = .returned e) : w.opts.autoReconnect = false := by
  unfold finish at h
  split at h
  · cases h
  · rename_i hauto
    exact Bool.eq_false_iff.mpr hauto

theorem Moves.chan {pc : Pc} (h : Moves w s pc) : pc.chan = s.pc.chan := by
  cases h with
  | refused e hpc => rw [hpc, finish_chan]; rfl
  | prefetch ch hpc | qosFailed ch e hpc | consumeFailed ch e hpc | ctx ch hpc | left ch e hpc
  | returned err hpc | waits err hpc | stopped hpc | again hpc => rw [hpc]; rfl
  | unhealthy hpc => rw [hpc]

theorem Moves.subscribed {pc : Pc} (h : Moves w s pc) : pc.subscribed = none := by
  cases h with
  | refused e hpc => exact finish_subscribed _
  | _ => rfl

theorem Moves.fails {pc : Pc} (h : Moves w s pc) (hs : Lifecycle w s) (err : Option Error)
    (herr : pc.leaves = some err) : err ≠ none := by
  cases h with
  | refused e hpc =>
    rw [finish_leaves] at herr
    cases herr
    simp
  | prefetch ch hpc | qosFailed ch e hpc | consumeFailed ch e hpc | left ch e hpc =>
    cases herr
    simp
  | ctx ch hpc hctx =>
    cases herr
    exact Option.isSome_iff_ne_none.mp hctx
  | stopped hpc hctx =>
    cases herr
    exact Option.isSome_iff_ne_none.mp hctx
  | returned e hpc hend =>
    cases herr
    exact hs.fails err (by rw [hpc]; rfl)
  | waits | again | unhealthy => cases herr

theorem Moves.returned_ctx {pc : Pc} (h : Moves w s pc) (hs : Lifecycle w s) (err : Option Error)
    (hpc : pc = .returned err) (hauto : w.opts.autoReconnect = true) : s.ctxErr ≠ none := by
  cases h with
  | refused e _ =>
    rw [finish_returned hpc] at hauto
    cases hauto
  | returned e hold hend =>
    have he : e ≠ none := hs.fails e (by rw [hold]; rfl)
    exact Option.isSome_iff_ne_none.mp (hend.resolve_left he)
  | stopped hold hctx => exact Option.isSome_iff_ne_none.mp hctx
  | prefetch | qosFailed | consumeFailed | ctx | left | waits | again | unhealthy => cases hpc

-- Nothing about a channel changes but, for one that ends, that it is open.
theorem Lifecycle.frame (hs : Lifecycle w s) (hopen : ∀ ch, (t.chans ch).isOpen = true → (s.chans ch).isOpen = true)
    (hsub : ∀ ch, (t.chans ch).subscription = (s.chans ch).subscription) (hctx : t.ctxErr = s.ctxErr)
    (hpc : t.pc = s.pc) : Lifecycle w t := by
  refine ⟨?_, ?_, ?_, ?_⟩
  · intro ch h
    rw [hpc]
    exact hs.opened ch (hopen ch h)
  · intro ch h
    rw [hpc] at h
    rw [hsub]
    exact hs.subscribed ch h
  · rw [hpc]
    exact hs.fails
  · rw [hpc, hctx]
    exact hs.returned

-- The loop goes on with the channel it has.
theorem Lifecycle.within (hs : Lifecycle w s)
    (hopen : ∀ ch, (t.chans ch).isOpen = true → (s.chans ch).isOpen = true)
    (hchan : t.pc.chan = s.pc.chan) (hsub : ∀ ch, t.pc.subscribed = some ch → (t.chans ch).subscription = some w.subscription)
    (hleaves : t.pc.leaves = none) : Lifecycle w t := by
  refine ⟨?_, hsub, ?_, ?_⟩
  · intro ch h
    rw [hchan]
    exact hs.opened ch (hopen ch h)
  · intro err h
    rw [hleaves] at h
    cases h
  · intro err h
    rw [h] at hleaves
    cases hleaves

theorem handle_lifecycle {ch : Nat} {d : Delivery} (hs : Lifecycle w s) (hpc : s.pc = .handling ch d)
    (result : Option Error) : Lifecycle w (handle w s ch d result) := by
  have hsub := hs.subscribed ch (by rw [hpc]; rfl)
  unfold handle
  dsimp only
  split
  · refine hs.within (fun _ h => h) (by rw [hpc]; rfl) ?_ rfl
    intro x hx
    cases hx
    exact hsub
  · refine hs.within (fun _ h => h) (by rw [hpc]; rfl) ?_ rfl
    intro x hx
    cases hx
    exact hsub

theorem settled_lifecycle {ch : Nat} {d : Delivery} {how : Settlement} {result : Option Error}
    (hs : Lifecycle w s) (hpc : s.pc = .settling ch d how result) (reached : Bool) (err : Option Error) (front : Bool) :
    Lifecycle w (settled w s ch d how result reached err front) := by
  have hsub := hs.subscribed ch (by rw [hpc]; rfl)
  unfold settled
  dsimp only
  split
  · refine hs.within ?_ (by rw [Sys.settle_pc, hpc]; rfl) ?_ (by rw [Sys.settle_pc]; rfl)
    · intro x h
      have hold := Sys.settle_isOpen h
      exact hold
    intro x hx
    rw [Sys.settle_pc] at hx
    cases hx
    rw [Sys.settle_field (fun c => c.subscription) fun _ => rfl]
    exact hsub
  · refine hs.within (fun _ h => h) (by rw [hpc]; rfl) ?_ rfl
    intro x hx
    cases hx
    exact hsub

theorem step_lifecycle (h : Step w s t) (hs : Lifecycle w s) : Lifecycle w t := by
  cases h with
  | client shared => exact hs.frame (fun _ h => h) (fun _ => rfl) rfl rfl
  | publish x => exact hs.frame (fun _ h => h) (fun _ => rfl) rfl rfl
  | drop x => exact hs.frame (fun _ h => h) (fun _ => rfl) rfl rfl
  | endCtx err => exact ⟨hs.opened, hs.subscribed, hs.fails, fun _ _ _ => by simp⟩
  | deliver ch sub x rest =>
    refine hs.frame (fun _ h => Sys.setChan_isOpen h rfl) ?_ rfl rfl
    intro y
    exact s.setChan_field (fun c => c.subscription) (by rfl) y
  | lost ch => exact hs.frame (fun _ h => (Sys.lose_isOpen h).2) (s.lose_field (fun c => c.subscription) rfl) rfl rfl
  | brokerCancel ch reason =>
    refine hs.frame (fun _ h => Sys.setChan_isOpen h rfl) ?_ rfl rfl
    intro y
    exact s.setChan_field (fun c => c.subscription) (by rfl) y
  | moves pc h =>
    refine ⟨?_, ?_, h.fails hs, fun err hpc hauto => h.returned_ctx hs err hpc hauto⟩
    · intro ch hopen
      exact h.chan.trans (hs.opened ch hopen)
    · intro ch hsub
      rw [h.subscribed] at hsub
      cases hsub
  | created hpc hstate =>
    refine ⟨?_, fun _ h => (by cases h), fun _ h => (by cases h), fun _ h => (by cases h)⟩
    intro ch hopen
    by_cases hch : ch = s.nextChan
    · rw [hch]
      rfl
    · change ((s.setChan s.nextChan .opened).chans ch).isOpen = true at hopen
      rw [s.setChan_chans_other _ hch] at hopen
      have hold := hs.opened ch hopen
      rw [hpc] at hold
      cases hold
  | qos ch hpc =>
    exact hs.within (fun _ h => Sys.setChan_isOpen h rfl) (by rw [hpc]; rfl) (fun _ h => by cases h) rfl
  | consume ch hpc =>
    refine hs.within (fun _ h => Sys.setChan_isOpen h rfl) (by rw [hpc]; rfl) ?_ rfl
    intro x h
    cases h
    simp [consume, Sys.setChan]
  | receive ch d rest hpc =>
    refine hs.within (fun _ h => Sys.setChan_isOpen h rfl) (by rw [hpc]; rfl) ?_ rfl
    intro x h
    cases h
    have hsub := hs.subscribed ch (by rw [hpc]; rfl)
    simpa [receive, Sys.setChan] using hsub
  | handle ch d result hpc => exact handle_lifecycle hs hpc result
  | settled ch d how result reached err front hpc => exact settled_lifecycle hs hpc reached err front
  | close ch err hpc =>
    refine ⟨?_, ?_, ?_, ?_⟩
    · intro x h
      have hlost : x ≠ ch ∧ (s.chans x).isOpen = true := Sys.lose_isOpen h
      have hold := hs.opened x hlost.2
      rw [hpc] at hold
      cases hold
      exact absurd rfl hlost.1
    · intro x h
      rw [finish_subscribed] at h
      cases h
    · intro e h
      rw [finish_leaves] at h
      cases h
      exact hs.fails err (by rw [hpc]; rfl)
    · intro e h hauto
      rw [finish_returned h] at hauto
      cases hauto

theorem exec_lifecycle (h : exec (step w) (.start client) as = some s) : Lifecycle w s :=
  exec_invariant (fun _ _ _ hs hstep => step_lifecycle (step_cases hstep) hs) (start_lifecycle client) h

/-- However the run went, at most one channel of the consumer is open, and none once
it has returned. It returns an error, and with `AutoReconnect` only after the end of the
context. -/
theorem startConsumer_lifecycle (w : Setting V) (client : Client.Shared) (as : List Action) (s : Sys)
    (h : exec (step w) (.start client) as = some s) :
    (∀ a b, (s.chans a).isOpen = true → (s.chans b).isOpen = true → a = b) ∧
    ∀ err, s.pc = .returned err →
      (∀ ch, (s.chans ch).isOpen = false) ∧ err ≠ none ∧ (w.opts.autoReconnect = true → s.ctxErr ≠ none) := by
  have hs := exec_lifecycle h
  refine ⟨?_, ?_⟩
  · intro a b ha hb
    exact Option.some.inj ((hs.opened a ha).symm.trans (hs.opened b hb))
  · intro err hpc
    refine ⟨?_, hs.fails err (by rw [hpc]; rfl), hs.returned err hpc⟩
    intro ch
    by_contra hopen
    have hchan := hs.opened ch (by simpa using hopen)
    rw [hpc] at hchan
    cases hchan

/- A consumer that loses its channel while it handles a message, starts over, gets the
message again and is stopped. -/
def orders : Setting Unit where
  config := newDefaultConfig "amqp://localhost"
  opts := { consumeWithDefaults "orders" with autoReconnect := true }
  unmarshal := unmarshalObject

def connectedClient : Client.Shared := { Client.newShared with state := .connected }

def order : Message := ⟨7, "orders", [], emptyObject⟩

def interrupted : List Action :=
  [.run .go, .run .go, .run .go, .publish order, .deliver 0, .run .delivery, .lost 0]

-- the error of a call on a channel that is gone
def errClosed : Error := .new "amqp.ErrClosed" "channel/connection is not open"

def redelivered : List Action :=
  interrupted ++ [.run (.handled none), .run (.settled false (some errClosed) false), .run .closed, .run .go, .run .go,
    .run .tick, .run .go, .run .go, .run .go, .deliver 1, .run .delivery, .run (.handled none),
    .run (.settled true none false)]

def stopped : List Action := redelivered ++ [.endCtx Ctx.canceled, .run .ctx, .run .go, .run .go]

theorem stopped_lifecycle : ∃ s err, exec (step orders) (.start connectedClient) stopped = some s ∧ s.nextChan = 2 ∧
    s.acked.length = 1 ∧ s.pc = .returned err ∧ (∀ ch, (s.chans ch).isOpen = false) ∧ s.ctxErr ≠ none := by
  refine ⟨_, _, rfl, rfl, rfl, rfl, ?_⟩
  have hlife := (startConsumer_lifecycle orders connectedClient stopped _ rfl).2 _ rfl
  exact ⟨hlife.1, hlife.2.2 rfl⟩

/-! ### Starting over -/

/-- The loop waits for deliveries of its subscription over an open channel. -/
def Consuming (w : Setting V) (s : Sys) : Prop :=
  ∃ ch, s.pc = .select ch ∧ (s.chans ch).isOpen = true ∧ (s.chans ch).cancelled = none ∧
    (s.chans ch).subscription = some w.subscription

/- The client is as it was, and the consumer waits for it or for deliveries. -/
def Rests (w : Setting V) (client : Client.Shared) (s : Sys) : Prop :=
  s.client = client ∧ (s.pc = .waiting ∨ Consuming w s)

-- a step of the consumer; neither the client nor the broker does anything
def Action.own : Action → Prop
  | .run _ => True
  | _ => False

section Recovery

variable {ch : Nat}

theorem step_create (hpc : s.pc = .create) (hstate : s.client.state = .connected) :
    step w s (.run .go) = some { s.setChan s.nextChan .opened with nextChan := s.nextChan + 1, pc := .qos s.nextChan } := by
  simp [step, hpc, stepPc, create, Client.createConsumerChannel, hstate]

theorem step_qos (hpc : s.pc = .qos ch) (hopen : (s.chans ch).isOpen = true) (hp : 0 < w.config.prefetchCount) :
    step w s (.run .go) = some (qos w s ch) := by
  simp [step, hpc, stepPc, stepQos, hopen, Int.not_le.mpr hp]

theorem step_consume (hpc : s.pc = .consume ch) (hopen : (s.chans ch).isOpen = true) :
    step w s (.run .go) = some (consume w s ch) := by
  simp [step, hpc, stepPc, hopen]

theorem connected_recovers (hpc : s.pc = .create) (hstate : s.client.state = .connected)
    (hp : 0 < w.config.prefetchCount) :
    CanReach (step w) Action.own (fun t => t.client = s.client ∧ Consuming w t) s := by
  refine .after (step_create hpc hstate) trivial ?_
  refine .after (step_qos rfl (by simp [Sys.setChan, Chan.opened]) hp) trivial ?_
  refine .after (step_consume rfl (by simp [qos, Sys.setChan, Chan.opened])) trivial ?_
  refine .now ⟨rfl, s.nextChan, rfl, ?_, ?_, ?_⟩
  · simp [consume, qos, Sys.setChan, Chan.opened]
  · simp [consume, qos, Sys.setChan, Chan.opened]
  · simp [consume, Sys.setChan]

theorem waiting_recovers (hpc : s.pc = .waiting) (hstate : s.client.state = .connected)
    (hp : 0 < w.config.prefetchCount) : CanReach (step w) Action.own (Consuming w) s := by
  have h₁ : step w s (.run .tick) = some { s with pc := .create } := by
    simp [step, hpc, stepPc, Client.isHealthy, hstate]
  exact .after h₁ trivial ((connected_recovers (s := { s with pc := .create }) rfl hstate hp).mono fun _ h => h.2)

theorem Rests.recovers (h : Rests w client s) (hstate : client.state = .connected) (hp : 0 < w.config.prefetchCount) :
    CanReach (step w) Action.own (Consuming w) s := by
  obtain ⟨rfl, hwaiting | hconsuming⟩ := h
  · exact waiting_recovers hwaiting hstate hp
  · exact .now hconsuming

theorem ended_rests {e : Error} (hpc : s.pc = .ended (some e)) (hctx : s.ctxErr = none) :
    CanReach (step w) Action.own (Rests w s.client) s := by
  have h₁ : step w s (.run .go) = some { s with pc := .waiting } := by
    simp [step, hpc, stepPc, hctx]
  exact .after h₁ trivial (.now ⟨rfl, .inl rfl⟩)

theorem closing_rests {e : Error} (hpc : s.pc = .closing ch (some e)) (hctx : s.ctxErr = none)
    (hauto : w.opts.autoReconnect = true) : CanReach (step w) Action.own (Rests w s.client) s := by
  have h₁ : step w s (.run .go) = some { s.lose ch with pc := .ended (some e) } := by
    simp [step, hpc, stepPc, finish, hauto]
  exact .after h₁ trivial (ended_rests rfl hctx)

theorem select_rests (hs : Lifecycle w s) (hpc : s.pc = .select ch) (hctx : s.ctxErr = none)
    (hauto : w.opts.autoReconnect = true) : CanReach (step w) Action.own (Rests w s.client) s := by
  cases hopen : (s.chans ch).isOpen with
  | false =>
    have h₁ : step w s (.run .closed) = some { s with pc := .closing ch (some errDeliveriesClosed) } := by
      simp [step, hpc, stepPc, hopen]
    exact .after h₁ trivial (closing_rests rfl hctx hauto)
  | true =>
    cases hcancel : (s.chans ch).cancelled with
    | none => exact .now ⟨rfl, .inr ⟨ch, hpc, hopen, hcancel, hs.subscribed ch (by rw [hpc]; rfl)⟩⟩
    | some reason =>
      have h₁ : step w s (.run .cancel) = some { s with pc := .closing ch (some (errCancelled (some reason))) } := by
        simp [step, hpc, stepPc, hcancel]
      exact .after h₁ trivial (closing_rests rfl hctx hauto)

theorem settling_rests {d : Delivery} {how : Settlement} {result : Option Error} (hs : Lifecycle w s)
    (hpc : s.pc = .settling ch d how result) (hctx : s.ctxErr = none) (hauto : w.opts.autoReconnect = true) :
    CanReach (step w) Action.own (Rests w s.client) s := by
  have h₁ : step w s (.run (.settled false none false)) = some (settled w s ch d how result false none false) := by
    simp [step, hpc, stepPc]
  exact .after h₁ trivial (select_rests (step_lifecycle (step_cases h₁) hs) rfl hctx hauto)

theorem handling_rests {d : Delivery} (hs : Lifecycle w s) (hpc : s.pc = .handling ch d) (hctx : s.ctxErr = none)
    (hauto : w.opts.autoReconnect = true) : CanReach (step w) Action.own (Rests w s.client) s := by
  have h₁ : step w s (.run (.handled none)) = some (handle w s ch d none) := by
    simp [step, hpc, stepPc]
  have hnext := step_lifecycle (step_cases h₁) hs
  refine .after h₁ trivial ?_
  unfold handle at hnext ⊢
  dsimp only at hnext ⊢
  cases hsettle : (process w d none none).settlement with
  | none =>
    rw [hsettle] at hnext
    exact select_rests hnext rfl hctx hauto
  | some how =>
    rw [hsettle] at hnext
    exact settling_rests hnext rfl hctx hauto

theorem create_rests (hpc : s.pc = .create) (hctx : s.ctxErr = none) (hauto : w.opts.autoReconnect = true)
    (hp : 0 < w.config.prefetchCount) : CanReach (step w) Action.own (Rests w s.client) s := by
  by_cases hstate : s.client.state = .connected
  · exact (connected_recovers hpc hstate hp).mono fun t h => ⟨h.1, .inr h.2⟩
  · have h₁ : step w s (.run .go) = some { s with
        pc := .ended (some (Client.errNotConnected.annotate "failed to create consumer channel")) } := by
      simp [step, hpc, stepPc, create, Client.createConsumerChannel, hstate, finish, hauto]
    exact .after h₁ trivial (ended_rests rfl hctx)

theorem exec_rests (hrun : exec (step w) (.start client) as = some s) (hp : 0 < w.config.prefetchCount)
    (hauto : w.opts.autoReconnect = true) (hctx : s.ctxErr = none) :
    CanReach (step w) Action.own (Rests w s.client) s := by
  have hs := exec_lifecycle hrun
  cases hpc : s.pc with
  | create => exact create_rests hpc hctx hauto hp
  | qos ch =>
    have h₁ : step w s (.run (.fail errClosed)) =
        some { s with pc := .closing ch (some (errClosed.annotate "failed to set QoS")) } := by
      simp [step, hpc, stepPc, stepQos, Int.not_le.mpr hp]
    exact .after h₁ trivial (closing_rests rfl hctx hauto)
  | consume ch =>
    have h₁ : step w s (.run (.fail errClosed)) =
        some { s with pc := .closing ch (some (errClosed.annotate "failed to start consuming")) } := by
      simp [step, hpc, stepPc]
    exact .after h₁ trivial (closing_rests rfl hctx hauto)
  | select ch => exact select_rests hs hpc hctx hauto
  | handling ch d => exact handling_rests hs hpc hctx hauto
  | settling ch d how result => exact settling_rests hs hpc hctx hauto
  | closing ch err =>
    cases err with
    | none => exact absurd rfl (hs.fails none (by rw [hpc]; rfl))
    | some e => exact closing_rests hpc hctx hauto
  | ended err =>
    cases err with
    | none => exact absurd rfl (hs.fails none (by rw [hpc]; rfl))
    | some e => exact ended_rests hpc hctx
  | waiting => exact .now ⟨rfl, .inl hpc⟩
  | returned err => exact absurd hctx (hs.returned err hpc hauto)

end Recovery

end Ghost.Rabbitmq.ConsumeLoop
