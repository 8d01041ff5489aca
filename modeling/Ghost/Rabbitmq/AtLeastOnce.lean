import Ghost.Rabbitmq.ConsumeRestart
import Mathlib.Data.List.Nodup

/-!
# Messages are handled at least once (rabbitmq/consumer.go)

With manual acknowledgement every delivery the loop receives is settled by one
call, in the order of receipt, before the next one is received. Of the broker it is
assumed that a message leaves the queue by such a call or by a drop of its own, so
whatever becomes of the channels a message waits, is out on an open channel, was
handled, or was dropped by the broker.
-/

namespace Ghost.Rabbitmq.ConsumeLoop
open Go Amqp Transition

variable {V : Type} {w : Setting V} {s t : Sys} {client : Client.Shared} {as : List Action}

def Pc.inHand : Pc → List Delivery
  | .handling _ d | .settling _ d _ _ => [d]
  | _ => []

-- sent down the current channel and not received yet
def Sys.queued (s : Sys) : List Delivery :=
  match s.pc.chan with
  | some ch => (s.chans ch).buffer
  | none => []

/-! ### What is decided for a delivery -/

inductive Decided (w : Setting V) (handled : List (Delivery × Option Error)) (d : Delivery) : Settlement → Prop where
  | ack (h : (d, none) ∈ handled) : Decided w handled d .ack
  | retry (e : Error) (h : (d, some e) ∈ handled) (hn : getRetryCount d.message < w.config.maxRetries) :
      Decided w handled d .nackRequeue
  | exhausted (e : Error) (h : (d, some e) ∈ handled) (hn : w.config.maxRetries ≤ getRetryCount d.message) :
      Decided w handled d .reject
  | poison (e : Error) (h : w.unmarshal d.message.body = .error e) : Decided w handled d .reject

theorem Decided.mono {handled more : List (Delivery × Option Error)} {d : Delivery} {how : Settlement}
    (h : Decided w handled d how) (hsub : handled ⊆ more) : Decided w more d how := by
  cases h with
  | ack h => exact .ack (hsub h)
  | retry e h hn => exact .retry e (hsub h) hn
  | exhausted e h hn => exact .exhausted e (hsub h) hn
  | poison e h => exact .poison e h

-- the handler calls after `handle`
def calls (w : Setting V) (s : Sys) (d : Delivery) (result : Option Error) : List (Delivery × Option Error) :=
  if (process w d result none).handled then s.handled ++ [(d, result)] else s.handled

theorem handled_subset_calls (s : Sys) (d : Delivery) (result : Option Error) : s.handled ⊆ calls w s d result := by
  unfold calls
  split
  · exact List.subset_append_left _ _
  · exact List.Subset.refl _

theorem process_settlement (hmanual : w.autoAck = false) (d : Delivery) (result : Option Error) :
    ∃ how, (process w d result none).settlement = some how ∧ Decided w (calls w s d result) d how := by
  unfold calls process processDelivery
  rw [hmanual]
  cases hu : w.unmarshal d.message.body with
  | error e => exact ⟨.reject, rfl, .poison e hu⟩
  | ok v =>
    cases result with
    | none => exact ⟨.ack, rfl, .ack (by simp)⟩
    | some e =>
      by_cases hn : getRetryCount d.message ≥ w.config.maxRetries
      · refine ⟨.reject, ?_, .exhausted e (by simp) hn⟩
        simp [hn]
      · refine ⟨.nackRequeue, ?_, .retry e (by simp) (by omega)⟩
        simp [hn]

theorem handle_manual (hmanual : w.autoAck = false) (s : Sys) (ch : Nat) (d : Delivery) (result : Option Error) :
    ∃ how, Decided w (calls w s d result) d how ∧
      handle w s ch d result = { s with handled := calls w s d result, pc := .settling ch d how result } := by
  obtain ⟨how, hhow, hdecided⟩ := process_settlement (s := s) hmanual d result
  refine ⟨how, hdecided, ?_⟩
  unfold handle
  dsimp only
  rw [hhow]
  rfl

/-! ### Receipt and settlement -/

structure Flow (w : Setting V) (s : Sys) : Prop where
  order : s.settled.map Prod.fst ++ s.pc.inHand = s.received
  once : (s.received ++ s.queued).Nodup
  known : ∀ d ∈ s.received ++ s.queued, d.chan < s.nextChan ∧ d.tag ≤ (s.chans d.chan).sent
  current : ∀ d ∈ s.pc.inHand ++ s.queued, s.pc.chan = some d.chan
  held : ∀ d ∈ s.pc.inHand ++ s.queued, (s.chans d.chan).isOpen = true → d ∈ s.unacked
  chan : ∀ ch, s.pc.chan = some ch → ch < s.nextChan
  decided : ∀ d how, (d, how) ∈ s.settled → Decided w s.handled d how
  deciding : ∀ ch d how result, s.pc = .settling ch d how result → Decided w s.handled d how

theorem start_flow (client : Client.Shared) : Flow w (.start client) where
  order := rfl
  once := List.nodup_nil
  known := by simp [Sys.start, Sys.queued, Pc.chan]
  current := by simp [Sys.start, Sys.queued, Pc.chan, Pc.inHand]
  held := by simp [Sys.start, Sys.queued, Pc.chan, Pc.inHand]
  chan := by simp [Sys.start, Pc.chan]
  decided := by simp [Sys.start]
  deciding := by simp [Sys.start]

theorem Moves.idle {pc : Pc} (h : Moves w s pc) : s.pc.inHand = [] ∧ pc.inHand = [] := by
  cases h with
  | refused e hpc =>
    rw [hpc]
    unfold finish
    split <;> exact ⟨rfl, rfl⟩
  | prefetch ch hpc | qosFailed ch e hpc | consumeFailed ch e hpc | ctx ch hpc | left ch e hpc
  | returned err hpc | waits err hpc | stopped hpc | again hpc | unhealthy hpc =>
    rw [hpc]
    exact ⟨rfl, rfl⟩

theorem queued_eq {pc : Pc} (hpc : s.pc = pc) {ch : Nat} (hchan : pc.chan = some ch) :
    s.queued = (s.chans ch).buffer := by
  simp only [Sys.queued, hpc, hchan]

/- The loop stays with its channel and has nothing in hand, before and after; what is
sent down the channels is as before. -/
theorem Flow.idle (hs : Flow w s) (hchan : t.pc.chan = s.pc.chan) (hold : s.pc.inHand = []) (hnew : t.pc.inHand = [])
    (hbuffer : ∀ x, (t.chans x).buffer = (s.chans x).buffer) (hsent : ∀ x, (t.chans x).sent = (s.chans x).sent)
    (hopen : ∀ x, (t.chans x).isOpen = true → (s.chans x).isOpen = true) (hnext : t.nextChan = s.nextChan)
    (hreceived : t.received = s.received) (hsettled : t.settled = s.settled) (hhandled : t.handled = s.handled)
    (hunacked : t.unacked = s.unacked) : Flow w t := by
  have hqueued : t.queued = s.queued := by
    unfold Sys.queued
    rw [hchan]
    cases s.pc.chan with
    | none => rfl
    | some ch => exact hbuffer ch
  refine ⟨?_, ?_, ?_, ?_, ?_, ?_, ?_, ?_⟩
  · rw [hsettled, hnew, hreceived, ← hs.order, hold]
  · rw [hreceived, hqueued]
    exact hs.once
  · intro d hd
    rw [hreceived, hqueued] at hd
    rw [hnext, hsent]
    exact hs.known d hd
  · rw [hqueued, hnew, hchan, ← hold]
    exact hs.current
  · rw [hqueued, hnew, hunacked]
    intro d hd h
    exact hs.held d (by rw [hold]; exact hd) (hopen _ h)
  · rw [hchan, hnext]
    exact hs.chan
  · rw [hsettled, hhandled]
    exact hs.decided
  · intro ch d how result hpc
    rw [hpc] at hnew
    cases hnew

-- Nothing the loop sees has changed, but that channels may have ended.
theorem Flow.frame (hs : Flow w s) (hpc : t.pc = s.pc)
    (hbuffer : ∀ x, (t.chans x).buffer = (s.chans x).buffer) (hsent : ∀ x, (t.chans x).sent = (s.chans x).sent)
    (hnext : t.nextChan = s.nextChan) (hreceived : t.received = s.received) (hsettled : t.settled = s.settled)
    (hhandled : t.handled = s.handled)
    (hheld : ∀ d ∈ s.pc.inHand ++ s.queued, (t.chans d.chan).isOpen = true → d ∈ s.unacked → d ∈ t.unacked)
    (hopen : ∀ x, (t.chans x).isOpen = true → (s.chans x).isOpen = true) : Flow w t := by
  have hqueued : t.queued = s.queued := by
    unfold Sys.queued
    rw [hpc]
    cases s.pc.chan with
    | none => rfl
    | some ch => exact hbuffer ch
  refine ⟨?_, ?_, ?_, ?_, ?_, ?_, ?_, ?_⟩
  · rw [hsettled, hpc, hreceived]
    exact hs.order
  · rw [hreceived, hqueued]
    exact hs.once
  · intro d hd
    rw [hreceived, hqueued] at hd
    rw [hnext, hsent]
    exact hs.known d hd
  · rw [hqueued, hpc]
    exact hs.current
  · intro d hd h
    rw [hqueued, hpc] at hd
    exact hheld d hd h (hs.held d hd (hopen _ h))
  · rw [hpc, hnext]
    exact hs.chan
  · rw [hsettled, hhandled]
    exact hs.decided
  · rw [hpc, hhandled]
    exact hs.deciding

theorem lose_flow (hs : Flow w s) (ch : Nat) : Flow w (s.lose ch) := by
  refine hs.frame rfl (s.lose_field (fun c => c.buffer) rfl) (s.lose_field (fun c => c.sent) rfl) rfl rfl rfl rfl ?_
    (fun _ h => (Sys.lose_isOpen h).2)
  intro d _ hopen hd
  have hne : d.chan ≠ ch := (Sys.lose_isOpen hopen).1
  exact List.mem_filter.mpr ⟨hd, by simpa using hne⟩

theorem send_flow (hs : Flow w s) (hlife : Lifecycle w s) {ch : Nat} (hopen : (s.chans ch).isOpen = true)
    (x : Message) (rest : List Message) : Flow w (s.send ch false x rest) := by
  have hchan : s.pc.chan = some ch := hlife.opened ch hopen
  have hqueued : s.queued = (s.chans ch).buffer := queued_eq rfl hchan
  have hnext : (s.send ch false x rest).queued = s.queued ++ [⟨ch, (s.chans ch).sent + 1, x⟩] := by
    have hsame : (s.send ch false x rest).pc = s.pc := rfl
    rw [queued_eq hsame hchan, hqueued]
    simp [Sys.send, Sys.setChan]
  have hsent : ∀ y, (s.chans y).sent ≤ ((s.send ch false x rest).chans y).sent := by
    intro y
    by_cases hy : y = ch
    · simp [Sys.send, Sys.setChan, hy]
    · simp [Sys.send, Sys.setChan, hy]
  -- its tag is larger than those sent before
  have hfresh : (⟨ch, (s.chans ch).sent + 1, x⟩ : Delivery) ∉ s.received ++ s.queued := by
    intro hmem
    have hle := (hs.known _ hmem).2
    dsimp only at hle
    omega
  refine ⟨hs.order, ?_, ?_, ?_, ?_, hs.chan, hs.decided, hs.deciding⟩
  · rw [hnext, ← List.append_assoc]
    refine List.nodup_append.mpr ⟨hs.once, by simp, ?_⟩
    intro a ha b hb hab
    rw [List.mem_singleton.mp hb] at hab
    exact hfresh (hab ▸ ha)
  · intro d hd
    rw [hnext, ← List.append_assoc] at hd
    rcases List.mem_append.mp hd with hd | hd
    · exact ⟨(hs.known d hd).1, Nat.le_trans (hs.known d hd).2 (hsent _)⟩
    · rw [List.mem_singleton.mp hd]
      exact ⟨hs.chan ch hchan, by simp [Sys.send, Sys.setChan]⟩
  · intro d hd
    rw [hnext, ← List.append_assoc] at hd
    rcases List.mem_append.mp hd with hd | hd
    · exact hs.current d hd
    · rw [List.mem_singleton.mp hd]
      exact hchan
  · intro d hd h
    have hmem : ∀ e ∈ s.unacked, e ∈ (s.send ch false x rest).unacked := fun e he => List.mem_append_left _ he
    rw [hnext, ← List.append_assoc] at hd
    rcases List.mem_append.mp hd with hd | hd
    · exact hmem d (hs.held d hd (Sys.setChan_isOpen h rfl))
    · rw [List.mem_singleton.mp hd]
      exact List.mem_append_right _ (List.mem_singleton.mpr rfl)

theorem receive_flow (hs : Flow w s) {ch : Nat} {d : Delivery} {rest : List Delivery} (hpc : s.pc = .select ch)
    (hbuf : (s.chans ch).buffer = d :: rest) : Flow w (receive s ch d rest) := by
  have hold : s.queued = d :: rest := (queued_eq hpc rfl).trans hbuf
  have hnew : (receive s ch d rest).queued = rest := by
    have hnow : (receive s ch d rest).pc = .handling ch d := rfl
    rw [queued_eq hnow rfl]
    simp [receive, Sys.setChan]
  have hall : (receive s ch d rest).received ++ (receive s ch d rest).queued = s.received ++ s.queued := by
    rw [hnew, hold]
    simp [receive]
  have hsent : ∀ x, ((receive s ch d rest).chans x).sent = (s.chans x).sent :=
    fun x => s.setChan_field (fun c => c.sent) (by rfl) x
  have hhand : (receive s ch d rest).pc.inHand ++ (receive s ch d rest).queued = s.pc.inHand ++ s.queued := by
    rw [hnew, hold, hpc]
    rfl
  refine ⟨?_, ?_, ?_, ?_, ?_, ?_, hs.decided, fun _ _ _ _ h => by cases h⟩
  · have horder := hs.order
    rw [hpc] at horder
    simpa [receive, Sys.setChan, Pc.inHand] using horder
  · rw [hall]
    exact hs.once
  · intro e he
    rw [hall] at he
    rw [hsent]
    exact hs.known e he
  · intro e he
    rw [hhand] at he
    have hchan := hs.current e he
    rw [hpc] at hchan
    exact hchan
  · intro e he h
    rw [hhand] at he
    exact hs.held e he (Sys.setChan_isOpen h rfl)
  · intro x hx
    exact hs.chan x (by rw [hpc]; exact hx)

theorem handle_flow (hmanual : w.autoAck = false) (hs : Flow w s) {ch : Nat} {d : Delivery}
    (hpc : s.pc = .handling ch d) (result : Option Error) : Flow w (handle w s ch d result) := by
  obtain ⟨how, hdecided, heq⟩ := handle_manual hmanual s ch d result
  rw [heq]
  have hqueued : Sys.queued { s with handled := calls w s d result, pc := .settling ch d how result } = s.queued := by
    rw [queued_eq hpc rfl]
    rfl
  refine ⟨?_, ?_, ?_, ?_, ?_, ?_, ?_, ?_⟩
  · have horder := hs.order
    rw [hpc] at horder
    exact horder
  · rw [hqueued]
    exact hs.once
  · rw [hqueued]
    exact hs.known
  · rw [hqueued]
    have hcurrent := hs.current
    rw [hpc] at hcurrent
    exact hcurrent
  · rw [hqueued]
    have hheld := hs.held
    rw [hpc] at hheld
    exact hheld
  · intro x hx
    exact hs.chan x (by rw [hpc]; exact hx)
  · intro e how' he
    exact (hs.decided e how' he).mono (handled_subset_calls s d result)
  · intro ch' e how' result' h
    cases h
    exact hdecided

section Settled

variable {ch : Nat} {d : Delivery} {how : Settlement} {result : Option Error}

-- the loop after a settling call, whether or not that got to the broker
def attempted (s : Sys) (ch : Nat) (d : Delivery) (how : Settlement) (err : Option Error) : Sys :=
  { (s.log d err) with pc := .select ch, settled := s.settled ++ [(d, how)] }

theorem attempted_flow (hs : Flow w s) (hpc : s.pc = .settling ch d how result) (err : Option Error) :
    Flow w (attempted s ch d how err) := by
  have hqueued : (attempted s ch d how err).queued = s.queued := by
    rw [queued_eq hpc rfl]
    rfl
  refine ⟨?_, ?_, ?_, ?_, ?_, ?_, ?_, fun _ _ _ _ h => by cases h⟩
  · have horder := hs.order
    rw [hpc] at horder
    simpa [attempted, Sys.log, Pc.inHand] using horder
  · rw [hqueued]
    exact hs.once
  · rw [hqueued]
    exact hs.known
  · intro e he
    rw [hqueued] at he
    have hchan := hs.current e (List.mem_append_right _ he)
    rw [hpc] at hchan
    exact hchan
  · intro e he h
    rw [hqueued] at he
    exact hs.held e (List.mem_append_right _ he) h
  · intro x hx
    exact hs.chan x (by rw [hpc]; exact hx)
  · intro e how' he
    rcases List.mem_append.mp he with he | he
    · exact hs.decided e how' he
    · cases List.mem_singleton.mp he
      exact hs.deciding ch d how result hpc

theorem mem_settle_unacked {e : Delivery} (front : Bool) (hd : d ∈ s.unacked) (he : e ∈ s.unacked) (hne : e ≠ d) :
    e ∈ (s.settle d how front).unacked := by
  unfold Sys.settle
  rw [if_pos hd]
  cases how <;> exact (List.mem_erase_of_ne hne).mpr he

-- A call that gets through is about a tag the broker knows.
theorem settling_unacked (hs : Flow w s) (hpc : s.pc = .settling ch d how result)
    (hopen : (s.chans ch).isOpen = true) : d ∈ s.unacked := by
  have hmem : d ∈ s.pc.inHand ++ s.queued := by
    rw [hpc]
    exact List.mem_append_left _ (List.mem_singleton.mpr rfl)
  have hchan := hs.current d hmem
  rw [hpc] at hchan
  cases hchan
  exact hs.held d hmem hopen

theorem not_mem_queued (hs : Flow w s) (hpc : s.pc = .settling ch d how result) : d ∉ s.queued := by
  have hreceived : d ∈ s.received := by
    rw [← hs.order, hpc]
    exact List.mem_append_right _ (List.mem_singleton.mpr rfl)
  intro hmem
  exact (List.nodup_append.mp hs.once).2.2 d hreceived d hmem rfl

theorem settled_flow (hs : Flow w s) (hpc : s.pc = .settling ch d how result) {reached : Bool}
    (hopen : reached = true → (s.chans ch).isOpen = true) (err : Option Error) (front : Bool) :
    Flow w (settled w s ch d how result reached err front) := by
  have hnext := attempted_flow hs hpc (process w d result err).err
  cases reached with
  | false => exact hnext
  | true =>
    have hd := settling_unacked hs hpc (hopen rfl)
    change Flow w ((attempted s ch d how (process w d result err).err).settle d how front)
    refine hnext.frame (by simp) (Sys.settle_field (fun c => c.buffer) fun _ => rfl)
      (Sys.settle_field (fun c => c.sent) fun _ => rfl) (by simp) (by simp) (by simp) (by simp) ?_
      (fun _ => Sys.settle_isOpen)
    intro e he _ hunacked
    refine mem_settle_unacked front hd hunacked ?_
    rintro rfl
    have hqueued : (attempted s ch e how (process w e result err).err).queued = s.queued := by
      rw [queued_eq hpc rfl]
      rfl
    rw [hqueued] at he
    exact not_mem_queued hs hpc he

end Settled

theorem created_flow (hs : Flow w s) (hpc : s.pc = .create) :
    Flow w { s.setChan s.nextChan .opened with nextChan := s.nextChan + 1, pc := .qos s.nextChan } := by
  have hold : s.queued = [] := by simp only [Sys.queued, hpc, Pc.chan]
  have hnew : Sys.queued { s.setChan s.nextChan .opened with nextChan := s.nextChan + 1, pc := .qos s.nextChan } = [] := by
    simp [Sys.queued, Pc.chan, Sys.setChan, Chan.opened]
  refine ⟨?_, ?_, ?_, ?_, ?_, ?_, hs.decided, fun _ _ _ _ h => by cases h⟩
  · have horder := hs.order
    rw [hpc] at horder
    exact horder
  · have honce := hs.once
    rw [hold] at honce
    rw [hnew]
    exact honce
  · intro d hd
    rw [hnew] at hd
    have hknown := hs.known d (by rw [hold]; exact hd)
    refine ⟨Nat.lt_succ_of_lt hknown.1, ?_⟩
    change d.tag ≤ ((s.setChan s.nextChan .opened).chans d.chan).sent
    rw [s.setChan_chans_other _ (Nat.ne_of_lt hknown.1)]
    exact hknown.2
  · rw [hnew]
    simp [Pc.inHand]
  · rw [hnew]
    simp [Pc.inHand]
  · intro ch hch
    cases hch
    exact Nat.lt_succ_self _

theorem close_flow (hs : Flow w s) {ch : Nat} {err : Option Error} (hpc : s.pc = .closing ch err) :
    Flow w { s.lose ch with pc := finish w err } := by
  have hnew : Sys.queued { s.lose ch with pc := finish w err } = [] := by
    simp only [Sys.queued, finish_chan]
  have hhand : (finish w err).inHand = [] := by
    unfold finish
    split <;> rfl
  have hlost := lose_flow hs ch
  refine ⟨?_, ?_, ?_, ?_, ?_, ?_, hs.decided, ?_⟩
  · have horder := hs.order
    rw [hpc] at horder
    rw [hhand]
    exact horder
  · rw [hnew, List.append_nil]
    exact (List.nodup_append.mp hlost.once).1
  · intro d hd
    rw [hnew, List.append_nil] at hd
    exact hlost.known d (List.mem_append_left _ hd)
  · rw [hnew, hhand]
    simp
  · rw [hnew, hhand]
    simp
  · intro x hx
    rw [finish_chan] at hx
    cases hx
  · intro x d how result h
    unfold finish at h
    split at h <;> cases h

theorem step_flow (hmanual : w.autoAck = false) (h : Step w s t) (hlife : Lifecycle w s)
    (hsub : ∀ ch sub, (s.chans ch).subscription = some sub → sub.autoAck = false) (hs : Flow w s) : Flow w t := by
  cases h with
  | client | endCtx | publish | drop =>
    exact ⟨hs.order, hs.once, hs.known, hs.current, hs.held, hs.chan, hs.decided, hs.deciding⟩
  | deliver ch sub x rest hchan hready hopen =>
    rw [hsub ch sub hchan]
    exact send_flow hs hlife hopen x rest
  | lost ch => exact lose_flow hs ch
  | brokerCancel ch reason =>
    exact hs.frame rfl (fun x => s.setChan_field (fun c => c.buffer) (by rfl) x)
      (fun x => s.setChan_field (fun c => c.sent) (by rfl) x) rfl rfl rfl rfl (fun _ _ _ h => h)
      (fun _ h => Sys.setChan_isOpen h rfl)
  | moves pc h =>
    exact hs.idle h.chan h.idle.1 h.idle.2 (fun _ => rfl) (fun _ => rfl) (fun _ h => h) rfl rfl rfl rfl rfl
  | created hpc => exact created_flow hs hpc
  | qos ch hpc =>
    exact hs.idle (by rw [hpc]; rfl) (by rw [hpc]; rfl) rfl (fun x => s.setChan_field (fun c => c.buffer) (by rfl) x)
      (fun x => s.setChan_field (fun c => c.sent) (by rfl) x) (fun _ h => Sys.setChan_isOpen h rfl) rfl rfl rfl rfl rfl
  | consume ch hpc =>
    exact hs.idle (by rw [hpc]; rfl) (by rw [hpc]; rfl) rfl (fun x => s.setChan_field (fun c => c.buffer) (by rfl) x)
      (fun x => s.setChan_field (fun c => c.sent) (by rfl) x) (fun _ h => Sys.setChan_isOpen h rfl) rfl rfl rfl rfl rfl
  | receive ch d rest hpc hbuf => exact receive_flow hs hpc hbuf
  | handle ch d result hpc => exact handle_flow hmanual hs hpc result
  | settled ch d how result reached err front hpc hopen => exact settled_flow hs hpc hopen err front
  | close ch err hpc => exact close_flow hs hpc

/-! ### The queue -/

def messages (ds : List Delivery) : List Message := ds.map (·.message)

-- how often a message is waiting, out, acknowledged, rejected or dropped
def Sys.copies (s : Sys) (x : Message) : Nat :=
  s.ready.count x + (messages s.unacked).count x + (messages s.acked).count x + (messages s.rejected).count x +
    s.dropped.count x

structure Stock (w : Setting V) (s : Sys) : Prop where
  subscriptions : ∀ ch sub, (s.chans ch).subscription = some sub → sub = w.subscription
  live : ∀ d ∈ s.unacked, (s.chans d.chan).isOpen = true
  conserved : ∀ x, s.copies x = s.published.count x
  acked : ∀ d ∈ s.acked, (d, .ack) ∈ s.settled
  rejected : ∀ d ∈ s.rejected, (d, .reject) ∈ s.settled

theorem start_stock (client : Client.Shared) : Stock w (.start client) where
  subscriptions := fun _ _ h => by cases h
  live := by simp [Sys.start]
  conserved := by simp [Sys.start, Sys.copies, messages]
  acked := by simp [Sys.start]
  rejected := by simp [Sys.start]

theorem count_messages_filter (p : Delivery → Bool) (ds : List Delivery) (x : Message) :
    (messages (ds.filter p)).count x + (messages (ds.filter (!p ·))).count x = (messages ds).count x := by
  have hperm : (messages (ds.filter p) ++ messages (ds.filter (!p ·))).Perm (messages ds) := by
    rw [messages, messages, ← List.map_append]
    exact (List.filter_append_perm p ds).map _
  rw [← List.count_append]
  exact hperm.count_eq x

theorem count_messages_erase {d : Delivery} {ds : List Delivery} (h : d ∈ ds) (x : Message) :
    (messages (ds.erase d)).count x + [d.message].count x = (messages ds).count x := by
  have hperm := ((List.perm_cons_erase h).map (·.message)).count_eq x
  rw [List.map_cons, ← List.singleton_append, List.count_append] at hperm
  unfold messages
  omega

theorem lose_copies (s : Sys) (ch : Nat) (x : Message) : (s.lose ch).copies x = s.copies x := by
  have hsplit := count_messages_filter (fun d => d.chan == ch) s.unacked x
  have hready : (s.lose ch).ready.count x = (messages (s.unacked.filter (·.chan == ch))).count x + s.ready.count x := by
    simp only [Sys.lose, List.count_append]
    rfl
  have hunacked : (messages (s.lose ch).unacked).count x = (messages (s.unacked.filter (!·.chan == ch))).count x := rfl
  unfold Sys.copies
  rw [hready, hunacked]
  simp only [Sys.lose, Sys.setChan]
  omega

theorem lose_stock (hs : Stock w s) (ch : Nat) : Stock w (s.lose ch) := by
  refine ⟨?_, ?_, ?_, hs.acked, hs.rejected⟩
  · intro x sub h
    rw [s.lose_field (fun c => c.subscription) rfl] at h
    exact hs.subscriptions x sub h
  · intro d hd
    obtain ⟨hmem, hne⟩ := List.mem_filter.mp hd
    have hchan : d.chan ≠ ch := by simpa using hne
    have hopen := hs.live d hmem
    rw [← s.setChan_chans_other { s.chans ch with isOpen := false } hchan] at hopen
    exact hopen
  · intro x
    rw [lose_copies]
    exact hs.conserved x

-- A step that does not touch the queue.
theorem Stock.frame (hs : Stock w s) (hsub : ∀ ch, (t.chans ch).subscription = (s.chans ch).subscription)
    (hopen : ∀ ch, (s.chans ch).isOpen = true → (t.chans ch).isOpen = true)
    (hunacked : t.unacked = s.unacked) (hcopies : ∀ x, t.copies x = s.copies x) (hpublished : t.published = s.published)
    (hacked : t.acked = s.acked) (hrejected : t.rejected = s.rejected) (hsettled : s.settled ⊆ t.settled) :
    Stock w t := by
  refine ⟨?_, ?_, ?_, ?_, ?_⟩
  · intro ch sub h
    rw [hsub] at h
    exact hs.subscriptions ch sub h
  · intro d hd
    rw [hunacked] at hd
    exact hopen _ (hs.live d hd)
  · intro x
    rw [hcopies, hpublished]
    exact hs.conserved x
  · intro d hd
    rw [hacked] at hd
    exact hsettled (hs.acked d hd)
  · intro d hd
    rw [hrejected] at hd
    exact hsettled (hs.rejected d hd)

theorem setChan_isOpen_of {ch x : Nat} {c : Chan} (hc : c.isOpen = (s.chans ch).isOpen)
    (h : (s.chans x).isOpen = true) : ((s.setChan ch c).chans x).isOpen = true :=
  (s.setChan_field (fun c => c.isOpen) hc x).trans h

theorem send_stock (hs : Stock w s) {ch : Nat} (hopen : (s.chans ch).isOpen = true) {x : Message} {rest : List Message}
    (hready : s.ready = x :: rest) : Stock w (s.send ch false x rest) := by
  refine ⟨?_, ?_, ?_, hs.acked, hs.rejected⟩
  · intro y sub h
    have hsame : ((s.send ch false x rest).chans y).subscription = (s.chans y).subscription :=
      s.setChan_field (fun c => c.subscription) (by rfl) y
    exact hs.subscriptions y sub (hsame.symm.trans h)
  · intro d hd
    rcases List.mem_append.mp hd with hd | hd
    · exact setChan_isOpen_of rfl (hs.live d hd)
    · rw [List.mem_singleton.mp hd]
      exact setChan_isOpen_of rfl hopen
  · intro y
    have hold := hs.conserved y
    have hcons : s.ready.count y = [x].count y + rest.count y := by
      rw [hready, ← List.singleton_append, List.count_append]
    unfold Sys.copies at hold ⊢
    simp only [Sys.send, Sys.setChan, Bool.false_eq_true, if_false, messages, List.map_append, List.map_cons,
      List.map_nil, List.count_append] at hold ⊢
    omega

theorem drop_copies {y : Message} (hy : y ∈ s.ready) (x : Message) : (s.drop y).copies x = s.copies x := by
  have hperm := (List.perm_cons_erase hy).count_eq x
  rw [← List.singleton_append, List.count_append] at hperm
  simp only [Sys.copies, Sys.drop, List.count_append]
  omega

section Settle

variable {ch : Nat} {d : Delivery} {how : Settlement} {front : Bool}

theorem settle_copies (hd : d ∈ s.unacked) (x : Message) : (s.settle d how front).copies x = s.copies x := by
  have herase := count_messages_erase hd x
  unfold Sys.settle
  rw [if_pos hd]
  unfold Sys.copies
  cases how with
  | ack =>
    simp only [messages, List.map_append, List.count_append, List.map_cons, List.map_nil] at herase ⊢
    omega
  | nackRequeue =>
    cases front with
    | true =>
      have hcons : (d.message :: s.ready).count x = [d.message].count x + s.ready.count x := by
        rw [← List.singleton_append, List.count_append]
      simp only [if_true, hcons]
      omega
    | false =>
      simp only [Bool.false_eq_true, if_false, List.count_append]
      omega
  | reject =>
    simp only [messages, List.map_append, List.count_append, List.map_cons, List.map_nil] at herase ⊢
    omega

theorem settle_gone (how : Settlement) (front : Bool) (hd : d ∈ s.unacked) :
    (∀ e ∈ (s.settle d how front).unacked, e ∈ s.unacked) ∧
    (∀ e ∈ (s.settle d how front).acked, e ∈ s.acked ∨ (e = d ∧ how = .ack)) ∧
    (∀ e ∈ (s.settle d how front).rejected, e ∈ s.rejected ∨ (e = d ∧ how = .reject)) := by
  unfold Sys.settle
  rw [if_pos hd]
  cases how with
  | ack =>
    refine ⟨fun e he => List.mem_of_mem_erase he, ?_, fun e he => .inl he⟩
    intro e he
    rcases List.mem_append.mp he with he | he
    · exact .inl he
    · exact .inr ⟨List.mem_singleton.mp he, rfl⟩
  | nackRequeue => exact ⟨fun e he => List.mem_of_mem_erase he, fun e he => .inl he, fun e he => .inl he⟩
  | reject =>
    refine ⟨fun e he => List.mem_of_mem_erase he, fun e he => .inl he, ?_⟩
    intro e he
    rcases List.mem_append.mp he with he | he
    · exact .inl he
    · exact .inr ⟨List.mem_singleton.mp he, rfl⟩

theorem settle_stock (hs : Stock w s) (hd : d ∈ s.unacked) (hsettled : (d, how) ∈ s.settled) :
    Stock w (s.settle d how front) := by
  have hchans : (s.settle d how front).chans = s.chans := by
    rcases s.settle_cases d how front with ⟨-, h⟩ | ⟨hnot, -⟩
    · exact h
    · exact absurd hd hnot
  obtain ⟨hunacked, hacked, hrejected⟩ := settle_gone how front hd
  refine ⟨?_, ?_, ?_, ?_, ?_⟩
  · rw [hchans]
    exact hs.subscriptions
  · rw [hchans]
    exact fun e he => hs.live e (hunacked e he)
  · intro x
    rw [settle_copies hd, Sys.settle_published]
    exact hs.conserved x
  · intro e he
    rw [Sys.settle_settled]
    rcases hacked e he with he | ⟨rfl, rfl⟩
    · exact hs.acked e he
    · exact hsettled
  · intro e he
    rw [Sys.settle_settled]
    rcases hrejected e he with he | ⟨rfl, rfl⟩
    · exact hs.rejected e he
    · exact hsettled

theorem settled_stock {result : Option Error} (hs : Stock w s) (hflow : Flow w s)
    (hpc : s.pc = .settling ch d how result) {reached : Bool} (hopen : reached = true → (s.chans ch).isOpen = true)
    (err : Option Error) (front : Bool) : Stock w (settled w s ch d how result reached err front) := by
  have hnext : Stock w (attempted s ch d how (process w d result err).err) :=
    hs.frame (fun _ => rfl) (fun _ h => h) rfl (fun _ => rfl) rfl rfl rfl (List.subset_append_left _ _)
  cases reached with
  | false => exact hnext
  | true =>
    have hd := settling_unacked hflow hpc (hopen rfl)
    exact settle_stock hnext hd (List.mem_append_right _ (List.mem_singleton.mpr rfl))

end Settle

theorem step_stock (hmanual : w.autoAck = false) (h : Step w s t) (hlife : Lifecycle w s) (hflow : Flow w s)
    (hs : Stock w s) : Stock w t := by
  cases h with
  | client | endCtx => exact ⟨hs.subscriptions, hs.live, hs.conserved, hs.acked, hs.rejected⟩
  | publish x =>
    refine ⟨hs.subscriptions, hs.live, ?_, hs.acked, hs.rejected⟩
    intro y
    have hold := hs.conserved y
    simp only [Sys.copies, List.count_append] at hold ⊢
    omega
  | deliver ch sub x rest hchan hready hopen =>
    have hauto : sub.autoAck = false := by
      rw [hs.subscriptions ch sub hchan]
      exact hmanual
    rw [hauto]
    exact send_stock hs hopen hready
  | drop x hx => exact hs.frame (fun _ => rfl) (fun _ h => h) rfl (drop_copies hx) rfl rfl rfl (List.Subset.refl _)
  | lost ch => exact lose_stock hs ch
  | brokerCancel ch reason =>
    exact hs.frame (fun x => s.setChan_field (fun c => c.subscription) (by rfl) x)
      (fun _ h => setChan_isOpen_of rfl h) rfl (fun _ => rfl) rfl rfl rfl (List.Subset.refl _)
  | moves pc h => exact ⟨hs.subscriptions, hs.live, hs.conserved, hs.acked, hs.rejected⟩
  | created hpc =>
    -- no delivery is out while there is no channel
    have hnone : s.unacked = [] := by
      rw [List.eq_nil_iff_forall_not_mem]
      intro d hd
      have hchan := hlife.opened _ (hs.live d hd)
      rw [hpc] at hchan
      cases hchan
    refine ⟨?_, ?_, hs.conserved, hs.acked, hs.rejected⟩
    · intro ch sub h
      by_cases hch : ch = s.nextChan
      · rw [hch] at h
        simp [Sys.setChan, Chan.opened] at h
      · refine hs.subscriptions ch sub ?_
        rw [← s.setChan_chans_other .opened hch]
        exact h
    · intro d hd
      change d ∈ s.unacked at hd
      rw [hnone] at hd
      cases hd
  | qos ch hpc =>
    exact hs.frame (fun x => s.setChan_field (fun c => c.subscription) (by rfl) x)
      (fun _ h => setChan_isOpen_of rfl h) rfl (fun _ => rfl) rfl rfl rfl (List.Subset.refl _)
  | consume ch hpc =>
    refine ⟨?_, fun d hd => setChan_isOpen_of rfl (hs.live d hd), hs.conserved, hs.acked, hs.rejected⟩
    intro x sub h
    by_cases hx : x = ch
    · rw [hx] at h
      simpa [consume, Sys.setChan] using h.symm
    · refine hs.subscriptions x sub ?_
      rw [← s.setChan_chans_other { s.chans ch with subscription := some w.subscription } hx]
      exact h
  | receive ch d rest hpc hbuf =>
    exact hs.frame (fun x => s.setChan_field (fun c => c.subscription) (by rfl) x)
      (fun _ h => setChan_isOpen_of rfl h) rfl (fun _ => rfl) rfl rfl rfl (List.Subset.refl _)
  | handle ch d result hpc =>
    obtain ⟨how, -, heq⟩ := handle_manual hmanual s ch d result
    rw [heq]
    exact ⟨hs.subscriptions, hs.live, hs.conserved, hs.acked, hs.rejected⟩
  | settled ch d how result reached err front hpc hopen => exact settled_stock hs hflow hpc hopen err front
  | close ch err hpc =>
    have hlost := lose_stock hs ch
    exact ⟨hlost.subscriptions, hlost.live, hlost.conserved, hlost.acked, hlost.rejected⟩

/-! ### Whole runs -/

structure Manual (w : Setting V) (s : Sys) : Prop where
  lifecycle : Lifecycle w s
  flow : Flow w s
  stock : Stock w s

theorem step_manual (hmanual : w.autoAck = false) (h : Step w s t) (hs : Manual w s) : Manual w t := by
  have hsub : ∀ ch sub, (s.chans ch).subscription = some sub → sub.autoAck = false := by
    intro ch sub hch
    rw [hs.stock.subscriptions ch sub hch]
    exact hmanual
  exact ⟨step_lifecycle h hs.lifecycle, step_flow hmanual h hs.lifecycle hsub hs.flow,
    step_stock hmanual h hs.lifecycle hs.flow hs.stock⟩

theorem exec_manual (hmanual : w.autoAck = false) (h : exec (step w) (.start client) as = some s) : Manual w s :=
  exec_invariant (fun _ _ _ hs hstep => step_manual hmanual (step_cases hstep) hs)
    ⟨start_lifecycle client, start_flow client, start_stock client⟩ h

/-- Every published message waits, is out on a channel, was dropped by the broker, or has
been settled for good: as handled without an error, or as a message that cannot be decoded
or has used up its retries. -/
structure NothingLost (w : Setting V) (s : Sys) : Prop where
  conserved : (s.ready ++ messages s.unacked ++ messages s.acked ++ messages s.rejected ++ s.dropped).Perm s.published
  acked : ∀ d ∈ s.acked, (d, none) ∈ s.handled
  rejected : ∀ d ∈ s.rejected, (∃ e, w.unmarshal d.message.body = .error e) ∨
    ∃ e, (d, some e) ∈ s.handled ∧ w.config.maxRetries ≤ getRetryCount d.message
  returned : ∀ err, s.pc = .returned err → s.unacked = []

theorem Manual.nothingLost (h : Manual w s) : NothingLost w s := by
  obtain ⟨hlife, hflow, hstock⟩ := h
  refine ⟨?_, ?_, ?_, ?_⟩
  · rw [List.perm_iff_count]
    intro x
    have hcopies := hstock.conserved x
    simp only [Sys.copies] at hcopies
    simp only [List.count_append]
    exact hcopies
  · intro d hd
    cases hflow.decided d .ack (hstock.acked d hd) with
    | ack h => exact h
  · intro d hd
    cases hflow.decided d .reject (hstock.rejected d hd) with
    | exhausted e h hn => exact .inr ⟨e, h, hn⟩
    | poison e h => exact .inl ⟨e, h⟩
  · intro err hpc
    rw [List.eq_nil_iff_forall_not_mem]
    intro d hd
    have hchan := hlife.opened _ (hstock.live d hd)
    rw [hpc] at hchan
    cases hchan

/-- With manual acknowledgement the consumer loses no message, whatever becomes of its
channels: what it has settled for good was handled, or had to be rejected. -/
theorem atLeastOnce (w : Setting V) (hmanual : w.autoAck = false) (client : Client.Shared) (as : List Action)
    (s : Sys) (h : exec (step w) (.start client) as = some s) : NothingLost w s :=
  (exec_manual hmanual h).nothingLost

-- After the message another one comes, which the broker drops.
theorem redelivered_atLeastOnce : ∃ s, exec (step orders) (.start connectedClient)
    (redelivered ++ [.publish { order with id := 8 }, .drop { order with id := 8 }]) = some s ∧
    messages s.acked = [order] ∧ s.dropped ≠ [] ∧ NothingLost orders s :=
  ⟨_, rfl, rfl, by decide, atLeastOnce orders rfl connectedClient
    (redelivered ++ [.publish { order with id := 8 }, .drop { order with id := 8 }]) _ rfl⟩

/-! ### Settlements -/

structure SettledOnce (w : Setting V) (s : Sys) : Prop where
  distinct : s.received.Nodup
  order : s.settled.map Prod.fst ++ s.pc.inHand = s.received
  decided : ∀ d how, (d, how) ∈ s.settled → Decided w s.handled d how

def Pc.settles : Pc → Bool
  | .settling _ _ _ _ => true
  | _ => false

theorem Pc.settles_of_idle {pc : Pc} (h : pc.inHand = []) : pc.settles = false := by
  cases pc with
  | settling => cases h
  | _ => rfl

theorem handle_auto (hauto : w.autoAck = true) (s : Sys) (ch : Nat) (d : Delivery) (result : Option Error) :
    handle w s ch d result =
      { Sys.log { s with handled := calls w s d result } d (process w d result none).err with pc := .select ch } := by
  have hnone : (process w d result none).settlement = none := by
    unfold process processDelivery
    rw [hauto]
    cases w.unmarshal d.message.body with
    | error e => rfl
    | ok v => cases result <;> rfl
  unfold handle
  dsimp only
  rw [hnone]
  rfl

theorem step_unsettled (hauto : w.autoAck = true) (h : Step w s t) (hs : s.settled = [] ∧ s.pc.settles = false) :
    t.settled = [] ∧ t.pc.settles = false := by
  cases h with
  | client | endCtx | publish | deliver | drop | lost | brokerCancel => exact hs
  | moves pc h => exact ⟨hs.1, Pc.settles_of_idle h.idle.2⟩
  | created | qos | consume | receive => exact ⟨hs.1, rfl⟩
  | handle ch d result hpc =>
    rw [handle_auto hauto]
    exact ⟨hs.1, rfl⟩
  | settled ch d how result reached err front hpc =>
    rw [hpc] at hs
    cases hs.2
  | close ch err hpc =>
    refine ⟨hs.1, ?_⟩
    change (finish w err).settles = false
    unfold finish
    split <;> rfl

/-- With manual acknowledgement every delivery received is settled by exactly one call, in
the order of receipt and as the handler's result demands, before another is received; with
automatic acknowledgement no settling call is made. -/
theorem settled_once (w : Setting V) (client : Client.Shared) (as : List Action) (s : Sys)
    (h : exec (step w) (.start client) as = some s) :
    (w.autoAck = false → SettledOnce w s) ∧ (w.autoAck = true → s.settled = []) := by
  refine ⟨fun hmanual => ?_, fun hauto => ?_⟩
  · obtain ⟨-, hflow, -⟩ := exec_manual hmanual h
    exact ⟨(List.nodup_append.mp hflow.once).1, hflow.order, hflow.decided⟩
  · exact (exec_invariant (fun _ _ _ hs hstep => step_unsettled hauto (step_cases hstep) hs) ⟨rfl, rfl⟩ h).1

theorem redelivered_settled_once : ∃ s, exec (step orders) (.start connectedClient) redelivered = some s ∧
    s.settled = [(⟨0, 1, order⟩, .ack), (⟨1, 1, order⟩, .ack)] ∧ SettledOnce orders s :=
  ⟨_, rfl, rfl, (settled_once orders connectedClient redelivered _ rfl).1 rfl⟩

end Ghost.Rabbitmq.ConsumeLoop
