import Ghost.Rabbitmq.Consumer
import Ghost.Rabbitmq.PublishRun
import Ghost.Transition.Reach

/-!
# What a nil from PublishMessage means (rabbitmq/producer.go, rabbitmq/pool.go)

With publisher confirms a call that returns nil has the broker's word for its own
message; without them nil means no more than that the message was written. A
confirm says that the broker has dealt with the message, not that a queue has it:
only a mandatory message that no queue takes comes back, and it comes back to
`OnReturn`, not to the call.
-/

namespace Ghost.Rabbitmq.Publish
open Go Amqp Transition Threads

variable {P : Type} {w : Setting P} {s t : Sys P}

/-! ### Without confirms

The pool is filled, a producer takes a channel and writes its message; the broker
has not read it. -/

structure Filling (k : Nat) (s : Sys P) : Prop where
  gs : s.client.gs = [.connect none (.fill 0 1 k)]
  conn : s.client.shared.connOpen 0 = true
  pool : s.client.shared.poolClosed = false
  buffer : s.client.shared.channelsClosed = false
  length : s.client.shared.channels.length = k
  -- all are on the connection, and open
  known : ∀ ch ∈ s.client.shared.channels, ch < s.client.shared.nextChan
  usable : ∀ ch ∈ s.client.shared.channels, s.client.shared.chanOpen ch = true
  callers : s.callers = []
  accepted : s.accepted = []

theorem newProducer_filling : CanReach (step w) (fun _ => True) (Filling 0) (newProducer w) := by
  refine ⟨List.replicate 5 (.client (.run 0 .go)), _, rfl, fun _ _ => trivial, ?_⟩
  exact ⟨rfl, rfl, rfl, rfl, rfl, fun _ h => (by cases h), fun _ h => (by cases h), rfl, rfl⟩

theorem filling_succ (hoff : w.config.publisherConfirms = false) {k : Nat} (hk : k < Client.poolSize w.config.toConfig)
    (h : Filling k s) : CanReach (step w) (fun _ => True) (Filling (k + 1)) s := by
  obtain ⟨p, hp⟩ : ∃ p, p = s.client.shared := ⟨_, rfl⟩
  have hopen : step w s (.client (.run 0 .go)) =
      some { s with client := ⟨p.openCh 0, [.connect none (.send 0 1 k p.nextChan)]⟩ } := by
    simp [step, stepClient, stepRun, h.gs, Client.stepGoroutine, Client.stepConnect, hk, h.conn, hoff, moved, confirmed,
      advance, hp]
  have hsend : step w { s with client := ⟨p.openCh 0, [.connect none (.send 0 1 k p.nextChan)]⟩ } (.client (.run 0 .go)) =
      some { s with client := ⟨{ p.openCh 0 with channels := p.channels ++ [p.nextChan] },
        [.connect none (.fill 0 1 (k + 1))]⟩ } := by
    have hroom : p.channels.length < Client.poolSize w.config.toConfig := by
      rw [hp, h.length]
      exact hk
    have hbuffer : p.channelsClosed = false := by
      rw [hp]
      exact h.buffer
    simp [step, stepClient, stepRun, Client.stepGoroutine, Client.stepConnect, Client.Shared.openCh, hbuffer, hroom, moved,
      confirmed, advance]
  refine .after hopen trivial (.after hsend trivial (.now ?_))
  refine ⟨rfl, ?_, ?_, ?_, ?_, ?_, ?_, h.callers, h.accepted⟩
  · rw [hp]
    exact h.conn
  · rw [hp]
    exact h.pool
  · rw [hp]
    exact h.buffer
  · rw [hp]
    simp [h.length]
  · intro ch hch
    rcases List.mem_append.mp hch with hold | hnew
    · rw [hp] at hold ⊢
      exact Nat.lt_succ_of_lt (h.known ch hold)
    · rw [List.mem_singleton.mp hnew]
      exact Nat.lt_succ_self _
  · intro ch hch
    rcases List.mem_append.mp hch with hold | hnew
    · rw [hp] at hold ⊢
      have hne : ch ≠ s.client.shared.nextChan := Nat.ne_of_lt (h.known ch hold)
      have husable := h.usable ch hold
      simpa [Client.Shared.chanOpen, Client.Shared.openCh, hne] using husable
    · rw [List.mem_singleton.mp hnew, hp]
      simp [Client.Shared.chanOpen, Client.Shared.openCh, h.conn]

theorem filling_reached (hoff : w.config.publisherConfirms = false) {k : Nat}
    (hk : k ≤ Client.poolSize w.config.toConfig) : CanReach (step w) (fun _ => True) (Filling k) (newProducer w) := by
  induction k with
  | zero => exact newProducer_filling
  | succ k ih => exact (ih (by omega)).then fun s hs => filling_succ hoff (by omega) hs

-- connected, with a channel in the pool
structure Idle (s : Sys P) : Prop where
  gs : ∃ a b, s.client.gs = [.done, .watcher a, .watcher b]
  state : s.client.shared.state = .connected
  ready : s.client.shared.ready = true
  pool : s.client.shared.poolClosed = false
  channel : ∃ ch rest, s.client.shared.channels = ch :: rest ∧ s.client.shared.chanOpen ch = true
  callers : s.callers = []
  accepted : s.accepted = []

theorem filled_idle (hsize : 0 < Client.poolSize w.config.toConfig)
    (h : Filling (Client.poolSize w.config.toConfig) s) : CanReach (step w) (fun _ => True) Idle s := by
  obtain ⟨p, hp⟩ : ∃ p, p = { s.client.shared with
    fills := s.client.shared.fills ++ [(0, s.client.shared.channels)], state := .connected, ready := true } := ⟨_, rfl⟩
  have hrun : exec (step w) s (List.replicate 4 (.client (.run 0 .go))) =
      some { s with client := ⟨p, [.done, .watcher s.client.shared.publisherConn,
        .watcher s.client.shared.consumerConn]⟩ } := by
    have hfill : step w s (.client (.run 0 .go)) = some { s with client :=
        ⟨{ s.client.shared with fills := s.client.shared.fills ++ [(0, s.client.shared.channels)] },
          [.connect none .storeConnected]⟩ } := by
      simp [step, stepClient, stepRun, h.gs, Client.stepGoroutine, Client.stepConnect, moved, confirmed, advance]
    refine exec_cons_eq_some.mpr ⟨_, hfill, ?_⟩
    rw [hp]
    rfl
  have hne : s.client.shared.channels ≠ [] := by
    intro hempty
    have hlen := h.length
    rw [hempty] at hlen
    exact Nat.ne_of_lt hsize hlen
  obtain ⟨ch, rest, hch⟩ := List.exists_cons_of_ne_nil hne
  refine ⟨_, _, hrun, fun _ _ => trivial, ⟨_, _, rfl⟩, ?_, ?_, ?_, ⟨ch, rest, ?_, ?_⟩, h.callers, h.accepted⟩
  · rw [hp]
  · rw [hp]
  · rw [hp]
    exact h.pool
  · rw [hp]
    exact hch
  · rw [hp]
    exact h.usable ch (by rw [hch]; exact List.mem_cons_self)

-- the producer at one of its steps
structure Turn (p : Client.Shared) (pc : Client.ProducerPc) (s : Sys P) : Prop where
  shared : s.client.shared = p
  gs : ∃ a b, s.client.gs = [.done, .watcher a, .watcher b, .producer pc]
  call : ∃ call, s.calls 3 = some call ∧ call.stage = .getting
  accepted : s.accepted = []

theorem idle_turn {payload : P} {body : List UInt8} (hbody : w.marshal payload = .ok body) (h : Idle s) :
    CanReach (step w) (fun _ => True) (Turn s.client.shared (.check false)) s := by
  obtain ⟨a, b, hgs⟩ := h.gs
  have hcalled : step w s (.publishMessage {} payload) = some { s with callers := [publishMessage {} payload] } := by
    simp [step, h.callers]
  have hbegun : step w { s with callers := [publishMessage {} payload] } (.begin 0 []) =
      some (begun { s with callers := [publishMessage {} payload] } 0 (publishMessage {} payload) [] body
        ⟨s.client.shared, s.client.gs ++ [.producer (.check false)]⟩) := by
    simp [step, begin, publishMessage, hbody, Client.step, h.ready]
  refine .after hcalled trivial (.after hbegun trivial (.now ⟨rfl, ⟨a, b, ?_⟩, ⟨newCall 0 (publishMessage {} payload) [] body, ?_, rfl⟩, h.accepted⟩))
  · show s.client.gs ++ _ = _
    rw [hgs]
    rfl
  · have hlen : s.client.gs.length = 3 := by
      rw [hgs]
      rfl
    show Function.update s.calls s.client.gs.length _ 3 = _
    rw [hlen, Function.update_self]

theorem turn_run {p q : Client.Shared} {pc next : Client.ProducerPc}
    (hr : Client.stepGoroutine w.config.toConfig p (.producer pc) .go = some ⟨q, .producer next, []⟩)
    (hafter : ∀ (call : Call) ctxErr, call.after ctxErr (.producer next) pc .go = some call) (h : Turn p pc s) :
    CanReach (step w) (fun _ => True) (Turn q next) s := by
  obtain ⟨a, b, hgs⟩ := h.gs
  obtain ⟨call, hcall, hstage⟩ := h.call
  have hstep : step w s (.client (.run 3 .go)) =
      some ((moved s 3 (.producer pc) .go ⟨q, .producer next, []⟩).setCall 3 call) := by
    simp [step, stepClient, stepRun, hgs, h.shared, hr, hcall, hafter]
  refine .after hstep trivial (.now ⟨rfl, ⟨a, b, ?_⟩, ⟨call, ?_, hstage⟩, h.accepted⟩)
  · simp [moved, Sys.setCall, advance, hgs]
  · simp [Sys.setCall]

-- The message is written, and the call returns nil.
def Unheard (s : Sys P) : Prop := ∃ i call, s.calls i = some call ∧ call.stage = .over none ∧ i ∉ s.accepted

theorem turn_unheard (hoff : w.config.publisherConfirms = false) {p : Client.Shared} {ch : Nat}
    (hopen : p.chanOpen ch = true) (h : Turn p (.holding ch) s) : CanReach (step w) (fun _ => True) Unheard s := by
  obtain ⟨a, b, hgs⟩ := h.gs
  obtain ⟨call, hcall, hstage⟩ := h.call
  have hsend : step w s (.send 3 none false) = some (sent w s 3 ch call (.over none)) := by
    simp [step, send, hgs, hcall, hstage, h.shared, hopen, hoff]
  have hself : (sent w s 3 ch call (.over none)).calls 3 =
      some { call with sentAt := some (ch, (s.chans ch).sent.length), stage := .over none } := by
    simp [sent, Sys.setCall, Sys.setChan]
  refine .after hsend trivial (.now ⟨3, _, hself, rfl, ?_⟩)
  show 3 ∉ s.accepted
  simp [h.accepted]

theorem unheard_reached (hoff : w.config.publisherConfirms = false) (hconfig : applyDefaults w.config.toConfig = .ok ())
    {payload : P} {body : List UInt8} (hbody : w.marshal payload = .ok body) :
    CanReach (step w) (fun _ => True) Unheard (newProducer w) := by
  have hsize : 0 < Client.poolSize w.config.toConfig := by
    have hpos := (applyDefaults_ok hconfig).1
    unfold Client.poolSize
    omega
  refine ((filling_reached hoff (Nat.le_refl _)).then fun s hs => filled_idle hsize hs).then fun s hs => ?_
  obtain ⟨ch, rest, hbuf, hopen⟩ := hs.channel
  obtain ⟨p, hp⟩ : ∃ p, p = s.client.shared := ⟨_, rfl⟩
  rw [← hp] at hbuf hopen
  have hcheck : Client.stepGoroutine w.config.toConfig p (.producer (.check false)) .go =
      some ⟨p, .producer .poolCheck, []⟩ := by
    simp [Client.stepGoroutine, Client.stepProducer, hp, hs.state]
  have hpool : Client.stepGoroutine w.config.toConfig p (.producer .poolCheck) .go =
      some ⟨p, .producer .receive, []⟩ := by
    simp [Client.stepGoroutine, Client.stepProducer, hp, hs.pool]
  have hget : Client.stepGoroutine w.config.toConfig p (.producer .receive) .go =
      some ⟨{ p with channels := rest }, .producer (.holding ch), []⟩ := by
    simp [Client.stepGoroutine, Client.stepProducer, hbuf, hopen]
  have hturn := idle_turn hbody hs
  rw [← hp] at hturn
  have hholding := ((hturn.then fun _ h => turn_run hcheck (fun _ _ => rfl) h).then
    fun _ h => turn_run hpool (fun _ _ => rfl) h).then fun _ h => turn_run hget (fun _ _ => rfl) h
  have husable : { p with channels := rest }.chanOpen ch = true := hopen
  exact hholding.then fun _ h => turn_unheard hoff husable h

/-! ### The results -/

/-- A nil from `PublishMessage` means that the broker has handled the message exactly if
publisher confirms are on. -/
theorem nil_accepted_iff (w : Setting P) (hconfig : applyDefaults w.config.toConfig = .ok ())
    (hmarshal : ∃ payload body, w.marshal payload = .ok body) :
    (∀ as s, exec (step w) (newProducer w) as = some s →
      ∀ i call, s.calls i = some call → call.stage = .over none → i ∈ s.accepted) ↔
    w.config.publisherConfirms = true := by
  constructor
  · intro hall
    by_contra hoff
    obtain ⟨payload, body, hbody⟩ := hmarshal
    obtain ⟨as, s, hexec, -, i, call, hcall, hnil, hnot⟩ :=
      unheard_reached (by simpa using hoff) hconfig hbody
    exact hnot (hall as s hexec i call hcall hnil)
  · intro hconfirms as s hexec i call hcall hnil
    exact (exec_published hexec).nil_accepted hconfirms hcall hnil

-- one channel, confirms, and every message mandatory
def careful : Setting Unit where
  config := { toConfig := { newDefaultConfig "amqp://localhost" with publisherConfirms := true, channelPoolSize := 1 },
              mandatory := true, persistentDelivery := false, onReturn := true }
  marshal _ := .ok emptyObject

theorem nil_accepted_iff_careful :
    (∀ as s, exec (step careful) (newProducer careful) as = some s →
      ∀ i call, s.calls i = some call → call.stage = .over none → i ∈ s.accepted) ↔
    careful.config.publisherConfirms = true :=
  nil_accepted_iff careful rfl ⟨(), emptyObject, rfl⟩

/-- Once `PublishMessage` has returned nil, the return listener has been given its message
exactly if no queue took it, it was mandatory and `OnReturn` is set. -/
theorem nil_returned_iff (w : Setting P) (hconfirms : w.config.publisherConfirms = true) (as : List (Action P)) (s : Sys P)
    (h : exec (step w) (newProducer w) as = some s) (i : Nat) (call : Call) (hcall : s.calls i = some call)
    (hnil : call.stage = .over none) :
    ∃ ch p, call.sentAt = some (ch, p) ∧ p < (s.chans ch).routed.length ∧
      ((s.chans ch).Seen (call.publication w.config i) ↔
        (s.chans ch).routed[p]? = some [] ∧ (call.opts.mandatory = true ∨ w.config.mandatory = true) ∧
          w.config.onReturn = true) := by
  have hs := exec_published h
  obtain ⟨ch, p, hat, hv, hp⟩ := hs.nil hconfirms hcall hnil
  have hplaced := hs.located.placed i call ch p hcall hat
  have hmandatory : (call.publication w.config i).mandatory = true ↔
      call.opts.mandatory = true ∨ w.config.mandatory = true := by
    simp only [Call.publication]
    split
    · rename_i hm
      simp [hm]
    · rename_i hm
      simp [hm]
  refine ⟨ch, p, hat, hp, ?_⟩
  constructor
  · intro hseen
    obtain ⟨hlisten, q, hq⟩ := (hs.channels.genuine ch).seen _ hseen
    -- the message of this call is nowhere else
    obtain ⟨owner, howner, hownerAt⟩ := hs.located.owned ch q _ hq.sent
    have hcall' : s.calls i = some owner := howner
    rw [hcall] at hcall'
    cases hcall'
    rw [hat] at hownerAt
    cases hownerAt
    refine ⟨hq.routed, hmandatory.mp hq.mandatory, ?_⟩
    rw [← hs.channels.listening ch]
    exact hlisten
  · rintro ⟨hrouted, hm, honReturn⟩
    have hlisten : (s.chans ch).listening = true := by
      rw [hs.channels.listening ch]
      exact honReturn
    have hback := (hs.channels.returning ch).of_verdict (hs.channels.sound ch) hlisten hplaced (hmandatory.mpr hm) hv
    rcases hback with ⟨queues, hne, hqueues⟩ | hseen
    · rw [hrouted] at hqueues
      exact absurd (Option.some.inj hqueues).symm hne
    · exact hseen

def running (i n : Nat) : List (Action P) := List.replicate n (.client (.run i .go))

-- A message for a queue that is not there: it is confirmed, and comes back.
def confirmedOrder : List (Action Unit) :=
  [.publishMessage (sendMessage "orders") (), .begin 0 [], .client (.run 3 .go), .client (.run 3 .go),
    .client (.run 3 .go), .send 3 none false, .accept 0, .confirm 0 1 false true, .dispatch 0, .dispatch 0,
    .wait 3 false]

def unroutable : List (Action Unit) := running 0 12 ++ confirmedOrder

theorem unroutable_returned : ∃ s call, exec (step careful) (newProducer careful) unroutable = some s ∧
    s.calls 3 = some call ∧ ∃ ch p, call.sentAt = some (ch, p) ∧ p < (s.chans ch).routed.length ∧
      ((s.chans ch).Seen (call.publication careful.config 3) ↔
        (s.chans ch).routed[p]? = some [] ∧ (call.opts.mandatory = true ∨ careful.config.mandatory = true) ∧
          careful.config.onReturn = true) :=
  ⟨_, _, rfl, rfl, nil_returned_iff careful rfl unroutable _ rfl 3 _ rfl rfl⟩

end Ghost.Rabbitmq.Publish
