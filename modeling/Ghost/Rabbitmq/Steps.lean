import Ghost.Rabbitmq.Client

/-!
# What a goroutine can do in one step (rabbitmq/client.go, rabbitmq/pool.go, rabbitmq/producer.go)

One constructor for each branch of the step functions, with the condition under
which it is taken. What a step preserves is proved by cases over these.
-/

namespace Ghost.Rabbitmq.Client
open Go Threads

inductive ConnectStep (c : Config) (s : Shared) (loop : Option Int) : ConnectPc → Result → Prop where
  | storeConnecting :
      ConnectStep c s loop .storeConnecting ⟨{ s with state := .connecting }, .connect loop .dialPub, []⟩
  | dialPub : ConnectStep c s loop .dialPub ⟨s.dial, .connect loop (.dialCons s.nextConn), []⟩
  | dialPubFailed : ConnectStep c s loop .dialPub ⟨s, .connect loop (.abort []), []⟩
  | dialCons (pub : Nat) :
      ConnectStep c s loop (.dialCons pub) ⟨s.dial, .connect loop (.install pub s.nextConn), []⟩
  | dialConsFailed (pub : Nat) :
      ConnectStep c s loop (.dialCons pub) ⟨s, .connect loop (.abort [pub]), []⟩
  | install (pub cons : Nat) (hmu : s.mu = false) :
      ConnectStep c s loop (.install pub cons)
        ⟨{ s with publisherConn := some pub, consumerConn := some cons },
          .connect loop (.drain pub cons), []⟩
  | drain (pub cons : Nat) :
      ConnectStep c s loop (.drain pub cons)
        (drainRound s (.connect loop (.drain pub cons)) (.connect loop (.fill pub cons 0)))
  | openConfirm (pub cons i : Nat) (hlt : i < poolSize c) (hopen : s.connOpen pub = true) :
      ConnectStep c s loop (.fill pub cons i)
        ⟨s.openCh pub, .connect loop (.confirm pub cons i s.nextChan), []⟩
  | openSend (pub cons i : Nat) (hlt : i < poolSize c) (hopen : s.connOpen pub = true) :
      ConnectStep c s loop (.fill pub cons i)
        ⟨s.openCh pub, .connect loop (.send pub cons i s.nextChan), []⟩
  | filled (pub cons i : Nat) (hle : poolSize c ≤ i) :
      ConnectStep c s loop (.fill pub cons i)
        ⟨{ s with fills := s.fills ++ [(pub, s.channels)] }, .connect loop .storeConnected, []⟩
  | openFailed (pub cons i : Nat) (hlt : i < poolSize c) :
      ConnectStep c s loop (.fill pub cons i) ⟨s, .connect loop (.abort [pub, cons]), []⟩
  | confirm (pub cons i ch : Nat) (hopen : s.chanOpen ch = true) :
      ConnectStep c s loop (.confirm pub cons i ch) ⟨s, .connect loop (.send pub cons i ch), []⟩
  | confirmFailed (pub cons i ch : Nat) :
      ConnectStep c s loop (.confirm pub cons i ch) ⟨s.closeCh ch, .connect loop (.abort [pub, cons]), []⟩
  | sendClosed (pub cons i ch : Nat) (hclosed : s.channelsClosed = true) :
      ConnectStep c s loop (.send pub cons i ch) ⟨{ s with panicked := true }, .done, []⟩
  | send (pub cons i ch : Nat) (hclosed : s.channelsClosed = false)
      (hroom : s.channels.length < poolSize c) :
      ConnectStep c s loop (.send pub cons i ch)
        ⟨{ s with channels := s.channels ++ [ch] }, .connect loop (.fill pub cons (i + 1)), []⟩
  | storeConnected :
      ConnectStep c s loop .storeConnected ⟨{ s with state := .connected }, .connect loop .watchPub, []⟩
  | watchPub :
      ConnectStep c s loop .watchPub ⟨s, .connect loop .watchCons, [.watcher s.publisherConn]⟩
  | watchCons :
      ConnectStep c s loop .watchCons
        ⟨(connected s loop).1, (connected s loop).2, [.watcher s.consumerConn]⟩
  | aborted : ConnectStep c s loop (.abort []) ⟨s, failed c loop, []⟩
  | abort (conn : Nat) (conns : List Nat) :
      ConnectStep c s loop (.abort (conn :: conns)) ⟨s.closeConn conn, .connect loop (.abort conns), []⟩

inductive CloseStep (s : Shared) : ClosePc → Result → Prop where
  | storeClosing :
      CloseStep s .storeClosing ⟨{ s with state := .closing, closeStored := true }, .close .closeChan, []⟩
  | closeTwice (h : s.closeChan = true) :
      CloseStep s .closeChan ⟨{ s with panicked := true }, .done, []⟩
  | closeChan (h : s.closeChan = false) :
      CloseStep s .closeChan ⟨{ s with closeChan := true }, .close .poolClosed, []⟩
  | poolTwice (h : s.poolClosed = true) : CloseStep s .poolClosed ⟨s, .close .lock, []⟩
  | poolClosed (h : s.poolClosed = false) :
      CloseStep s .poolClosed ⟨{ s with poolClosed := true }, .close .closeChannels, []⟩
  | closeChannels :
      CloseStep s .closeChannels ⟨{ s with channelsClosed := true }, .close .drainChannels, []⟩
  | drain (ch : Nat) (rest : List Nat) (h : s.channels = ch :: rest) :
      CloseStep s .drainChannels ⟨{ s with channels := rest }.closeCh ch, .close .drainChannels, []⟩
  | drained (h : s.channels = []) : CloseStep s .drainChannels ⟨s, .close .lock, []⟩
  | lock (h : s.mu = false) : CloseStep s .lock ⟨{ s with mu := true }, .close .closePub, []⟩
  | closePub :
      CloseStep s .closePub
        ⟨match s.publisherConn with
          | none => s
          | some conn => s.closeConn conn, .close .closeCons, []⟩
  | closeCons :
      CloseStep s .closeCons
        ⟨{ (match s.consumerConn with
          | none => s
          | some conn => s.closeConn conn) with mu := false }, .done, []⟩

inductive ProducerStep (c : Config) (s : Shared) : ProducerPc → Result → Prop where
  | connected (retried : Bool) (h : s.state = .connected) :
      ProducerStep c s (.check retried) ⟨s, .producer .poolCheck, []⟩
  | mayWait (h : s.state ≠ .connected) : ProducerStep c s (.check false) ⟨s, .producer .wait, []⟩
  | notConnected (h : s.state ≠ .connected) : ProducerStep c s (.check true) ⟨s, .done, []⟩
  | waited : ProducerStep c s .wait ⟨s, .producer (.check true), []⟩
  | waitFailed : ProducerStep c s .wait ⟨s, .done, []⟩
  | poolClosed (h : s.poolClosed = true) : ProducerStep c s .poolCheck ⟨s, .done, []⟩
  | poolOpen (h : s.poolClosed = false) : ProducerStep c s .poolCheck ⟨s, .producer .receive, []⟩
  | get (ch : Nat) (rest : List Nat) (hbuf : s.channels = ch :: rest) (hopen : s.chanOpen ch = true) :
      ProducerStep c s .receive ⟨{ s with channels := rest }, .producer (.holding ch), []⟩
  | getClosed (ch : Nat) (rest : List Nat) (hbuf : s.channels = ch :: rest)
      (hopen : s.chanOpen ch = false) :
      ProducerStep c s .receive ⟨{ s with channels := rest }, .done, []⟩
  | getNone (hbuf : s.channels = []) (h : s.channelsClosed = true) :
      ProducerStep c s .receive ⟨s, .done, []⟩
  | getCanceled : ProducerStep c s .receive ⟨s, .done, []⟩
  | publish (ch : Nat) : ProducerStep c s (.holding ch) ⟨s, .producer (.returnOpen ch), []⟩
  | returnOpen (ch : Nat) (hopen : s.chanOpen ch = true) :
      ProducerStep c s (.returnOpen ch) ⟨s, .producer (.returnPool ch), []⟩
  | discard (ch : Nat) (hopen : s.chanOpen ch = false) :
      ProducerStep c s (.returnOpen ch) ⟨s, .done, []⟩
  | returnPool (ch : Nat) (h : s.poolClosed = false) :
      ProducerStep c s (.returnPool ch) ⟨s, .producer (.returnSend ch), []⟩
  | returnClosed (ch : Nat) (h : s.poolClosed = true) :
      ProducerStep c s (.returnPool ch) ⟨s.closeCh ch, .done, []⟩
  | sendClosed (ch : Nat) (hclosed : s.channelsClosed = true) :
      ProducerStep c s (.returnSend ch) ⟨{ s with panicked := true }, .done, []⟩
  | put (ch : Nat) (hclosed : s.channelsClosed = false) (hroom : s.channels.length < poolSize c) :
      ProducerStep c s (.returnSend ch) ⟨{ s with channels := s.channels ++ [ch] }, .done, []⟩
  | full (ch : Nat) (hclosed : s.channelsClosed = false) (hfull : poolSize c ≤ s.channels.length) :
      ProducerStep c s (.returnSend ch) ⟨s.closeCh ch, .done, []⟩

/-- What the goroutines around a reconnect do in one step: the loop outside
`connect`, the close watchers, and the goroutines these start. -/
inductive LoopStep (c : Config) (s : Shared) : Goroutine → Result → Prop where
  | tick (backoff : Int) : LoopStep c s (.waiting backoff) ⟨s, .check backoff, []⟩
  | quit (backoff : Int) (h : s.closeChan = true) : LoopStep c s (.waiting backoff) ⟨s, .stop, []⟩
  | giveUp (backoff : Int) (h : s.state = .closing) : LoopStep c s (.check backoff) ⟨s, .stop, []⟩
  | retry (backoff : Int) (h : s.state ≠ .closing) :
      LoopStep c s (.check backoff) ⟨s, .connect (some backoff) .storeConnecting, []⟩
  | stop : LoopStep c s .stop ⟨{ s with state := .disconnected }, .done, []⟩
  | restore : LoopStep c s .restore ⟨{ s with topology := .empty }, .restoring s.topology.entries, []⟩
  | restored : LoopStep c s (.restoring []) ⟨s, .done, []⟩
  | declared (e : Entry) (rest : List Entry) (h : s.state = .connected) :
      LoopStep c s (.restoring (e :: rest)) ⟨{ s with topology := s.topology.add e }, .restoring rest, []⟩
  | refused (e : Entry) (rest : List Entry) : LoopStep c s (.restoring (e :: rest)) ⟨s, .done, []⟩
  | connClosed (conn : Nat) (h : s.connOpen conn = false) :
      LoopStep c s (.watcher (some conn)) ⟨s, .done, [.draining]⟩
  | dismissed (conn : Option Nat) (h : s.closeChan = true) : LoopStep c s (.watcher conn) ⟨s, .done, []⟩
  | drain : LoopStep c s .draining (drainRound s .draining .trigger)
  | trigger (wasConnected : Bool) (h : s.state = if wasConnected then .connected else .disconnected) :
      LoopStep c s .trigger ⟨s, .cas wasConnected, []⟩
  | noTrigger (h : s.state = .connecting ∨ s.state = .closing) : LoopStep c s .trigger ⟨s, .done, []⟩
  | swap (wasConnected : Bool) (h : s.state = if wasConnected then .connected else .disconnected) :
      LoopStep c s (.cas wasConnected)
        ⟨{ s with state := .connecting }, .done, [.waiting c.reconnectInitialInterval]⟩
  | lostSwap (wasConnected : Bool) : LoopStep c s (.cas wasConnected) ⟨s, .trigger, []⟩

inductive GoroutineStep (c : Config) (s : Shared) : Goroutine → Result → Prop where
  | connect {loop : Option Int} {pc : ConnectPc} {r : Result} (h : ConnectStep c s loop pc r) :
      GoroutineStep c s (.connect loop pc) r
  | producer {pc : ProducerPc} {r : Result} (h : ProducerStep c s pc r) :
      GoroutineStep c s (.producer pc) r
  | close {pc : ClosePc} {r : Result} (h : CloseStep s pc r) : GoroutineStep c s (.close pc) r
  | loop {g : Goroutine} {r : Result} (h : LoopStep c s g r) : GoroutineStep c s g r

section Cases

variable {c : Config} {s : Shared} {choice : Choice} {r : Result}

theorem stepConnect_cases {loop : Option Int} {pc : ConnectPc}
    (h : stepConnect c s loop pc choice = some r) : ConnectStep c s loop pc r := by
  unfold stepConnect at h
  split at h
  · cases h
    exact .storeConnecting
  · cases h
    exact .dialPub
  · cases h
    exact .dialPubFailed
  · cases h
    exact .dialCons _
  · cases h
    exact .dialConsFailed _
  · split at h <;> cases h
    rename_i hmu
    exact .install _ _ (Bool.eq_false_iff.mpr hmu)
  · cases h
    exact .drain _ _
  · split at h
    · rename_i hlt
      split at h <;> cases h
      rename_i hopen
      cases c.publisherConfirms with
      | true => exact .openConfirm _ _ _ hlt hopen
      | false => exact .openSend _ _ _ hlt hopen
    · rename_i hle
      cases h
      exact .filled _ _ _ (Nat.le_of_not_lt hle)
  · split at h <;> cases h
    rename_i hlt
    exact .openFailed _ _ _ hlt
  · split at h <;> cases h
    rename_i hopen
    exact .confirm _ _ _ _ hopen
  · cases h
    exact .confirmFailed _ _ _ _
  · split at h
    · rename_i hclosed
      cases h
      exact .sendClosed _ _ _ _ hclosed
    · rename_i hclosed
      split at h <;> cases h
      rename_i hroom
      exact .send _ _ _ _ (Bool.eq_false_iff.mpr hclosed) hroom
  · cases h
    exact .storeConnected
  · cases h
    exact .watchPub
  · cases h
    exact .watchCons
  · cases h
    exact .aborted
  · cases h
    exact .abort _ _
  · cases h

theorem stepClose_cases {pc : ClosePc} (h : stepClose s pc = some r) : CloseStep s pc r := by
  unfold stepClose at h
  split at h
  · cases h
    exact .storeClosing
  · split at h <;> cases h
    · rename_i hclosed
      exact .closeTwice hclosed
    · rename_i hclosed
      exact .closeChan (Bool.eq_false_iff.mpr hclosed)
  · split at h <;> cases h
    · rename_i hclosed
      exact .poolTwice hclosed
    · rename_i hclosed
      exact .poolClosed (Bool.eq_false_iff.mpr hclosed)
  · cases h
    exact .closeChannels
  · split at h <;> cases h
    · rename_i ch rest hbuf
      exact .drain ch rest hbuf
    · rename_i hbuf
      exact .drained hbuf
  · split at h <;> cases h
    rename_i hmu
    exact .lock (Bool.eq_false_iff.mpr hmu)
  · cases h
    exact .closePub
  · cases h
    exact .closeCons

theorem stepProducer_cases {pc : ProducerPc} (h : stepProducer c s pc choice = some r) :
    ProducerStep c s pc r := by
  unfold stepProducer at h
  split at h
  · rename_i retried
    cases h
    by_cases hstate : s.state = .connected
    · rw [if_pos hstate]
      exact .connected _ hstate
    · rw [if_neg hstate]
      cases retried with
      | true => exact .notConnected hstate
      | false => exact .mayWait hstate
  · cases h
    exact .waited
  · cases h
    exact .waitFailed
  · cases h
    cases hclosed : s.poolClosed with
    | true => exact .poolClosed hclosed
    | false => exact .poolOpen hclosed
  · split at h
    · rename_i ch rest hbuf
      cases h
      cases hopen : s.chanOpen ch with
      | true => exact .get ch rest hbuf hopen
      | false => exact .getClosed ch rest hbuf hopen
    · rename_i hbuf
      split at h <;> cases h
      rename_i hclosed
      exact .getNone hbuf hclosed
  · cases h
    exact .getCanceled
  · cases h
    exact .publish _
  · rename_i ch
    cases h
    cases hopen : s.chanOpen ch with
    | true => exact .returnOpen ch hopen
    | false => exact .discard ch hopen
  · split at h <;> cases h
    · rename_i hclosed
      exact .returnClosed _ hclosed
    · rename_i hclosed
      exact .returnPool _ (Bool.eq_false_iff.mpr hclosed)
  · split at h
    · rename_i hclosed
      cases h
      exact .sendClosed _ hclosed
    · rename_i hclosed
      split at h <;> cases h
      · rename_i hroom
        exact .put _ (Bool.eq_false_iff.mpr hclosed) hroom
      · rename_i hfull
        exact .full _ (Bool.eq_false_iff.mpr hclosed) (Nat.le_of_not_lt hfull)
  · cases h

theorem stepGoroutine_cases {g : Goroutine} (h : stepGoroutine c s g choice = some r) :
    GoroutineStep c s g r := by
  unfold stepGoroutine at h
  split at h
  · exact .connect (stepConnect_cases h)
  · cases h
    exact .loop (.tick _)
  · split at h <;> cases h
    rename_i hquit
    exact .loop (.quit _ hquit)
  · cases h
    apply GoroutineStep.loop
    split
    · rename_i hclosing
      exact .giveUp _ hclosing
    · rename_i hclosing
      exact .retry _ hclosing
  · cases h
    exact .loop .stop
  · cases h
    exact .loop .restore
  · cases h
    exact .loop .restored
  · split at h <;> cases h
    rename_i hconnected
    exact .loop (.declared _ _ hconnected)
  · cases h
    exact .loop (.refused _ _)
  · split at h <;> cases h
    rename_i hopen
    exact .loop (.connClosed _ (Bool.eq_false_iff.mpr hopen))
  · split at h <;> cases h
    rename_i hquit
    exact .loop (.dismissed _ hquit)
  · cases h
    exact .loop .drain
  · cases h
    apply GoroutineStep.loop
    cases hstate : s.state with
    | connected => exact .trigger true hstate
    | disconnected => exact .trigger false hstate
    | connecting => exact .noTrigger (.inl hstate)
    | closing => exact .noTrigger (.inr hstate)
  · rename_i wasConnected
    by_cases hstate : s.state = (if wasConnected then .connected else .disconnected)
    · rw [if_pos hstate] at h
      cases h
      exact .loop (.swap _ hstate)
    · rw [if_neg hstate] at h
      cases h
      exact .loop (.lostSwap _)
  · exact .close (stepClose_cases h)
  · exact .producer (stepProducer_cases h)
  · cases h

end Cases

/-! ### Steps of the system -/

inductive SysStep (c : Config) (s : Sys) : Action → Sys → Prop where
  | run (i : Nat) (choice : Choice) (g : Goroutine) (r : Result) (hg : s.gs[i]? = some g)
      (hr : stepGoroutine c s.shared g choice = some r) :
      SysStep c s (.run i choice) ⟨r.shared, advance s.gs i r.next r.spawned⟩
  | connLost (conn : Nat) (hopen : s.shared.connOpen conn = true) :
      SysStep c s (.connLost conn) { s with shared := s.shared.closeConn conn }
  | channelError (ch : Nat) (hopen : s.shared.chanOpen ch = true) :
      SysStep c s (.channelError ch) { s with shared := s.shared.closeCh ch }
  | publish (hready : s.shared.ready = true) :
      SysStep c s .publish { s with gs := s.gs ++ [.producer (.check false)] }
  | close (hready : s.shared.ready = true) (hnew : s.shared.closeCalled = false) :
      SysStep c s .close ⟨{ s.shared with closeCalled := true }, s.gs ++ [.close .storeClosing]⟩

theorem step_sysStep {c : Config} {s t : Sys} {a : Action} (h : step c s a = some t) : SysStep c s a t := by
  cases a with
  | run i choice =>
    obtain ⟨g, r, hg, hr, rfl⟩ := step_run h
    exact .run i choice g r hg hr
  | connLost conn =>
    simp only [step] at h
    split at h <;> cases h
    exact .connLost conn ‹_›
  | channelError ch =>
    simp only [step] at h
    split at h <;> cases h
    exact .channelError ch ‹_›
  | publish =>
    simp only [step] at h
    split at h <;> cases h
    exact .publish ‹_›
  | close =>
    simp only [step] at h
    split at h <;> cases h
    rename_i hboth
    exact .close hboth.1 hboth.2

end Ghost.Rabbitmq.Client
