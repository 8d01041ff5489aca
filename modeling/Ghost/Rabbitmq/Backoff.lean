import Ghost.Rabbitmq.Steps
import Ghost.Transition.History
import Mathlib.Algebra.Order.Ring.Int

/-!
# Reconnect backoff (rabbitmq/client.go, rabbitmq/config.go)

`reconnectWithBackoff` first waits for the initial interval and doubles it after
every failed `connect`. The first interval is not compared with the maximum, and
the doubling is done in 64 bits before the cap is applied.
-/

namespace Ghost.Rabbitmq.Client
open Go Threads Transition

/-- The interval before attempt `n + 1`, as the loop computes it. -/
def backoffAfter (c : Config) : Nat → Int
  | 0 => c.reconnectInitialInterval
  | n + 1 => nextBackoff c (backoffAfter c n)

/-! ### Arithmetic of the interval -/

section Arithmetic

variable {c : Config} {b : Int}

theorem nextBackoff_of_lt (hpos : 0 < b) (hlt : b < 2 ^ 62) :
    nextBackoff c b = min (b * 2) c.reconnectMaxInterval := by
  have hwrap : wrap64 (b * 2) = b * 2 := by
    unfold wrap64
    omega
  simp only [nextBackoff, hwrap]
  split <;> omega

-- From 2^62 on the double is negative, and a negative interval passes the cap.
theorem nextBackoff_neg (hle : 2 ^ 62 ≤ b) (hlt : b < 2 ^ 63) (hmax : 0 < c.reconnectMaxInterval) :
    nextBackoff c b < 0 := by
  have hwrap : wrap64 (b * 2) = b * 2 - 2 ^ 64 := by
    unfold wrap64
    omega
  simp only [nextBackoff, hwrap]
  split <;> omega

theorem backoffAfter_eq_min (hpos : 0 < c.reconnectInitialInterval)
    (hle : c.reconnectInitialInterval ≤ c.reconnectMaxInterval) (hmax : c.reconnectMaxInterval < 2 ^ 62)
    (n : Nat) : backoffAfter c n = min (c.reconnectInitialInterval * 2 ^ n) c.reconnectMaxInterval := by
  induction n with
  | zero => simpa [backoffAfter] using hle
  | succ n ih =>
    have hexact : 0 < c.reconnectInitialInterval * 2 ^ n :=
      Int.mul_pos hpos (pow_pos (by decide) n)
    rw [backoffAfter, ih, nextBackoff_of_lt (by omega) (by omega), pow_succ, ← mul_assoc]
    omega

theorem le_of_backoffAfter_eq_min
    (h : ∀ n, backoffAfter c n = min (c.reconnectInitialInterval * 2 ^ n) c.reconnectMaxInterval) :
    c.reconnectInitialInterval ≤ c.reconnectMaxInterval := by
  have hfirst := h 0
  simp only [backoffAfter, pow_zero, mul_one] at hfirst
  omega

theorem lt_of_backoffAfter_eq_min (hpos : 0 < c.reconnectInitialInterval)
    (hmax : c.reconnectMaxInterval < 2 ^ 63)
    (h : ∀ n, backoffAfter c n = min (c.reconnectInitialInterval * 2 ^ n) c.reconnectMaxInterval) :
    c.reconnectMaxInterval < 2 ^ 62 := by
  by_contra hle
  -- after 63 doublings the cap is reached, and its own double wraps
  have hcap := h 63
  have hnext := h 64
  have hneg : nextBackoff c c.reconnectMaxInterval < 0 :=
    nextBackoff_neg (Int.not_lt.mp hle) hmax (by omega)
  have hreached : backoffAfter c 63 = c.reconnectMaxInterval := by omega
  rw [backoffAfter, hreached] at hnext
  omega

end Arithmetic

/-! ### Failed attempts along a run -/

-- the interval a loop waits for, or has waited for before the attempt it makes
def Goroutine.backoff : Goroutine → Option Int
  | .waiting b => some b
  | .check b => some b
  | .connect loop _ => loop
  | _ => none

-- `connect` is about to return its error to the loop
def Goroutine.failing : Goroutine → Bool
  | .connect loop (.abort []) => loop.isSome
  | _ => false

/-- How often `connect` has failed so far for each goroutine's loop. -/
def failures (s : Sys) : Action → (Nat → Nat) → Nat → Nat
  | .run i _, w => if (s.gs[i]?).any Goroutine.failing then Function.update w i (w i + 1) else w
  | _, w => w

/-- After `n` failed attempts in a row some loop waits for `b`. -/
def WaitsFor (c : Config) (n : Nat) (b : Int) : Prop :=
  ∃ as s w i, exec (noted (step c) failures) (newClient, fun _ => 0) as = some (s, w) ∧
    s.gs[i]? = some (.waiting b) ∧ w i = n

def Goroutine.At (c : Config) (g : Goroutine) (n : Nat) : Prop :=
  ∀ b, g.backoff = some b → b = backoffAfter c n

structure Counted (c : Config) (s : Sys) (w : Nat → Nat) : Prop where
  loops : ∀ i (g : Goroutine), s.gs[i]? = some g → g.At c (w i)
  fresh : ∀ i, s.gs.length ≤ i → w i = 0

section Step

variable {c : Config} {s : Shared} {g : Goroutine} {r : Result} {n : Nat}

theorem Goroutine.at_of_none (h : g.backoff = none) : g.At c n := by
  intro b hb
  rw [h] at hb
  cases hb

-- What a step leaves of a loop that failed `n` times, and of what it starts.
def Result.At (c : Config) (r : Result) (n : Nat) : Prop :=
  r.next.At c n ∧ ∀ g ∈ r.spawned, g.At c 0

theorem Result.at_of_none (hnext : r.next.backoff = none) (hspawned : r.spawned = []) : r.At c n := by
  refine ⟨Goroutine.at_of_none hnext, fun g hg => ?_⟩
  rw [hspawned] at hg
  cases hg

theorem drainRound_at {again next : Goroutine} (hagain : again.At c n) (hnext : next.At c n) :
    (drainRound s again next).At c n := by
  unfold drainRound
  split
  · exact ⟨hagain, List.forall_mem_nil _⟩
  · refine ⟨?_, List.forall_mem_nil _⟩
    show Goroutine.At c (if s.channelsClosed then again else next) n
    split
    · exact hagain
    · exact hnext

theorem connectStep_at {loop : Option Int} {pc : ConnectPc} (h : ConnectStep c s loop pc r)
    (hg : Goroutine.At c (.connect loop pc) n) :
    r.At c (if (Goroutine.connect loop pc).failing then n + 1 else n) := by
  have hwatch (conn : Option Nat) : ∀ g ∈ [Goroutine.watcher conn], g.At c 0 :=
    List.forall_mem_singleton.mpr (Goroutine.at_of_none rfl)
  cases h with
  | drain => exact drainRound_at hg hg
  | watchPub => exact ⟨hg, hwatch _⟩
  | watchCons =>
    refine ⟨?_, hwatch _⟩
    cases loop with
    | none => exact Goroutine.at_of_none rfl
    | some b => exact Goroutine.at_of_none rfl
  | aborted =>
    cases loop with
    | none => exact Result.at_of_none rfl rfl
    | some b =>
      refine ⟨fun b' hb' => ?_, List.forall_mem_nil _⟩
      cases hb'
      show nextBackoff c b = nextBackoff c (backoffAfter c n)
      rw [← hg b rfl]
  | sendClosed => exact Result.at_of_none rfl rfl
  | _ => exact ⟨hg, List.forall_mem_nil _⟩

theorem loopStep_at (h : LoopStep c s g r) (hg : g.At c n) :
    g.failing = false ∧ r.At c n := by
  cases h with
  | tick => exact ⟨rfl, hg, List.forall_mem_nil _⟩
  | retry => exact ⟨rfl, hg, List.forall_mem_nil _⟩
  | connClosed =>
    exact ⟨rfl, Goroutine.at_of_none rfl, List.forall_mem_singleton.mpr (Goroutine.at_of_none rfl)⟩
  | drain => exact ⟨rfl, drainRound_at hg (Goroutine.at_of_none rfl)⟩
  | swap =>
    refine ⟨rfl, Goroutine.at_of_none rfl, List.forall_mem_singleton.mpr fun b hb => ?_⟩
    cases hb
    rfl
  | _ => exact ⟨rfl, Result.at_of_none rfl rfl⟩

theorem producerStep_next {pc : ProducerPc} (h : ProducerStep c s pc r) :
    r.next.backoff = none ∧ r.spawned = [] := by
  cases h <;> exact ⟨rfl, rfl⟩

theorem closeStep_next {pc : ClosePc} (h : CloseStep s pc r) :
    r.next.backoff = none ∧ r.spawned = [] := by
  cases h <;> exact ⟨rfl, rfl⟩

theorem goroutineStep_at (h : GoroutineStep c s g r) (hg : g.At c n) :
    r.At c (if g.failing then n + 1 else n) := by
  cases h with
  | connect h => exact connectStep_at h hg
  | producer h => exact Result.at_of_none (producerStep_next h).1 (producerStep_next h).2
  | close h => exact Result.at_of_none (closeStep_next h).1 (closeStep_next h).2
  | loop h =>
    obtain ⟨hfailing, hr⟩ := loopStep_at h hg
    rw [if_neg (by simp [hfailing])]
    exact hr

end Step

section Run

variable {c : Config} {s t : Sys} {w : Nat → Nat} {i : Nat} {g : Goroutine} {choice : Choice}

theorem failures_self (hg : s.gs[i]? = some g) :
    failures s (.run i choice) w i = if g.failing then w i + 1 else w i := by
  simp only [failures, hg, Option.any_some]
  split
  · exact Function.update_self ..
  · rfl

theorem failures_ne {j : Nat} (hij : j ≠ i) : failures s (.run i choice) w j = w j := by
  simp only [failures]
  split
  · exact Function.update_of_ne hij ..
  · rfl

-- A goroutine started from outside is no reconnect loop.
theorem Counted.append (h : Counted c s w) (hg : g.backoff = none) (sh : Shared) :
    Counted c ⟨sh, s.gs ++ [g]⟩ w where
  loops := by
    intro j x hj
    rcases getElem?_append_cases hj with hold | rfl
    · exact h.loops j x hold
    · exact Goroutine.at_of_none hg
  fresh := by
    intro j hj
    rw [List.length_append] at hj
    exact h.fresh j (by omega)

theorem Counted.run (h : Counted c s w) {r : Result} (hg : s.gs[i]? = some g)
    (hr : stepGoroutine c s.shared g choice = some r) :
    Counted c ⟨r.shared, advance s.gs i r.next r.spawned⟩ (failures s (.run i choice) w) := by
  have hlt : i < s.gs.length := (List.getElem?_eq_some_iff.mp hg).1
  obtain ⟨hnext, hspawned⟩ := goroutineStep_at (stepGoroutine_cases hr) (h.loops i g hg)
  constructor
  · intro j x hj
    rcases getElem?_advance_cases hj with ⟨rfl, rfl⟩ | ⟨hij, hold⟩ | ⟨hle, hnew⟩
    · rw [failures_self hg]
      exact hnext
    · rw [failures_ne hij]
      exact h.loops j x hold
    · rw [failures_ne (by omega), h.fresh j hle]
      exact hspawned x (List.mem_of_getElem? hnew)
  · intro j hj
    have hle : s.gs.length ≤ j := by
      simp only [advance, List.length_append, List.length_set] at hj
      omega
    rw [failures_ne (by omega)]
    exact h.fresh j hle

theorem Counted.step (h : Counted c s w) {a : Action} (ht : step c s a = some t) :
    Counted c t (failures s a w) := by
  cases step_sysStep ht with
  | run i choice g r hg hr => exact h.run hg hr
  | connLost conn _ => exact ⟨h.loops, h.fresh⟩
  | channelError ch _ => exact ⟨h.loops, h.fresh⟩
  | publish _ => exact h.append rfl _
  | close _ _ => exact h.append rfl _

theorem counted_newClient : Counted c newClient fun _ => 0 where
  loops := by
    intro i g hg
    have hmem := List.mem_of_getElem? hg
    rw [List.mem_singleton.mp hmem]
    exact Goroutine.at_of_none rfl
  fresh _ _ := rfl

theorem counted_of_exec {as : List Action}
    (h : exec (noted (step c) failures) (newClient, fun _ => 0) as = some (s, w)) : Counted c s w := by
  have hstep : ∀ s w a t, True → Counted c s w → True → step c s a = some t →
      Counted c t (failures s a w) := fun _ _ _ _ _ hc _ ht => hc.step ht
  exact (noted_invariant (fun _ _ _ _ _ _ => trivial) hstep trivial counted_newClient (meets_true _ _) h).2

end Run

/-! ### Every wait is reached -/

section Reached

variable {c : Config} {s t : Shared} {g g' : Goroutine} {gs : List Goroutine} {i : Nat}

-- One goroutine moves and starts no other.
def alone (c : Config) (p : Shared × Goroutine) (choice : Choice) : Option (Shared × Goroutine) :=
  match stepGoroutine c p.1 p.2 choice with
  | some ⟨s, g, []⟩ => some (s, g)
  | _ => none

theorem step_of_alone (gs : List Goroutine) {choice : Choice} (h : alone c (s, g) choice = some (t, g')) (hlt : i < gs.length) :
    step c ⟨s, gs.set i g⟩ (.run i choice) = some ⟨t, gs.set i g'⟩ := by
  unfold alone at h
  split at h
  · rename_i hstep
    cases h
    simp only [step, List.getElem?_set_self hlt, Option.bind_some, hstep, Option.map_some, advance,
      List.append_nil, List.set_set]
  · cases h

theorem exec_alone (gs : List Goroutine) {choices : List Choice} (h : exec (alone c) (s, g) choices = some (t, g'))
    (hlt : i < gs.length) :
    exec (step c) ⟨s, gs.set i g⟩ (choices.map (.run i)) = some ⟨t, gs.set i g'⟩ := by
  induction choices generalizing s g with
  | nil =>
    cases h
    rfl
  | cons choice choices ih =>
    obtain ⟨⟨u, x⟩, hu, hrest⟩ := exec_cons_eq_some.mp h
    exact exec_cons_eq_some.mpr ⟨_, step_of_alone gs hu hlt, ih hrest⟩

theorem noted_of_alone {choice : Choice} {w : Nat → Nat} (h : alone c (s, g) choice = some (t, g'))
    (hlt : i < gs.length) :
    noted (step c) failures (⟨s, gs.set i g⟩, w) (.run i choice) =
      some (⟨t, gs.set i g'⟩, if g.failing then Function.update w i (w i + 1) else w) := by
  refine noted_eq_some.mpr ⟨step_of_alone gs h hlt, ?_⟩
  simp only [failures, List.getElem?_set_self hlt, Option.any_some]

theorem fill_round (loop : Option Int) {pub : Nat} (cons : Nat) {k : Nat} (hlt : k < poolSize c)
    (hopen : s.connOpen pub = true) (hclosed : s.channelsClosed = false) (hlen : s.channels.length = k) :
    ∃ choices, exec (alone c) (s, .connect loop (.fill pub cons k)) choices =
      some ({ s.openCh pub with channels := s.channels ++ [s.nextChan] },
        .connect loop (.fill pub cons (k + 1))) := by
  have hsend : alone c (s.openCh pub, .connect loop (.send pub cons k s.nextChan)) .go =
      some ({ s.openCh pub with channels := s.channels ++ [s.nextChan] },
        .connect loop (.fill pub cons (k + 1))) := by
    rw [← hlen] at hlt
    simp only [alone, stepGoroutine, stepConnect, Shared.openCh, hclosed, hlt, Bool.false_eq_true, if_false, if_true]
  cases hconfirms : c.publisherConfirms with
  | false =>
    have hfill : alone c (s, .connect loop (.fill pub cons k)) .go =
        some (s.openCh pub, .connect loop (.send pub cons k s.nextChan)) := by
      simp only [alone, stepGoroutine, stepConnect, hlt, hopen, hconfirms, Bool.false_eq_true, if_false, if_true]
    exact ⟨_, exec_cons_eq_some.mpr ⟨_, hfill, exec_single hsend⟩⟩
  | true =>
    have hfill : alone c (s, .connect loop (.fill pub cons k)) .go =
        some (s.openCh pub, .connect loop (.confirm pub cons k s.nextChan)) := by
      simp only [alone, stepGoroutine, stepConnect, hlt, hopen, hconfirms, if_true]
    have hchan : (s.openCh pub).chanOpen s.nextChan = true := by
      simp [Shared.openCh, Shared.chanOpen, hopen]
    have hconfirm : alone c (s.openCh pub, .connect loop (.confirm pub cons k s.nextChan)) .go =
        some (s.openCh pub, .connect loop (.send pub cons k s.nextChan)) := by
      simp only [alone, stepGoroutine, stepConnect, hchan, if_true]
    exact ⟨_, exec_cons_eq_some.mpr ⟨_, hfill, exec_cons_eq_some.mpr ⟨_, hconfirm, exec_single hsend⟩⟩⟩

-- The pool is filled, one channel a round.
theorem fill_reached (loop : Option Int) {pub : Nat} (cons : Nat) {k : Nat} (hle : k ≤ poolSize c)
    (hopen : s.connOpen pub = true) (hclosed : s.channelsClosed = false) (hlen : s.channels.length = k) :
    ∃ choices t, exec (alone c) (s, .connect loop (.fill pub cons k)) choices =
        some (t, .connect loop (.fill pub cons (poolSize c))) ∧
      t.publisherConn = s.publisherConn ∧ t.connOpen = s.connOpen ∧ t.channelsClosed = false := by
  obtain ⟨rounds, hrounds⟩ := Nat.le.dest hle
  induction rounds generalizing s k with
  | zero =>
    cases hrounds
    exact ⟨[], s, rfl, rfl, rfl, hclosed⟩
  | succ rounds ih =>
    obtain ⟨first, hfirst⟩ := fill_round (c := c) loop cons (by omega) hopen hclosed hlen
    obtain ⟨rest, t, hrest, hpub, hconn, ht⟩ :=
      ih (s := { s.openCh pub with channels := s.channels ++ [s.nextChan] }) (k := k + 1) (by omega)
        hopen hclosed (by simp [hlen]) (by omega)
    exact ⟨first ++ rest, t, exec_trans hfirst hrest, hpub, hconn, ht⟩

theorem drain_reached (hclosed : s.channelsClosed = false) :
    ∃ choices t, exec (alone c) (s, .draining) choices = some (t, .trigger) ∧ t.state = s.state := by
  cases s with
  | mk state closeChan publisherConn consumerConn nextConn connOpen nextChan chanConn chanClosed channels =>
    induction channels generalizing chanClosed with
    | nil =>
      cases hclosed
      exact ⟨[.go], _, rfl, rfl⟩
    | cons ch rest ih =>
      obtain ⟨choices, t, ht, hstate⟩ := ih (Function.update chanClosed ch true) hclosed
      exact ⟨.go :: choices, t, exec_cons_eq_some.mpr ⟨_, rfl, ht⟩, hstate⟩

-- The rest of `connect`, then the publisher connection is lost.
theorem loss_reached (hpub : s.publisherConn = some 0) (hopen : s.connOpen 0 = true)
    (hclosed : s.channelsClosed = false) :
    ∃ as t, exec (step c) ⟨s, [.connect none (.fill 0 1 (poolSize c))]⟩ as =
        some ⟨t, [.done, .done, .watcher s.consumerConn, .draining]⟩ ∧
      t.channelsClosed = false ∧ t.state = .connected := by
  obtain ⟨u, hu⟩ : ∃ u, u = { s with
    fills := s.fills ++ [(0, s.channels)], state := .connected, ready := true } := ⟨_, rfl⟩
  have hfilled : step c ⟨s, [.connect none (.fill 0 1 (poolSize c))]⟩ (.run 0 .go) =
      some ⟨{ s with fills := s.fills ++ [(0, s.channels)] }, [.connect none .storeConnected]⟩ := by
    refine step_of_alone [.done] ?_ (Nat.lt_succ_self 0)
    simp only [alone, stepGoroutine, stepConnect, lt_irrefl, if_false]
  have hconnected : exec (step c)
      ⟨{ s with fills := s.fills ++ [(0, s.channels)] }, [.connect none .storeConnected]⟩
      (List.replicate 3 (.run 0 .go)) =
      some ⟨u, [.done, .watcher (some 0), .watcher s.consumerConn]⟩ := by
    rw [hu, ← hpub]
    rfl
  have hlost : step c ⟨u, [.done, .watcher (some 0), .watcher s.consumerConn]⟩ (.connLost 0) =
      some ⟨u.closeConn 0, [.done, .watcher (some 0), .watcher s.consumerConn]⟩ := by
    rw [hu]
    exact if_pos hopen
  refine ⟨_, u.closeConn 0, exec_cons_eq_some.mpr ⟨_, hfilled, exec_trans hconnected
    (exec_cons_eq_some.mpr ⟨_, hlost, exec_single (a := .run 1 .go) rfl⟩)⟩, ?_, ?_⟩
  · rw [hu]
    exact hclosed
  · rw [hu]
    rfl

theorem swap_reached (c : Config) : ∃ as s, exec (step c) newClient as = some s ∧ s.gs.length = 4 ∧
    s.gs[3]? = some (.cas true) ∧ s.shared.state = .connected := by
  have hdial : ∃ s, exec (step c) newClient (List.replicate 5 (.run 0 .go)) =
        some ⟨s, [.connect none (.fill 0 1 0)]⟩ ∧ s.connOpen 0 = true ∧ s.channelsClosed = false ∧
      s.channels.length = 0 ∧ s.publisherConn = some 0 := ⟨_, rfl, rfl, rfl, rfl, rfl⟩
  obtain ⟨s, hdial, hopen, hclosed, hlen, hpub⟩ := hdial
  obtain ⟨choices, t, hfill, htpub, htopen, htclosed⟩ :=
    fill_reached (c := c) none 1 (Nat.zero_le _) hopen hclosed hlen
  rw [hpub] at htpub
  rw [← htopen] at hopen
  obtain ⟨losses, u, hlost, huclosed, hustate⟩ := loss_reached (c := c) htpub hopen htclosed
  obtain ⟨drains, v, hdrain, hvstate⟩ := drain_reached (c := c) huclosed
  rw [hustate] at hvstate
  have hfilled := exec_alone (i := 0) [.done] hfill (by decide)
  have hdrained := exec_alone (i := 3) [.done, .done, .watcher t.consumerConn, .done] hdrain
    (Nat.lt_succ_self 3)
  have hswap : step c ⟨v, [.done, .done, .watcher t.consumerConn, .trigger]⟩ (.run 3 .go) =
      some ⟨v, [.done, .done, .watcher t.consumerConn, .cas true]⟩ := by
    refine step_of_alone [.done, .done, .watcher t.consumerConn, .done] ?_ (Nat.lt_succ_self 3)
    simp only [alone, stepGoroutine, hvstate]
  exact ⟨_, _, exec_trans hdial (exec_trans hfilled (exec_trans hlost (exec_trans hdrained
    (exec_single hswap)))), rfl, rfl, hvstate⟩

theorem first_wait_reached (c : Config) : ∃ as s w,
    exec (noted (step c) failures) (newClient, fun _ => 0) as = some (s, w) ∧
      s.gs[4]? = some (.waiting c.reconnectInitialInterval) ∧ w 4 = 0 ∧ s.shared.state = .connecting := by
  obtain ⟨as, s, h, hlen, hg, hstate⟩ := swap_reached c
  obtain ⟨w, hw⟩ := exec_noted failures h fun _ => 0
  have hfresh : w 4 = 0 := (counted_of_exec hw).fresh 4 (by omega)
  have hswap : noted (step c) failures (s, w) (.run 3 .go) =
      some (⟨{ s.shared with state := .connecting },
        advance s.gs 3 .done [.waiting c.reconnectInitialInterval]⟩, w) := by
    simp [noted, step, failures, hg, stepGoroutine, hstate, Goroutine.failing]
  refine ⟨_, _, _, exec_trans hw (exec_single hswap), ?_, hfresh, rfl⟩
  rw [← hlen]
  exact getElem?_advance_spawned

-- An attempt at which the first dial fails.
theorem failed_round {w : Nat → Nat} {b : Int} (hlt : i < gs.length) (hstate : s.state = .connecting) :
    exec (noted (step c) failures) (⟨s, gs.set i (.waiting b)⟩, w)
        [.run i .go, .run i .go, .run i .go, .run i .fail, .run i .go] =
      some (⟨s, gs.set i (.waiting (nextBackoff c b))⟩, Function.update w i (w i + 1)) := by
  have hcheck : alone c (s, .check b) .go = some (s, .connect (some b) .storeConnecting) := by
    simp [alone, stepGoroutine, hstate]
  have hstore : alone c (s, .connect (some b) .storeConnecting) .go =
      some (s, .connect (some b) .dialPub) := by
    cases s
    cases hstate
    rfl
  refine exec_cons_eq_some.mpr ⟨_, noted_of_alone rfl hlt, ?_⟩
  refine exec_cons_eq_some.mpr ⟨_, noted_of_alone hcheck hlt, ?_⟩
  refine exec_cons_eq_some.mpr ⟨_, noted_of_alone hstore hlt, ?_⟩
  refine exec_cons_eq_some.mpr ⟨_, noted_of_alone rfl hlt, ?_⟩
  exact exec_single (noted_of_alone rfl hlt)

theorem wait_reached (c : Config) (n : Nat) : ∃ as s w,
    exec (noted (step c) failures) (newClient, fun _ => 0) as = some (s, w) ∧
      s.gs[4]? = some (.waiting (backoffAfter c n)) ∧ w 4 = n ∧ s.shared.state = .connecting := by
  induction n with
  | zero => exact first_wait_reached c
  | succ n ih =>
    obtain ⟨as, ⟨s, gs⟩, w, h, hg, rfl, hstate⟩ := ih
    obtain ⟨hlt, hget⟩ := List.getElem?_eq_some_iff.mp hg
    have hself : gs.set 4 (.waiting (backoffAfter c (w 4))) = gs := by rw [← hget, List.set_getElem_self]
    have hround := failed_round (c := c) (w := w) (b := backoffAfter c (w 4)) hlt hstate
    rw [hself] at hround
    exact ⟨_, _, _, exec_trans h hround, List.getElem?_set_self hlt, Function.update_self .., hstate⟩

theorem waitsFor_iff {n : Nat} {b : Int} : WaitsFor c n b ↔ b = backoffAfter c n := by
  constructor
  · rintro ⟨as, s, w, i, h, hg, rfl⟩
    exact (counted_of_exec h).loops i _ hg b rfl
  · rintro rfl
    obtain ⟨as, s, w, h, hg, hn, -⟩ := wait_reached c n
    exact ⟨as, s, w, 4, h, hg, hn⟩

end Reached

/-! ### The capped exponential -/

structure CappedExponential (c : Config) : Prop where
  eq_min : ∀ n b, WaitsFor c n b → b = min (c.reconnectInitialInterval * 2 ^ n) c.reconnectMaxInterval
  pos : ∀ n b, WaitsFor c n b → 0 < b
  le_max : ∀ n b, WaitsFor c n b → b ≤ c.reconnectMaxInterval
  mono : ∀ m n b b', m ≤ n → WaitsFor c m b → WaitsFor c n b' → b ≤ b'

theorem cappedExponential_of_eq_min {c : Config} (hinitial : 0 < c.reconnectInitialInterval)
    (hmax : 0 < c.reconnectMaxInterval)
    (h : ∀ n, backoffAfter c n = min (c.reconnectInitialInterval * 2 ^ n) c.reconnectMaxInterval) :
    CappedExponential c where
  eq_min n b hb := (waitsFor_iff.mp hb).trans (h n)
  pos n b hb := by
    have hpow : 0 < c.reconnectInitialInterval * 2 ^ n := Int.mul_pos hinitial (pow_pos (by decide) n)
    rw [waitsFor_iff.mp hb, h n]
    omega
  le_max n b hb := by
    rw [waitsFor_iff.mp hb, h n]
    omega
  mono m n b b' hmn hb hb' := by
    have hpow : (2 : Int) ^ m ≤ 2 ^ n := pow_le_pow_right₀ (by decide) hmn
    have hmul := Int.mul_le_mul_of_nonneg_left hpow hinitial.le
    rw [waitsFor_iff.mp hb, waitsFor_iff.mp hb', h m, h n]
    omega

/-- The intervals are the capped exponential exactly when the first one is
within the maximum and the maximum can be doubled in 64 bits. -/
theorem cappedExponential_iff (c : Config) (hok : applyDefaults c = .ok ())
    (hmax : c.reconnectMaxInterval < 2 ^ 63) :
    CappedExponential c ↔
      c.reconnectInitialInterval ≤ c.reconnectMaxInterval ∧ c.reconnectMaxInterval < 2 ^ 62 := by
  obtain ⟨-, -, -, hinitialPos, hmaxPos⟩ := applyDefaults_ok hok
  constructor
  · intro h
    have hlaw n := h.eq_min n _ (waitsFor_iff.mpr rfl)
    exact ⟨le_of_backoffAfter_eq_min hlaw, lt_of_backoffAfter_eq_min hinitialPos hmax hlaw⟩
  · rintro ⟨hle, hlt⟩
    exact cappedExponential_of_eq_min hinitialPos hmaxPos (backoffAfter_eq_min hinitialPos hle hlt)

theorem cappedExponential_iff_default : CappedExponential (newDefaultConfig "amqp://localhost:5672/") :=
  (cappedExponential_iff _ (newDefaultConfig_ok _ (by decide)) (by decide)).mpr ⟨by decide, by decide⟩

def longFirst : Config :=
  { newDefaultConfig "amqp://localhost:5672/" with reconnectInitialInterval := 120 * second }

def wideMax : Config :=
  { newDefaultConfig "amqp://localhost:5672/" with
    reconnectInitialInterval := 2 ^ 62
    reconnectMaxInterval := 2 ^ 63 - 1 }

/-- A first wait of twice the maximum; and, with both intervals near the limit
of a `Duration`, a negative wait after one failure and none at all from the second on. -/
theorem backoff_leaves_law :
    (applyDefaults longFirst = .ok () ∧ longFirst.reconnectMaxInterval = 60 * second ∧
      WaitsFor longFirst 0 (120 * second)) ∧
    (applyDefaults wideMax = .ok () ∧ wideMax.reconnectMaxInterval < 2 ^ 63 ∧
      WaitsFor wideMax 1 (-2 ^ 63) ∧ WaitsFor wideMax 2 0) := by
  refine ⟨⟨by decide, by decide, waitsFor_iff.mpr rfl⟩, by decide, by decide, ?_, ?_⟩
  · exact waitsFor_iff.mpr (by decide)
  · exact waitsFor_iff.mpr (by decide)

end Ghost.Rabbitmq.Client
