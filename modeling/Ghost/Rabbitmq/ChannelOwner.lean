import Ghost.Rabbitmq.PublishOrder
import Ghost.Rabbitmq.Rebuild
import Ghost.Transition.Simulation

/-!
# One owner for each channel (rabbitmq/pool.go, rabbitmq/producer.go)

A channel is in the buffer of the pool or in the hands of one goroutine, over all
reconnects and drains. So two calls of `PublishMessage` never publish on one
channel, and a channel that a call waits on for its confirm is not in the pool.
-/

namespace Ghost.Rabbitmq
open Threads

/-! ### The pool by itself -/

namespace Pool

variable {size : Nat} {p q : Pool} {role next : Role} {rs : List Role} {i : Nat}

-- how often a channel is somewhere
def copies (p : Pool) (rs : List Role) (ch : Nat) : Nat :=
  p.channels.countP (· == ch) + (rs.flatMap Role.channels).countP (· == ch)

/- A move makes no second copy; the channel it opens is new. -/
theorem Move.copies (h : Move size p role q next) (ch : Nat) :
    q.channels.countP (· == ch) + next.channels.countP (· == ch) ≤
      p.channels.countP (· == ch) + role.channels.countP (· == ch) + (if ch = p.nextChan then 1 else 0) := by
  cases h with
  | keep => omega
  | leave =>
    simp only [Role.channels, List.countP_nil]
    omega
  | drain _ x rest hbuf =>
    simp only [hbuf, List.countP_cons]
    omega
  | get x rest hbuf =>
    simp only [hbuf, Role.channels, List.countP_cons, List.countP_nil]
    omega
  | put x hroom =>
    simp only [Role.channels, List.countP_append, List.countP_nil]
    omega
  | check | dial | dialOther | drained | fill =>
    simp only [Role.channels]
    omega
  | openCh pub k hlt =>
    simp only [Role.channels, List.countP_cons, List.countP_nil, beq_iff_eq]
    split <;> split <;> omega
  | send pub k x hroom =>
    simp only [Role.channels, List.countP_append, List.countP_nil]
    omega

theorem Known.copies_fresh (hk : Known p rs) : p.copies rs p.nextChan = 0 := by
  have hbuf : p.channels.countP (· == p.nextChan) = 0 := by
    rw [List.countP_eq_zero]
    intro x hx
    have hlt := hk.buffer x hx
    simp only [beq_iff_eq]
    omega
  have hheld : (rs.flatMap Role.channels).countP (· == p.nextChan) = 0 := by
    rw [List.countP_eq_zero]
    intro x hx
    obtain ⟨role, hrole, hmem⟩ := List.mem_flatMap.mp hx
    have hlt := (hk.roles role hrole).1 x hmem
    simp only [beq_iff_eq]
    omega
  simp only [copies]
  omega

def Single (p : Pool) (rs : List Role) : Prop := ∀ ch, p.copies rs ch ≤ 1

theorem Single.move (hs : Single p rs) (hk : Known p rs) {spawned : List Role} (hi : rs[i]? = some role)
    (h : Move size p role q next) (hspawned : ∀ r ∈ spawned, r = .idle) : Single q (advance rs i next spawned) := by
  intro ch
  have hnone : (spawned.flatMap Role.channels).countP (· == ch) = 0 := by
    rw [List.countP_eq_zero]
    intro x hx
    obtain ⟨r, hr, hmem⟩ := List.mem_flatMap.mp hx
    rw [hspawned r hr] at hmem
    cases hmem
  have hcount := countP_advance Role.channels (· == ch) next spawned hi
  have hmove := h.copies ch
  have hone := hs ch
  simp only [copies] at hone ⊢
  by_cases hch : ch = p.nextChan
  · subst hch
    have hfresh := hk.copies_fresh
    simp only [copies] at hfresh
    rw [if_pos rfl] at hmove
    omega
  · rw [if_neg hch] at hmove
    omega

theorem Single.append (hs : Single p rs) {new : List Role} (hnew : ∀ r ∈ new, r = .idle) : Single p (rs ++ new) := by
  intro ch
  have hnone : (new.flatMap Role.channels).countP (· == ch) = 0 := by
    rw [List.countP_eq_zero]
    intro x hx
    obtain ⟨r, hr, hmem⟩ := List.mem_flatMap.mp hx
    rw [hnew r hr] at hmem
    cases hmem
  have hone := hs ch
  simp only [copies, List.flatMap_append, List.countP_append] at hone ⊢
  omega

-- Whoever has the channel is the only one.
theorem Single.unique (hs : Single p rs) {j ch : Nat} {other : Role} (hi : rs[i]? = some role) (hj : rs[j]? = some other)
    (hrole : ch ∈ role.channels) (hother : ch ∈ other.channels) : i = j ∧ ch ∉ p.channels := by
  have hpos : ∀ l : List Nat, ch ∈ l → 1 ≤ l.countP (· == ch) := by
    intro l hl
    exact List.countP_pos_iff.mpr ⟨ch, hl, by simp⟩
  have hone := hs ch
  simp only [copies, countP_flatMap] at hone
  have hfirst := hpos _ hrole
  refine ⟨?_, ?_⟩
  · by_contra hij
    have hboth := add_le_total (f := fun r : Role => r.channels.countP (· == ch)) hi hj hij
    have hsecond := hpos _ hother
    omega
  · intro hmem
    have hbuf := hpos _ hmem
    have hheld := le_total (f := fun r : Role => r.channels.countP (· == ch)) (List.mem_of_getElem? hi)
    omega

end Pool

/-! ### The client plays it -/

namespace Client

open Transition

variable {c : Config}

theorem step_single {s t : Sys} {a : Action} (hk : s.shared.pool.Known s.roles) (hs : s.shared.pool.Single s.roles)
    (h : step c s a = some t) : t.shared.pool.Single t.roles := by
  rcases step_plays h with ⟨i, choice, g, r, -, hg, ⟨hmove, hsp⟩, rfl⟩ | ⟨hpool, new, hnew, hroles⟩
  · simp only [Sys.roles, map_advance]
    exact hs.move hk (roles_getElem? hg) hmove (spawned_idle hsp)
  · rw [hpool, hroles]
    exact hs.append hnew

theorem run_single {as : List Action} {s : Sys} (h : exec (step c) newClient as = some s) :
    s.shared.pool.Single s.roles := by
  have hstep : ∀ (s : Sys) a t, s.shared.pool.Known s.roles ∧ s.shared.pool.Single s.roles → step c s a = some t →
      t.shared.pool.Known t.roles ∧ t.shared.pool.Single t.roles :=
    fun s a t hs ht => ⟨step_known s a t hs.1 ht, step_single hs.1 hs.2 ht⟩
  refine (exec_invariant hstep ⟨run_known (c := c) (exec_nil newClient), ?_⟩ h).2
  intro ch
  exact Nat.zero_le 1

end Client

/-! ### The producers over it -/

namespace Publish

open Transition

variable {P : Type} {w : Setting P} {s t : Sys P} {l : Option Nat}

theorem Shut.step {c : Config} {s : Client.Sys} {shared : Client.Shared} (h : Shut s.shared shared) :
    ({ s with shared := shared } : Client.Sys) = s ∨ ∃ a, Client.step c s a = some { s with shared := shared } := by
  cases h with
  | same => exact .inl rfl
  | conn x hopen => exact .inr ⟨.connLost x, by simp [Client.step, hopen]⟩
  | chan ch hopen => exact .inr ⟨.channelError ch, by simp [Client.step, hopen]⟩

-- Each step is a step of the client, or leaves it alone.
theorem Step.client_cases (h : Step w s l t) :
    t.client = s.client ∨ ∃ a, Client.step w.config.toConfig s.client a = some t.client := by
  have hrun : ∀ i g choice r, s.client.gs[i]? = some g →
      Client.stepGoroutine w.config.toConfig s.client.shared g choice = some r →
      Client.step w.config.toConfig s.client (.run i choice) =
        some ⟨r.shared, advance s.client.gs i r.next r.spawned⟩ := by
    intro i g choice r hg hr
    simp only [Client.step, hg, Option.bind_some, hr, Option.map_some]
  cases h with
  | environment | fails | acked | accept | called | exhausted | unmarshalled | finished | failed => exact .inl rfl
  | client a u hu => exact .inr ⟨a, hu⟩
  | goroutine i g choice r hg hr => exact .inr ⟨.run i choice, hrun i g choice r hg hr⟩
  | producer i pc choice r call call' hg hr => exact .inr ⟨.run i choice, hrun i _ choice r hg hr⟩
  | sent i ch call stage shared hg hcall hstage hshut => exact hshut.step
  | chan ch c shared hmove hsent hrouted hshut => exact hshut.step
  | begun j caller payload carrier body u hj hidle hopen hpayload hbody hu => exact .inr ⟨.publish, hu⟩

theorem projects_client (w : Setting P) : Projects (step w) (Client.step w.config.toConfig) Sys.client :=
  fun _ _ _ h => (step_cases h).client_cases

/-- A channel that one goroutine holds, no other goroutine holds, and it is not in the pool. -/
theorem channel_exclusive (w : Setting P) (as : List (Action P)) (s : Sys P)
    (h : exec (step w) (newProducer w) as = some s) (i j ch : Nat) (a b : Client.Goroutine)
    (hi : s.client.gs[i]? = some a) (hj : s.client.gs[j]? = some b) (ha : ch ∈ a.role.channels)
    (hb : ch ∈ b.role.channels) : i = j ∧ ch ∉ s.client.shared.channels := by
  obtain ⟨bs, hclient⟩ := (projects_client w).exec h
  have hsingle : s.client.shared.pool.Single s.client.roles := Client.run_single hclient
  exact hsingle.unique (Client.roles_getElem? hi) (Client.roles_getElem? hj) ha hb

-- Two calls, each with a channel of its own.
def twoProducers : List (Action (Fin 10)) :=
  running 0 15 ++ [.publishMessage (sendMessage "orders") firstPayload,
    .publishMessage (sendMessage "orders") secondPayload, .begin 0 [], .begin 1 []] ++ running 3 3 ++ running 4 3

theorem channel_exclusive_twoProducers : ∃ s, exec (step twoChannels) (newProducer twoChannels) twoProducers = some s ∧
    s.client.gs[3]? = some (.producer (.holding 0)) ∧ s.client.gs[4]? = some (.producer (.holding 1)) ∧
    (∀ i, s.client.gs[i]? = some (.producer (.holding 0)) → i = 3) ∧ 1 ∉ s.client.shared.channels := by
  refine ⟨_, rfl, rfl, rfl, ?_, ?_⟩
  · intro i hi
    exact (channel_exclusive twoChannels twoProducers _ rfl i 3 0 _ (.producer (.holding 0)) hi rfl
      (List.mem_singleton.mpr rfl) (List.mem_singleton.mpr rfl)).1
  · exact (channel_exclusive twoChannels twoProducers _ rfl 4 4 1 (.producer (.holding 1)) (.producer (.holding 1)) rfl rfl
      (List.mem_singleton.mpr rfl) (List.mem_singleton.mpr rfl)).2

end Publish

end Ghost.Rabbitmq
