import Ghost.Rabbitmq.CloseFinal
import Ghost.Rabbitmq.Pool

/-!
# Rebuilding the pool while producers return channels (rabbitmq/client.go, rabbitmq/pool.go)

`connect` drains the pool and then fills it with one blocking send per channel.
`returnCh` does not ask which connection a channel belongs to. When only the
consumer connection was lost, the old publisher connection stays open, and a
producer that returns one of its channels between the drain and the end of the
fill takes a place that `fill` counts on.
-/

namespace Ghost.Rabbitmq.Client
open Go Threads Transition

variable {c : Config}

/-! ### The client plays the pool -/

def Shared.pool (s : Shared) : Pool where
  channels := s.channels
  nextChan := s.nextChan
  chanConn := s.chanConn
  fills := s.fills
  nextConn := s.nextConn

def Goroutine.role : Goroutine → Role
  | .connect _ (.dialCons pub) | .connect _ (.install pub _) | .connect _ (.drain pub _) => .dialled pub
  | .connect _ (.fill pub _ i) => .fills pub i
  | .connect _ (.confirm pub _ i ch) | .connect _ (.send pub _ i ch) => .sends pub i ch
  | .producer (.holding ch) | .producer (.returnOpen ch) => .holds ch
  | .producer (.returnPool ch) | .producer (.returnSend ch) => .returns ch
  | _ => .idle

def Sys.roles (s : Sys) : List Role := s.gs.map Goroutine.role

section Simulation

variable {s : Shared} {g : Goroutine} {choice : Choice} {r : Result}

/-- The step is a move of the pool, and the goroutines it starts are idle there. -/
def Plays (c : Config) (s : Shared) (g : Goroutine) (r : Result) : Prop :=
  Pool.Move (poolSize c) s.pool g.role r.shared.pool r.next.role ∧ ∀ x ∈ r.spawned, x.role = .idle

theorem plays_alone (hspawned : r.spawned = [])
    (h : Pool.Move (poolSize c) s.pool g.role r.shared.pool r.next.role) : Plays c s g r :=
  ⟨h, by simp [hspawned]⟩

theorem drainRound_plays {again next : Goroutine} (ha : again.role = g.role)
    (h : s.channels = [] → Pool.Move (poolSize c) s.pool g.role s.pool next.role) :
    Plays c s g (drainRound s again next) := by
  unfold drainRound
  split
  · rename_i ch rest hbuf
    apply plays_alone rfl
    show Pool.Move _ _ _ _ again.role
    rw [ha]
    exact .drain s.pool _ ch rest hbuf
  · rename_i hbuf
    apply plays_alone rfl
    show Pool.Move _ _ _ _ (if s.channelsClosed = true then again else next).role
    split
    · rw [ha]
      exact .keep ..
    · exact h hbuf

theorem connectStep_plays {loop : Option Int} {pc : ConnectPc} (h : ConnectStep c s loop pc r) :
    Plays c s (.connect loop pc) r := by
  cases h with
  | dialPub => exact plays_alone rfl (.dial s.pool)
  | dialCons pub => exact plays_alone rfl (.dialOther s.pool pub)
  | drain pub => exact drainRound_plays rfl (.drained s.pool pub)
  | openConfirm pub cons i hlt | openSend pub cons i hlt =>
    exact plays_alone rfl (.openCh s.pool pub i hlt)
  | filled pub cons i hle => exact plays_alone rfl (.fill s.pool pub i hle)
  | send pub cons i ch hclosed hroom => exact plays_alone rfl (.send s.pool pub i ch hroom)
  | dialConsFailed | openFailed | confirmFailed | sendClosed => exact plays_alone rfl (.leave ..)
  | storeConnecting | dialPubFailed | install | confirm | storeConnected | abort =>
    exact plays_alone rfl (.keep ..)
  | watchPub => exact ⟨.keep .., by simp [Goroutine.role]⟩
  | watchCons => cases loop <;> exact ⟨.keep .., by simp [Goroutine.role]⟩
  | aborted => cases loop <;> exact plays_alone rfl (.keep ..)

theorem closeStep_plays {pc : ClosePc} (h : CloseStep s pc r) : Plays c s (.close pc) r := by
  cases h with
  | drain ch rest hbuf => exact plays_alone rfl (.drain s.pool _ ch rest hbuf)
  | closePub => cases s.publisherConn <;> exact plays_alone rfl (.keep ..)
  | closeCons => cases s.consumerConn <;> exact plays_alone rfl (.keep ..)
  | _ => exact plays_alone rfl (.keep ..)

theorem producerStep_plays {pc : ProducerPc} (h : ProducerStep c s pc r) : Plays c s (.producer pc) r := by
  cases h with
  | get ch rest hbuf => exact plays_alone rfl (.get s.pool ch rest hbuf)
  | getClosed ch rest hbuf => exact plays_alone rfl (.drain s.pool _ ch rest hbuf)
  | returnOpen ch => exact plays_alone rfl (.check s.pool ch)
  | put ch hclosed hroom => exact plays_alone rfl (.put s.pool ch hroom)
  | discard | returnClosed | sendClosed | full => exact plays_alone rfl (.leave ..)
  | _ => exact plays_alone rfl (.keep ..)

theorem loopStep_plays (h : LoopStep c s g r) : Plays c s g r := by
  cases h with
  | drain => exact drainRound_plays rfl (fun _ => .keep ..)
  | connClosed | swap => exact ⟨.keep .., by simp [Goroutine.role]⟩
  | _ => exact plays_alone rfl (.keep ..)

theorem stepGoroutine_plays (h : stepGoroutine c s g choice = some r) : Plays c s g r := by
  cases stepGoroutine_cases h with
  | connect hstep => exact connectStep_plays hstep
  | producer hstep => exact producerStep_plays hstep
  | close hstep => exact closeStep_plays hstep
  | loop hstep => exact loopStep_plays hstep

end Simulation

/- A step of the client is a move of the pool, or leaves the pool and the roles
alone but for a new idle goroutine. -/
theorem step_plays {s t : Sys} {a : Action} (h : step c s a = some t) :
    (∃ i choice g r, a = .run i choice ∧ s.gs[i]? = some g ∧ Plays c s.shared g r ∧
      t = ⟨r.shared, advance s.gs i r.next r.spawned⟩) ∨
    (t.shared.pool = s.shared.pool ∧ ∃ new, (∀ r ∈ new, r = Role.idle) ∧ t.roles = s.roles ++ new) := by
  cases step_sysStep h with
  | run i choice g r hg hr =>
    exact .inl ⟨i, choice, g, r, rfl, hg, stepGoroutine_plays hr, rfl⟩
  | connLost conn hopen | channelError ch hopen =>
    exact .inr ⟨rfl, [], by simp, by simp [Sys.roles]⟩
  | publish hready | close hready hnew =>
    exact .inr ⟨rfl, [.idle], by simp, by simp [Sys.roles, Goroutine.role]⟩

theorem role_dials_le (g : Goroutine) : g.role.dials ≤ g.dials := by
  cases g with
  | connect loop pc => cases pc <;> simp [Goroutine.role, Role.dials, Goroutine.dials]
  | producer pc => cases pc <;> simp [Goroutine.role, Role.dials]
  | _ => simp [Goroutine.role, Role.dials]

theorem OneDialler.roles {s : Sys} (h : OneDialler s) : total Role.dials s.roles ≤ 1 := by
  have hle := total_map_le s.gs role_dials_le
  have hone := h.one
  simp only [Sys.dials] at hone
  simp only [Sys.roles]
  omega

theorem roles_getElem? {s : Sys} {i : Nat} {g : Goroutine} (h : s.gs[i]? = some g) :
    s.roles[i]? = some g.role := by
  simp only [Sys.roles, List.getElem?_map, h, Option.map_some]

theorem spawned_idle {spawned : List Goroutine} (h : ∀ x ∈ spawned, x.role = .idle) :
    ∀ r ∈ spawned.map Goroutine.role, r = .idle := by
  intro r hr
  obtain ⟨x, hx, rfl⟩ := List.mem_map.mp hr
  exact h x hx

theorem step_known (s : Sys) (a : Action) (t : Sys) (hs : s.shared.pool.Known s.roles)
    (h : step c s a = some t) : t.shared.pool.Known t.roles := by
  rcases step_plays h with ⟨i, choice, g, r, -, hg, ⟨hmove, hsp⟩, rfl⟩ | ⟨hpool, new, hnew, hroles⟩
  · simp only [Sys.roles, map_advance]
    exact hs.move (roles_getElem? hg) hmove (spawned_idle hsp)
  · rw [hpool, hroles]
    exact hs.append hnew

theorem run_known {as : List Action} {s : Sys} (h : exec (step c) newClient as = some s) :
    s.shared.pool.Known s.roles := by
  refine exec_invariant step_known ?_ h
  refine ⟨?_, ?_, ?_, ?_⟩ <;> simp [newClient, newShared, Shared.pool, Sys.roles, Goroutine.role,
    Pool.made_idle]

/-! ### No foreign channel during a rebuild -/

-- the connection `fill` is filling the pool from
def Goroutine.filling : Goroutine → Option Nat
  | .connect _ (.fill pub _ _) | .connect _ (.confirm pub _ _ _) | .connect _ (.send pub _ _ _) => some pub
  | _ => none

-- the channel `returnCh` is about to send
def Goroutine.returning : Goroutine → Option Nat
  | .producer (.returnSend ch) => some ch
  | _ => none

/-- While `fill` runs, `returnCh` puts no channel of another connection into the buffer. -/
def NoForeignReturn (c : Config) (s : Sys) : Action → Prop
  | .run i _ =>
    ∀ ch ∈ (s.gs[i]?).bind Goroutine.returning,
      s.shared.channelsClosed = false → s.shared.channels.length < poolSize c →
        ∀ g ∈ s.gs, g.filling = none ∨ g.filling = some (s.shared.chanConn ch)
  | _ => True

instance (c : Config) (s : Sys) : (a : Action) → Decidable (NoForeignReturn c s a)
  | .run i _ =>
    inferInstanceAs (Decidable (∀ ch ∈ (s.gs[i]?).bind Goroutine.returning,
      s.shared.channelsClosed = false → s.shared.channels.length < poolSize c →
        ∀ g ∈ s.gs, g.filling = none ∨ g.filling = some (s.shared.chanConn ch)))
  | .connLost _ | .channelError _ | .publish | .close => .isTrue trivial

theorem role_rebuilds (g : Goroutine) : g.role.rebuilds = g.filling := by
  cases g with
  | connect loop pc => cases pc <;> rfl
  | producer pc => cases pc <;> rfl
  | _ => rfl

theorem NoForeignReturn.welcome {s : Sys} {i : Nat} {choice : Choice} {g : Goroutine} {r : Result}
    (hok : NoForeignReturn c s (.run i choice)) (hg : s.gs[i]? = some g)
    (hr : stepGoroutine c s.shared g choice = some r) {ch : Nat} (hrole : g.role = .returns ch)
    (hput : r.shared.channels = s.shared.channels ++ [ch]) : s.shared.pool.Welcome s.roles ch := by
  have hgrown : r.shared.channels ≠ s.shared.channels := by
    rw [hput]
    simp
  have hsend : g = .producer (.returnSend ch) ∧ s.shared.channelsClosed = false ∧
      s.shared.channels.length < poolSize c := by
    cases stepGoroutine_cases hr with
    | producer hstep =>
      cases hstep with
      | put x hclosed hroom =>
        cases hrole
        exact ⟨rfl, hclosed, hroom⟩
      | returnPool | returnClosed | sendClosed | full => exact absurd rfl hgrown
      | _ => cases hrole
    | connect hstep => cases hstep <;> cases hrole
    | close hstep => cases hstep <;> cases hrole
    | loop hstep => cases hstep <;> cases hrole
  obtain ⟨rfl, hopen, hroom⟩ := hsend
  have hall := hok ch (by rw [hg]; rfl) hopen hroom
  intro role hmem pub hpub
  obtain ⟨x, hx, rfl⟩ := List.mem_map.mp hmem
  rw [role_rebuilds] at hpub
  rcases hall x hx with hnone | hsome
  · rw [hnone] at hpub
    cases hpub
  · rw [hsome] at hpub
    exact Option.some.inj hpub

structure Rebuilding (c : Config) (s : Sys) : Prop where
  one : OneDialler s
  known : s.shared.pool.Known s.roles
  clean : s.shared.pool.Clean (poolSize c) s.roles

theorem step_rebuilding (s : Sys) (a : Action) (t : Sys) (hs : Rebuilding c s)
    (hok : NoForeignReturn c s a) (h : step c s a = some t) : Rebuilding c t := by
  refine ⟨step_oneDialler s a t hs.one h, step_known s a t hs.known h, ?_⟩
  cases a with
  | run i choice =>
    obtain ⟨g, r, hg, hr, rfl⟩ := step_run h
    obtain ⟨hmove, hsp⟩ := stepGoroutine_plays hr
    simp only [Sys.roles, map_advance]
    apply Pool.Clean.move (spawned_idle hsp) hs.known hs.clean hs.one.roles (roles_getElem? hg) hmove
    intro ch hrole hput
    exact hok.welcome hg hr hrole hput
  | _ =>
    rcases step_plays h with ⟨i, choice, g, r, ha, -⟩ | ⟨hpool, new, hnew, hroles⟩
    · cases ha
    · rw [hpool, hroles]
      exact hs.clean.append hnew

/-- In every run in which no channel of another connection is returned to the
pool while `fill` runs, no send of `fill` finds the buffer full, and whenever
`fill` returned nil every channel in the pool was one of the connection it was
given. -/
theorem rebuild_clean (c : Config) (as : List Action) (s : Sys)
    (h : exec (step c) newClient as = some s) (hok : Meets (step c) (NoForeignReturn c) newClient as) :
    (∀ loop pub cons i ch, .connect loop (.send pub cons i ch) ∈ s.gs →
      s.shared.channels.length < poolSize c) ∧
    (∀ pub buffer, (pub, buffer) ∈ s.shared.fills → ∀ ch ∈ buffer, s.shared.chanConn ch = pub) := by
  have hnew : Rebuilding c newClient := by
    refine ⟨newClient_oneDialler, run_known (c := c) (exec_nil newClient), ?_, ?_⟩
    · simp [newClient, Sys.roles, Goroutine.role, Pool.CleanFor]
    · simp [newClient, newShared, Shared.pool]
  have hs := exec_invariant_meets step_rebuilding hnew hok h
  refine ⟨?_, fun pub buffer hf => hs.clean.fills (pub, buffer) hf⟩
  intro loop pub cons i ch hmem
  exact hs.clean.room (List.mem_map_of_mem (f := Goroutine.role) hmem)

/- The consumer connection is lost; its watcher drains the pool and starts a loop,
which reaches `connect`. -/
def consumerLost (drained : Nat) : List Action :=
  .connLost 1 :: .run 2 .go :: List.replicate (drained + 3) (.run 4 .go) ++ [.run 5 .go, .run 5 .go]

def returnBeforeLoss : List Action :=
  connectSteps 0 ++ .publish :: List.replicate 7 (.run 3 .go) ++ consumerLost 1 ++
    List.replicate 8 (.run 5 .go)

theorem rebuild_clean_after_return :
    ∃ s, exec (step small) newClient returnBeforeLoss = some s ∧
      Meets (step small) (NoForeignReturn small) newClient returnBeforeLoss ∧
      s.shared.fills = [(0, [0]), (2, [1])] ∧
      ∀ pub buffer, (pub, buffer) ∈ s.shared.fills → ∀ ch ∈ buffer, s.shared.chanConn ch = pub := by
  have hok : Meets (step small) (NoForeignReturn small) newClient returnBeforeLoss := meets_of_checks rfl
  exact ⟨_, rfl, hok, rfl, (rebuild_clean small _ _ rfl hok).2⟩

/- A producer holds the channel while the consumer connection is lost, and returns
it when `connect` has drained the pool. -/
def returnDuringFill : List Action :=
  connectSteps 0 ++ .publish :: List.replicate 3 (.run 3 .go) ++ consumerLost 0 ++
    List.replicate 5 (.run 5 .go) ++ List.replicate 4 (.run 3 .go) ++ [.run 5 .go]

theorem returnDuringFill_blocks :
    ∃ s, exec (step small) newClient returnDuringFill = some s ∧
      s.gs[5]? = some (.connect (some small.reconnectInitialInterval) (.send 2 3 0 1)) ∧
      s.shared.channels = [0] ∧ s.shared.chanConn 0 = 0 ∧
      s.shared.channels.length = poolSize small ∧ step small s (.run 5 .go) = none :=
  ⟨_, rfl, rfl, rfl, rfl, rfl, rfl⟩

end Ghost.Rabbitmq.Client
