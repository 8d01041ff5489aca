import Ghost.Rabbitmq.Rebuild

/-!
# Capacity of the channel pool (rabbitmq/pool.go with rabbitmq/producer.go)

`fill` puts `ChannelPoolSize` channels into the pool, `get` checks one out and
`returnCh` puts it back. A channel the broker has closed is dropped by whichever
of the two sees it first, and nothing opens another one in its place before the
next reconnect.
-/

namespace Ghost.Rabbitmq.Client
open Go Threads Transition

variable {c : Config} {i : Nat}

def Sys.checkedOut (s : Sys) : List Nat := s.roles.flatMap Role.held

def Sys.openChannels (s : Sys) : Nat :=
  s.shared.channels.countP s.shared.chanOpen + s.checkedOut.countP s.shared.chanOpen

/-- While the client is connected over an open publisher connection, the open
channels in the pool and those checked out are `ChannelPoolSize` together. -/
def CapacityKept (c : Config) (s : Sys) : Prop :=
  s.shared.state = .connected →
    (∀ pub, s.shared.publisherConn = some pub → s.shared.connOpen pub = true) →
      s.openChannels = poolSize c

/- The rest of the `connect` that goroutine `i` runs, the producers, and the broker
closing a single channel. -/
def poolStep (c : Config) (i : Nat) (s : Sys) : Action → Option Sys
  | .run j choice =>
    match s.gs[j]? with
    | some (.producer _) => step c s (.run j choice)
    | some (.connect _ _) => if j = i then step c s (.run j choice) else none
    | _ => none
  | .publish => step c s .publish
  | .channelError ch => step c s (.channelError ch)
  | _ => none

/-- The pool is empty and not closed, and a producer that still has a channel has
a closed one and is not past the check of `returnCh`. -/
structure Drained (s : Sys) : Prop where
  serving : s.shared.poolClosed = false ∧ s.shared.channelsClosed = false
  empty : s.shared.channels = []
  out : ∀ g ∈ s.gs, ∀ ch, (g.role = .holds ch → s.shared.chanOpen ch = false) ∧ g.role ≠ .returns ch

-- The broker closes no channel that is in the pool, checked out or about to be sent by `fill`.
def NoChannelLost (s : Sys) : Action → Prop
  | .channelError ch => ch ∉ s.shared.channels ∧ ch ∉ s.roles.flatMap Role.channels
  | _ => True

instance (s : Sys) : (a : Action) → Decidable (NoChannelLost s a)
  | .channelError ch =>
    inferInstanceAs (Decidable (ch ∉ s.shared.channels ∧ ch ∉ s.roles.flatMap Role.channels))
  | .run _ _ | .connLost _ | .publish | .close => .isTrue trivial

theorem poolStep_step {s t : Sys} {a : Action} (h : poolStep c i s a = some t) : step c s a = some t := by
  cases a with
  | run j choice =>
    simp only [poolStep] at h
    split at h
    · exact h
    · split at h
      · exact h
      · cases h
    · cases h
  | publish | channelError => exact h
  | connLost | close => cases h

/-! ### A step of a producer -/

/- Every channel in the buffer is open, and so is one that a producer is about to
put there. -/
structure Sound (s : Sys) : Prop where
  serving : s.shared.poolClosed = false ∧ s.shared.channelsClosed = false
  buffered : ∀ ch ∈ s.shared.channels, s.shared.chanOpen ch = true
  returning : ∀ ch, .returns ch ∈ s.roles → s.shared.chanOpen ch = true

structure ProducerMove (s : Shared) (g : Goroutine) (r : Result) : Prop where
  shared : r.shared = { s with channels := r.shared.channels }
  spawned : r.spawned = []
  count : r.shared.channels.countP s.chanOpen + r.next.role.held.countP s.chanOpen =
    s.channels.countP s.chanOpen + g.role.held.countP s.chanOpen
  buffered : ∀ ch ∈ r.shared.channels, s.chanOpen ch = true
  returning : ∀ ch, r.next.role = .returns ch → s.chanOpen ch = true

section Producer

variable {s : Shared} {g : Goroutine} {r : Result} (hbuf : ∀ ch ∈ s.channels, s.chanOpen ch = true)
include hbuf

theorem ProducerMove.keep (hs : r.shared = s) (hspawned : r.spawned = [])
    (hheld : r.next.role.held.countP s.chanOpen = g.role.held.countP s.chanOpen)
    (hret : ∀ ch, r.next.role = .returns ch → s.chanOpen ch = true) : ProducerMove s g r := by
  refine ⟨by rw [hs], hspawned, by rw [hs, hheld], ?_, hret⟩
  rw [hs]
  exact hbuf

-- The goroutine has no open channel before or after.
theorem ProducerMove.idle (hs : r.shared = s) (hspawned : r.spawned = [])
    (hg : ∀ ch ∈ g.role.held, s.chanOpen ch = false) (hr : r.next.role = .idle) :
    ProducerMove s g r := by
  apply ProducerMove.keep hbuf hs hspawned
  · rw [hr]
    exact (List.countP_eq_zero.mpr (fun ch hch => by simp [hg ch hch])).symm
  · intro ch hch
    rw [hr] at hch
    cases hch

theorem producerStep_move {pc : ProducerPc}
    (hserving : s.poolClosed = false ∧ s.channelsClosed = false)
    (hret : ∀ ch, (Goroutine.producer pc).role = .returns ch →
      s.chanOpen ch = true ∧ s.channels.length < poolSize c)
    (h : ProducerStep c s pc r) : ProducerMove s (.producer pc) r := by
  cases h with
  | connected | mayWait | notConnected | waited | waitFailed | poolClosed | poolOpen | getNone
  | getCanceled => exact ProducerMove.idle hbuf rfl rfl (by simp [Goroutine.role, Role.held]) rfl
  | get ch rest hcons hopen =>
    refine ⟨rfl, rfl, ?_, ?_, by simp [Goroutine.role]⟩
    · simp only [hcons, List.countP_cons, Goroutine.role, Role.held, List.countP_nil]
      omega
    · intro x hx
      exact hbuf x (hcons ▸ List.mem_cons_of_mem ch hx)
  | getClosed ch rest hcons hclosed =>
    -- the buffer holds no closed channel
    rw [hbuf ch (hcons ▸ List.mem_cons_self ..)] at hclosed
    cases hclosed
  | publish => exact ProducerMove.keep hbuf rfl rfl rfl (by simp [Goroutine.role])
  | returnOpen ch hopen =>
    refine ProducerMove.keep hbuf rfl rfl rfl ?_
    intro x hx
    cases hx
    exact hopen
  | discard ch hclosed =>
    exact ProducerMove.idle hbuf rfl rfl (by simpa [Goroutine.role, Role.held] using hclosed) rfl
  | returnPool => exact ProducerMove.keep hbuf rfl rfl rfl (fun ch hch => (hret ch hch).1)
  | returnClosed ch hclosed =>
    rw [hserving.1] at hclosed
    cases hclosed
  | sendClosed ch hclosed =>
    rw [hserving.2] at hclosed
    cases hclosed
  | put ch =>
    obtain ⟨hopen, -⟩ := hret ch rfl
    refine ⟨rfl, rfl, ?_, ?_, by simp [Goroutine.role]⟩
    · simp [Goroutine.role, Role.held, hopen]
    · intro x hx
      rcases List.mem_append.mp hx with hx | hx
      · exact hbuf x hx
      · rw [List.mem_singleton.mp hx]
        exact hopen
  | full ch hclosed hfull =>
    have hroom := (hret ch rfl).2
    omega

end Producer

/-! ### From the drained pool on -/

-- How many open channels there are when `connect` has come to `g`.
def Phase (c : Config) (s : Sys) : Goroutine → Prop
  | .connect _ (.fill _ _ k) => s.shared.state ≠ .connected ∧ k ≤ poolSize c ∧ s.openChannels = k
  | .connect _ (.confirm _ _ k ch) | .connect _ (.send _ _ k ch) =>
    s.shared.state ≠ .connected ∧ k < poolSize c ∧ s.openChannels = k ∧ s.shared.chanOpen ch = true
  | .connect _ .storeConnected | .connect _ .watchPub | .connect _ .watchCons | .done | .restore =>
    s.openChannels = poolSize c
  | _ => False

def GaveUp : Goroutine → Prop
  | .connect _ (.abort _) | .done | .waiting _ => True
  | _ => False

theorem Phase.le {s : Sys} {g : Goroutine} (h : Phase c s g) : s.openChannels ≤ poolSize c := by
  unfold Phase at h
  split at h
  all_goals
    first
      | exact h.elim
      | omega

theorem Phase.congr {s t : Sys} {g : Goroutine} (h : Phase c s g)
    (hstate : t.shared.state = s.shared.state) (hcount : t.openChannels = s.openChannels)
    (hopen : ∀ ch ∈ g.role.channels, t.shared.chanOpen ch = s.shared.chanOpen ch) : Phase c t g := by
  unfold Phase at h ⊢
  split at h
  · rw [hstate, hcount]
    exact h
  · rw [hstate, hcount, hopen _ (by simp [Goroutine.role, Role.channels])]
    exact h
  · rw [hstate, hcount, hopen _ (by simp [Goroutine.role, Role.channels])]
    exact h
  all_goals
    first
      | exact h.elim
      | exact hcount.trans h

structure Filling (c : Config) (i : Nat) (s : Sys) : Prop where
  known : s.shared.pool.Known s.roles
  phase : ∃ g, s.gs[i]? = some g ∧
    ((Sound s ∧ Phase c s g) ∨ (s.shared.state ≠ .connected ∧ GaveUp g))

section Advance

variable {s : Sys} {j : Nat} {g : Goroutine} {r : Result}
  (hspawned : ∀ x ∈ r.spawned, x.role = .idle)
include hspawned

theorem openChannels_advance (hg : s.gs[j]? = some g) :
    Sys.openChannels ⟨r.shared, advance s.gs j r.next r.spawned⟩ + g.role.held.countP r.shared.chanOpen =
      r.shared.channels.countP r.shared.chanOpen + s.checkedOut.countP r.shared.chanOpen +
        r.next.role.held.countP r.shared.chanOpen := by
  have hheld := Pool.held_advance (spawned_idle hspawned) r.next.role (roles_getElem? hg)
    r.shared.chanOpen
  simp only [Sys.openChannels, Sys.checkedOut, Sys.roles, map_advance] at hheld ⊢
  omega

theorem Sound.advance (hs : Sound s)
    (hserving : r.shared.poolClosed = false ∧ r.shared.channelsClosed = false)
    (hbuf : ∀ ch ∈ r.shared.channels, r.shared.chanOpen ch = true)
    (hopen : ∀ ch, .returns ch ∈ s.roles → r.shared.chanOpen ch = s.shared.chanOpen ch)
    (hret : ∀ ch, r.next.role = .returns ch → r.shared.chanOpen ch = true) :
    Sound ⟨r.shared, advance s.gs j r.next r.spawned⟩ := by
  refine ⟨hserving, hbuf, ?_⟩
  intro ch hch
  simp only [Sys.roles, map_advance] at hch
  rcases mem_advance hch with ⟨k, -, hk⟩ | hnext | hsp
  · have hmem : .returns ch ∈ s.roles := List.mem_of_getElem? hk
    exact (hopen ch hmem).trans (hs.returning ch hmem)
  · exact hret ch hnext.symm
  · exact absurd (spawned_idle hspawned _ hsp) (by simp)

end Advance

theorem checkedOut_known {s : Sys} (hk : s.shared.pool.Known s.roles) {ch : Nat}
    (h : ch ∈ s.checkedOut) : ch < s.shared.nextChan := by
  obtain ⟨role, hrole, hch⟩ := List.mem_flatMap.mp h
  apply (hk.roles role hrole).1 ch
  cases role with
  | holds | returns => exact hch
  | _ => cases hch

theorem returns_checkedOut {s : Sys} {ch : Nat} (h : .returns ch ∈ s.roles) : ch ∈ s.checkedOut :=
  List.mem_flatMap.mpr ⟨_, h, by simp [Role.held]⟩

theorem Sound.room {s : Sys} {g : Goroutine} (hs : Sound s) (hphase : Phase c s g) {ch : Nat}
    (h : .returns ch ∈ s.roles) : s.shared.channels.length < poolSize c := by
  have hle := hphase.le
  have hall := List.countP_eq_length.mpr hs.buffered
  have hone : 0 < s.checkedOut.countP s.shared.chanOpen :=
    List.countP_pos_iff.mpr ⟨ch, returns_checkedOut h, hs.returning ch h⟩
  simp only [Sys.openChannels] at hle
  omega

theorem producer_filling {s : Sys} {j : Nat} {pc : ProducerPc} {r : Result}
    (hs : Sound s) {g : Goroutine} (hphase : Phase c s g) (hj : s.gs[j]? = some (.producer pc))
    (h : ProducerStep c s.shared pc r) :
    Sound ⟨r.shared, advance s.gs j r.next r.spawned⟩ ∧
      Phase c ⟨r.shared, advance s.gs j r.next r.spawned⟩ g := by
  have hrole := List.mem_of_getElem? (roles_getElem? hj)
  have hm := producerStep_move (c := c) hs.buffered hs.serving
    (fun ch hch => ⟨hs.returning ch (hch ▸ hrole), hs.room hphase (hch ▸ hrole)⟩) h
  have hopen : r.shared.chanOpen = s.shared.chanOpen := by
    rw [hm.shared]
    rfl
  have hsp : ∀ x ∈ r.spawned, x.role = .idle := by simp [hm.spawned]
  constructor
  · apply hs.advance hsp
    · rw [hm.shared]
      exact hs.serving
    · rw [hopen]
      exact hm.buffered
    · intro ch _
      rw [hopen]
    · rw [hopen]
      exact hm.returning
  · apply hphase.congr
    · show r.shared.state = _
      rw [hm.shared]
    · have hcount := openChannels_advance hsp hj
      have hmove := hm.count
      rw [hopen] at hcount
      show Sys.openChannels _ = s.shared.channels.countP _ + s.checkedOut.countP _
      omega
    · intro ch _
      show r.shared.chanOpen ch = _
      rw [hopen]

section Connect

variable {s : Sys} {loop : Option Int} {pc : ConnectPc} {r : Result}

/- A step of `connect` that leaves the channels made so far open or closed as they
were, and has nothing checked out. -/
theorem connect_count (hk : s.shared.pool.Known s.roles) (hg : s.gs[i]? = some (.connect loop pc))
    (hspawned : ∀ x ∈ r.spawned, x.role = .idle) (hheld : r.next.role.held = [])
    (hopen : ∀ ch, ch < s.shared.nextChan → r.shared.chanOpen ch = s.shared.chanOpen ch) :
    Sys.openChannels ⟨r.shared, advance s.gs i r.next r.spawned⟩ =
      r.shared.channels.countP r.shared.chanOpen + s.checkedOut.countP s.shared.chanOpen := by
  have hcount := openChannels_advance hspawned hg
  have hnone : (Goroutine.connect loop pc).role.held = [] := by cases pc <;> rfl
  have hout : s.checkedOut.countP r.shared.chanOpen = s.checkedOut.countP s.shared.chanOpen := by
    apply List.countP_congr
    intro ch hch
    rw [hopen ch (checkedOut_known hk hch)]
  rw [hnone, hheld, hout, List.countP_nil] at hcount
  exact hcount

theorem connect_sound (hk : s.shared.pool.Known s.roles) (hs : Sound s)
    (hspawned : ∀ x ∈ r.spawned, x.role = .idle) (hheld : r.next.role.held = [])
    (hserving : r.shared.poolClosed = s.shared.poolClosed ∧
      r.shared.channelsClosed = s.shared.channelsClosed)
    (hbuf : ∀ ch ∈ r.shared.channels, r.shared.chanOpen ch = true)
    (hopen : ∀ ch, ch < s.shared.nextChan → r.shared.chanOpen ch = s.shared.chanOpen ch) :
    Sound ⟨r.shared, advance s.gs i r.next r.spawned⟩ := by
  apply hs.advance hspawned
  · rw [hserving.1, hserving.2]
    exact hs.serving
  · exact hbuf
  · intro ch hch
    exact hopen ch (checkedOut_known hk (returns_checkedOut hch))
  · intro ch hch
    rw [hch] at hheld
    cases hheld

-- A step that leaves the pool's part of the shared memory alone.
theorem connect_stays (hk : s.shared.pool.Known s.roles) (hs : Sound s)
    (hg : s.gs[i]? = some (.connect loop pc)) (hspawned : ∀ x ∈ r.spawned, x.role = .idle)
    (hheld : r.next.role.held = [])
    (hserving : r.shared.poolClosed = s.shared.poolClosed ∧
      r.shared.channelsClosed = s.shared.channelsClosed)
    (hchannels : r.shared.channels = s.shared.channels) (hopen : r.shared.chanOpen = s.shared.chanOpen)
    (hphase : ∀ t : Sys, t.shared = r.shared → t.openChannels = s.openChannels → Phase c t r.next) :
    Sound ⟨r.shared, advance s.gs i r.next r.spawned⟩ ∧
      Phase c ⟨r.shared, advance s.gs i r.next r.spawned⟩ r.next := by
  constructor
  · apply connect_sound hk hs hspawned hheld hserving
    · rw [hchannels, hopen]
      exact hs.buffered
    · intro ch _
      rw [hopen]
  · apply hphase _ rfl
    rw [connect_count hk hg hspawned hheld (fun ch _ => by rw [hopen]), hchannels, hopen]
    rfl

theorem openCh_chanOpen {s : Shared} (pub : Nat) {ch : Nat} (h : ch < s.nextChan) :
    (s.openCh pub).chanOpen ch = s.chanOpen ch := by
  simp [Shared.chanOpen, Shared.openCh, Function.update_of_ne (Nat.ne_of_lt h)]

theorem connect_opens {pub cons k : Nat} {next : Goroutine} (hk : s.shared.pool.Known s.roles)
    (hs : Sound s) (hg : s.gs[i]? = some (.connect loop (.fill pub cons k)))
    (hconn : s.shared.connOpen pub = true) (hheld : next.role.held = [])
    (hphase : ∀ t : Sys, t.shared = s.shared.openCh pub → t.openChannels = s.openChannels →
      t.shared.chanOpen s.shared.nextChan = true → Phase c t next) :
    Sound ⟨s.shared.openCh pub, advance s.gs i next []⟩ ∧
      Phase c ⟨s.shared.openCh pub, advance s.gs i next []⟩ next := by
  have hopen : ∀ ch, ch < s.shared.nextChan → (s.shared.openCh pub).chanOpen ch = s.shared.chanOpen ch :=
    fun ch hch => openCh_chanOpen pub hch
  constructor
  · apply connect_sound (r := ⟨s.shared.openCh pub, next, []⟩) hk hs (by simp) hheld ⟨rfl, rfl⟩ _ hopen
    intro ch hch
    exact (hopen ch (hk.buffer ch hch)).trans (hs.buffered ch hch)
  · apply hphase _ rfl
    · rw [connect_count (r := ⟨s.shared.openCh pub, next, []⟩) hk hg (by simp) hheld hopen]
      show s.shared.channels.countP _ + _ = s.shared.channels.countP _ + _
      rw [List.countP_congr (q := s.shared.chanOpen)]
      intro ch hch
      rw [hopen ch (hk.buffer ch hch)]
    · simp [Shared.chanOpen, Shared.openCh, hconn]

theorem connect_sends {pub cons k ch : Nat} (hk : s.shared.pool.Known s.roles) (hs : Sound s)
    (hphase : Phase c s (.connect loop (.send pub cons k ch)))
    (hg : s.gs[i]? = some (.connect loop (.send pub cons k ch))) :
    Sound ⟨{ s.shared with channels := s.shared.channels ++ [ch] },
        advance s.gs i (.connect loop (.fill pub cons (k + 1))) []⟩ ∧
      Phase c ⟨{ s.shared with channels := s.shared.channels ++ [ch] },
        advance s.gs i (.connect loop (.fill pub cons (k + 1))) []⟩
        (.connect loop (.fill pub cons (k + 1))) := by
  obtain ⟨hstate, hlt, hcount, hch⟩ := hphase
  constructor
  · apply connect_sound (r := ⟨{ s.shared with channels := s.shared.channels ++ [ch] },
      .connect loop (.fill pub cons (k + 1)), []⟩) hk hs (by simp) rfl ⟨rfl, rfl⟩ _ (fun _ _ => rfl)
    intro x hx
    rcases List.mem_append.mp hx with hx | hx
    · exact hs.buffered x hx
    · rw [List.mem_singleton.mp hx]
      exact hch
  · refine ⟨hstate, hlt, ?_⟩
    rw [connect_count (r := ⟨{ s.shared with channels := s.shared.channels ++ [ch] },
      .connect loop (.fill pub cons (k + 1)), []⟩) hk hg (by simp) rfl (fun _ _ => rfl)]
    show (s.shared.channels ++ [ch]).countP s.shared.chanOpen + _ = _
    rw [List.countP_append, List.countP_singleton, if_pos hch]
    simp only [Sys.openChannels] at hcount
    omega

theorem connect_filling (hk : s.shared.pool.Known s.roles) (hs : Sound s)
    (hphase : Phase c s (.connect loop pc)) (hg : s.gs[i]? = some (.connect loop pc))
    (h : ConnectStep c s.shared loop pc r) :
    (Sound ⟨r.shared, advance s.gs i r.next r.spawned⟩ ∧
      Phase c ⟨r.shared, advance s.gs i r.next r.spawned⟩ r.next) ∨
    (r.shared.state ≠ .connected ∧ GaveUp r.next) := by
  cases h with
  | storeConnecting | dialPub | dialPubFailed | dialCons | dialConsFailed | install | drain | aborted
  | abort => exact hphase.elim
  | openConfirm pub cons k hlt hconn | openSend pub cons k hlt hconn =>
    obtain ⟨hstate, -, hcount⟩ := hphase
    left
    apply connect_opens hk hs hg hconn rfl
    intro t ht hsame hch
    exact ⟨by rw [ht]; exact hstate, hlt, hsame.trans hcount, hch⟩
  | filled pub cons k hle =>
    obtain ⟨-, hk', hcount⟩ := hphase
    left
    apply connect_stays hk hs hg (by simp) rfl ⟨rfl, rfl⟩ rfl rfl
    intro t _ hsame
    show t.openChannels = poolSize c
    omega
  | openFailed | confirmFailed => exact .inr ⟨hphase.1, trivial⟩
  | confirm pub cons k ch =>
    obtain ⟨hstate, hlt, hcount, hch⟩ := hphase
    left
    apply connect_stays hk hs hg (by simp) rfl ⟨rfl, rfl⟩ rfl rfl
    intro t ht hsame
    exact ⟨by rw [ht]; exact hstate, hlt, hsame.trans hcount, by rw [ht]; exact hch⟩
  | sendClosed pub cons k ch hclosed =>
    rw [hs.serving.2] at hclosed
    cases hclosed
  | send => exact .inl (connect_sends hk hs hphase hg)
  | storeConnected =>
    left
    exact connect_stays hk hs hg (by simp) rfl ⟨rfl, rfl⟩ rfl rfl fun t _ hsame => hsame.trans hphase
  | watchPub =>
    left
    exact connect_stays hk hs hg (by simp [Goroutine.role]) rfl ⟨rfl, rfl⟩ rfl rfl
      fun t _ hsame => hsame.trans hphase
  | watchCons =>
    left
    cases loop <;>
      exact connect_stays hk hs hg (by simp [Goroutine.role]) rfl ⟨rfl, rfl⟩ rfl rfl
        fun t _ hsame => hsame.trans hphase

end Connect

/-! ### A channel closed by the broker -/

theorem closeCh_chanOpen {s : Shared} {ch x : Nat} (h : x ≠ ch) :
    (s.closeCh ch).chanOpen x = s.chanOpen x := by
  simp [Shared.chanOpen, Shared.closeCh, Function.update_of_ne h]

theorem closeCh_closed (s : Shared) (ch : Nat) : (s.closeCh ch).chanOpen ch = false := by
  simp [Shared.chanOpen, Shared.closeCh]

theorem closeCh_le (s : Shared) (ch : Nat) (l : List Nat) :
    l.countP (s.closeCh ch).chanOpen ≤ l.countP s.chanOpen := by
  apply List.countP_mono_left
  intro x _ hx
  by_cases hch : x = ch
  · subst hch
    rw [closeCh_closed] at hx
    cases hx
  · rw [closeCh_chanOpen hch] at hx
    exact hx

theorem closeCh_lt {s : Shared} {ch : Nat} {l : List Nat} (h : ch ∈ l) (hopen : s.chanOpen ch = true) :
    l.countP (s.closeCh ch).chanOpen < l.countP s.chanOpen := by
  obtain ⟨front, back, rfl⟩ := List.append_of_mem h
  have hfront := closeCh_le s ch front
  have hback := closeCh_le s ch back
  simp only [List.countP_append, List.countP_cons, hopen, closeCh_closed, if_true]
  simp only [Bool.false_eq_true, if_false]
  omega

theorem channelError_filling {s : Sys} {ch : Nat} {g : Goroutine} (hs : Sound s)
    (hphase : Phase c s g) (hg : g ∈ s.gs) (hok : NoChannelLost s (.channelError ch)) :
    Sound { s with shared := s.shared.closeCh ch } ∧ Phase c { s with shared := s.shared.closeCh ch } g := by
  obtain ⟨hbuf, hroles⟩ := hok
  have huse : ∀ role ∈ s.roles, ∀ x ∈ role.channels, x ≠ ch := by
    intro role hrole x hx hch
    exact hroles (List.mem_flatMap.mpr ⟨role, hrole, hch ▸ hx⟩)
  have hout : ∀ x ∈ s.checkedOut, x ≠ ch := by
    intro x hx
    obtain ⟨role, hrole, hx⟩ := List.mem_flatMap.mp hx
    apply huse role hrole
    cases role with
    | holds | returns => exact hx
    | _ => cases hx
  have hchan : ∀ x ∈ s.shared.channels, x ≠ ch := fun x hx h => hbuf (h ▸ hx)
  constructor
  · refine ⟨hs.serving, ?_, ?_⟩
    · intro x hx
      exact (closeCh_chanOpen (hchan x hx)).trans (hs.buffered x hx)
    · intro x hx
      exact (closeCh_chanOpen (hout x (returns_checkedOut hx))).trans (hs.returning x hx)
  · apply hphase.congr
    · rfl
    · show List.countP _ s.shared.channels + List.countP _ s.checkedOut = _
      rw [List.countP_congr (q := s.shared.chanOpen), List.countP_congr (q := s.shared.chanOpen) (l := s.checkedOut)]
      · rfl
      · intro x hx
        rw [closeCh_chanOpen (hout x hx)]
      · intro x hx
        rw [closeCh_chanOpen (hchan x hx)]
    · intro x hx
      exact closeCh_chanOpen (huse _ (List.mem_map_of_mem hg) x hx)

theorem publish_filling {s : Sys} {g : Goroutine} (hs : Sound s) (hphase : Phase c s g) :
    Sound { s with gs := s.gs ++ [.producer (.check false)] } ∧
      Phase c { s with gs := s.gs ++ [.producer (.check false)] } g := by
  constructor
  · refine ⟨hs.serving, hs.buffered, ?_⟩
    intro ch hch
    simp only [Sys.roles, List.map_append, List.map_cons, List.map_nil, Goroutine.role, List.mem_append,
      List.mem_singleton, reduceCtorEq, or_false] at hch
    exact hs.returning ch hch
  · apply hphase.congr
    · rfl
    · simp [Sys.openChannels, Sys.checkedOut, Sys.roles, Goroutine.role, Role.held]
    · intro ch _
      rfl

/-! ### Runs -/

theorem producerStep_keeps_state {s : Shared} {pc : ProducerPc} {r : Result}
    (h : ProducerStep c s pc r) : r.shared.state = s.state := by
  cases h <;> rfl

theorem abort_gaveUp {s : Shared} {loop : Option Int} {conns : List Nat} {r : Result}
    (h : ConnectStep c s loop (.abort conns) r) : r.shared.state = s.state ∧ GaveUp r.next := by
  cases h with
  | aborted => cases loop <;> exact ⟨rfl, trivial⟩
  | abort => exact ⟨rfl, trivial⟩

theorem step_filling (s : Sys) (a : Action) (t : Sys) (hs : Filling c i s) (hok : NoChannelLost s a)
    (h : poolStep c i s a = some t) : Filling c i t := by
  refine ⟨step_known s a t hs.known (poolStep_step h), ?_⟩
  obtain ⟨g, hg, hcase⟩ := hs.phase
  cases a with
  | run j choice =>
    simp only [poolStep] at h
    split at h
    · rename_i pc hj
      have hne : j ≠ i := by
        intro hji
        subst hji
        have hgp : g = .producer pc := Option.some.inj (hg.symm.trans hj)
        subst hgp
        rcases hcase with ⟨-, hf⟩ | ⟨-, hf⟩ <;> exact hf.elim
      obtain ⟨g', r, hg', hr, rfl⟩ := step_run h
      have hgp : g' = .producer pc := Option.some.inj (hg'.symm.trans hj)
      subst hgp
      have hstep := stepProducer_cases hr
      refine ⟨g, getElem?_advance_ne hg hne, ?_⟩
      rcases hcase with ⟨hsound, hphase⟩ | ⟨hstate, hgave⟩
      · exact .inl (producer_filling hsound hphase hj hstep)
      · exact .inr ⟨by rw [producerStep_keeps_state hstep]; exact hstate, hgave⟩
    · rename_i loop pc hj
      split at h
      · rename_i hji
        subst hji
        obtain ⟨g', r, hg', hr, rfl⟩ := step_run h
        have hgc : g' = .connect loop pc := Option.some.inj (hg'.symm.trans hj)
        subst hgc
        have hgg : g = .connect loop pc := Option.some.inj (hg.symm.trans hj)
        subst hgg
        have hstep := stepConnect_cases hr
        refine ⟨r.next, getElem?_advance_self hg, ?_⟩
        rcases hcase with ⟨hsound, hphase⟩ | ⟨hstate, hgave⟩
        · exact connect_filling hs.known hsound hphase hg hstep
        · cases pc with
          | abort conns =>
            obtain ⟨hsame, hnext⟩ := abort_gaveUp hstep
            exact .inr ⟨by rw [hsame]; exact hstate, hnext⟩
          | _ => exact hgave.elim
      · cases h
    · cases h
  | publish =>
    simp only [poolStep, step] at h
    split at h <;> cases h
    refine ⟨g, ?_, ?_⟩
    · rw [List.getElem?_append_left (List.getElem?_eq_some_iff.mp hg).1, hg]
    · rcases hcase with ⟨hsound, hphase⟩ | hgave
      · exact .inl (publish_filling hsound hphase)
      · exact .inr hgave
  | channelError ch =>
    simp only [poolStep, step] at h
    split at h <;> cases h
    refine ⟨g, hg, ?_⟩
    rcases hcase with ⟨hsound, hphase⟩ | hgave
    · exact .inl (channelError_filling hsound hphase (List.mem_of_getElem? hg) hok)
    · exact .inr hgave
  | connLost | close => cases h

theorem Drained.filling {as : List Action} {s : Sys} (h : exec (step c) newClient as = some s)
    {loop : Option Int} {pub cons : Nat} (hg : s.gs[i]? = some (.connect loop (.fill pub cons 0)))
    (hs : Drained s) : Filling c i s := by
  have hone := run_oneDialler h
  have hdials := le_total (f := Goroutine.dials) (List.mem_of_getElem? hg)
  refine ⟨run_known h, _, hg, .inl ⟨⟨hs.serving, ?_, ?_⟩, ?_, Nat.zero_le _, ?_⟩⟩
  · simp [hs.empty]
  · intro ch hch
    obtain ⟨g, hmem, hrole⟩ := List.mem_map.mp hch
    exact absurd hrole (hs.out g hmem ch).2
  · intro hstate
    have hzero := hone.connected hstate
    simp only [Sys.dials, Goroutine.dials] at hzero hdials
    omega
  · simp only [Sys.openChannels, hs.empty, List.countP_nil, Nat.zero_add]
    apply List.countP_eq_zero.mpr
    intro ch hch
    obtain ⟨role, hrole, hch⟩ := List.mem_flatMap.mp hch
    obtain ⟨g, hmem, rfl⟩ := List.mem_map.mp hrole
    have hout := hs.out g hmem
    cases hr : g.role with
    | holds x =>
      rw [hr, Role.held, List.mem_singleton] at hch
      subst hch
      simp [(hout ch).1 hr]
    | returns x => exact absurd hr (hout x).2
    | _ =>
      rw [hr] at hch
      cases hch

theorem Filling.capacity {s : Sys} (h : Filling c i s) (hstate : s.shared.state = .connected) :
    s.openChannels = poolSize c := by
  obtain ⟨g, -, ⟨-, hphase⟩ | ⟨hnot, -⟩⟩ := h.phase
  · unfold Phase at hphase
    split at hphase
    · exact absurd hstate hphase.1
    · exact absurd hstate hphase.1
    · exact absurd hstate hphase.1
    all_goals
      first
        | exact hphase
        | exact hphase.elim
  · exact absurd hstate hnot

-- While nobody dials, a channel in use is in the pool or checked out.
theorem inUse_checkedOut {s : Sys} (hone : OneDialler s) (hstate : s.shared.state = .connected) {ch : Nat}
    (h : ¬ NoChannelLost s (.channelError ch)) : ch ∈ s.shared.channels ∨ ch ∈ s.checkedOut := by
  by_cases hbuf : ch ∈ s.shared.channels
  · exact .inl hbuf
  · right
    have hroles : ch ∈ s.roles.flatMap Role.channels := by
      by_contra hnot
      exact h ⟨hbuf, hnot⟩
    obtain ⟨role, hrole, hch⟩ := List.mem_flatMap.mp hroles
    refine List.mem_flatMap.mpr ⟨role, hrole, ?_⟩
    have hzero := hone.connected hstate
    have hle := total_map_le s.gs role_dials_le
    have hdials := le_total (f := Role.dials) hrole
    simp only [Sys.dials, Sys.roles] at hzero hdials
    cases role with
    | holds | returns => exact hch
    | sends =>
      simp only [Role.dials] at hdials
      omega
    | _ => cases hch

theorem channelError_loses {s t : Sys} {ch : Nat} (hone : OneDialler s)
    (hstate : s.shared.state = .connected) (hlost : ¬ NoChannelLost s (.channelError ch))
    (h : step c s (.channelError ch) = some t) : t.openChannels < s.openChannels := by
  cases step_sysStep h with
  | channelError _ hopen =>
    have hbuf := closeCh_le s.shared ch s.shared.channels
    have hout := closeCh_le s.shared ch s.checkedOut
    show List.countP _ s.shared.channels + List.countP _ s.checkedOut < _
    simp only [Sys.openChannels]
    rcases inUse_checkedOut hone hstate hlost with hmem | hmem
    · have hlt := closeCh_lt hmem hopen
      omega
    · have hlt := closeCh_lt hmem hopen
      omega

/-- From a pool that `connect` has drained while nobody holds an open channel, and
as long as the broker closes no channel in use, the capacity is kept; the first
channel in use that the broker closes in a connected client is missing from it. -/
theorem capacity_kept (c : Config) (as : List Action) (s : Sys)
    (h : exec (step c) newClient as = some s) (i : Nat) (loop : Option Int) (pub cons : Nat)
    (hfill : s.gs[i]? = some (.connect loop (.fill pub cons 0))) (hdrained : Drained s)
    (bs : List Action) (t : Sys) (ht : exec (poolStep c i) s bs = some t)
    (hok : Meets (poolStep c i) NoChannelLost s bs) :
    CapacityKept c t ∧
      (t.shared.state = .connected →
        (∀ pub, t.shared.publisherConn = some pub → t.shared.connOpen pub = true) →
        ∀ ch u, poolStep c i t (.channelError ch) = some u → ¬ NoChannelLost t (.channelError ch) →
          ¬ CapacityKept c u) := by
  have hfilling := exec_invariant_meets step_filling (hdrained.filling h hfill) hok ht
  have hone : OneDialler t := exec_invariant (fun s a t hs hstep => step_oneDialler s a t hs
    (poolStep_step hstep)) (run_oneDialler h) ht
  refine ⟨fun hstate _ => hfilling.capacity hstate, ?_⟩
  intro hstate hpub ch u hu hlost hkept
  have hlt := channelError_loses (c := c) hone hstate hlost hu
  have hbefore := hfilling.capacity hstate
  have hafter : u.openChannels = poolSize c := by
    simp only [poolStep, step] at hu
    split at hu <;> cases hu
    exact hkept hstate hpub
  omega

-- `fill` runs to its end, `connect` returns, and a producer checks the channel out and returns it.
def publishOnce : List Action :=
  List.replicate 6 (.run 0 .go) ++ .publish :: List.replicate 7 (.run 3 .go)

theorem capacity_kept_after_publish :
    ∃ s t, exec (step small) newClient (List.replicate 5 (.run 0 .go)) = some s ∧ Drained s ∧
      exec (poolStep small 0) s publishOnce = some t ∧
      Meets (poolStep small 0) NoChannelLost s publishOnce ∧
      t.shared.state = .connected ∧ t.shared.publisherConn = some 0 ∧ CapacityKept small t := by
  have hstart : ∀ s, exec (step small) newClient (List.replicate 5 (.run 0 .go)) = some s →
      Drained s ∧ Meets (poolStep small 0) NoChannelLost s publishOnce := by
    intro s hs
    cases hs
    refine ⟨⟨⟨rfl, rfl⟩, rfl, ?_⟩, meets_of_checks rfl⟩
    intro g hg ch
    rw [List.mem_singleton.mp hg]
    exact ⟨nofun, nofun⟩
  obtain ⟨hdrained, hok⟩ := hstart _ rfl
  exact ⟨_, _, rfl, hdrained, rfl, hok, rfl, rfl,
    (capacity_kept small (List.replicate 5 (.run 0 .go)) _ rfl 0 none 0 1 rfl hdrained publishOnce _
      rfl hok).1⟩

/- The broker closes the channel while it is checked out; `returnCh` discards it, and
the next producer waits at an empty pool. -/
def channelLost : List Action :=
  .publish :: List.replicate 3 (.run 3 .go) ++ [.channelError 0, .run 3 .go, .run 3 .go,
    .publish, .run 4 .go, .run 4 .go]

theorem channelLost_leaks :
    ∃ s t, exec (step small) newClient (connectSteps 0) = some s ∧ s.openChannels = poolSize small ∧
      exec (poolStep small 0) s channelLost = some t ∧
      t.shared.state = .connected ∧ t.shared.publisherConn = some 0 ∧ t.shared.connOpen 0 = true ∧
      t.openChannels = 0 ∧ poolSize small = 1 ∧
      t.gs[4]? = some (.producer .receive) ∧ step small t (.run 4 .go) = none :=
  ⟨_, _, rfl, rfl, rfl, rfl, rfl, rfl, rfl, rfl, rfl, rfl⟩

end Ghost.Rabbitmq.Client
