import Ghost.Rabbitmq.Watchers

/-!
# No connection loss goes unnoticed (rabbitmq/client.go)

`triggerReconnect` drops a notification when it sees `StateConnecting`, and the
watchers of a pair are started only after `StateConnected` has been stored. No loss
is missed all the same. While an installed connection has no handler, either the
`connect` that installed it has still to start one, or somebody dials who will
replace it before `StateConnected` is stored again.
-/

namespace Ghost.Rabbitmq.Client
open Go Threads Transition

variable {c : Config}

section Effect

variable {s : Shared} {g : Goroutine} {choice : Choice} {r : Result}

/-- What a step does to the parts in noticing a loss, before `Close` is called. -/
inductive NoticeEffect (s : Shared) (g : Goroutine) (r : Result) : Prop where
  | keep (hstate : r.shared.state = s.state) (hpart : r.next.part = g.part) (hspawned : r.spawned = [])
  | storeConnecting (hstate : r.shared.state = .connecting) (hg : g.part = .dials)
      (hnext : r.next.part = .dials) (hspawned : r.spawned = [])
  | install (hstate : r.shared.state = s.state) (hg : g.installs = true) (hnext : r.next.part = .fills)
      (hspawned : r.spawned = [])
  | failed (hstate : r.shared.state = s.state) (hg : g.part = .fills) (hnext : r.next.part = .dials)
      (hspawned : r.spawned = [])
  | storeConnected (hstate : r.shared.state = .connected) (hg : g.part = .fills)
      (hnext : r.next.part = .registers false) (hspawned : r.spawned = [])
  | watchPub (hstate : r.shared.state = s.state) (hg : g.part = .registers false)
      (hnext : r.next.part = .registers true) (hspawned : r.spawned = [.watcher s.publisherConn])
  | watchCons (hstate : r.shared.state = s.state) (hg : g.part = .registers true)
      (hnext : r.next.part = .idle) (hspawned : r.spawned = [.watcher s.consumerConn])
  | aborted (hstate : r.shared.state = s.state) (hready : r.shared.ready = s.ready)
      (hg : g = .connect none (.abort [])) (hnext : r.next = .done) (hspawned : r.spawned = [])
  | fires (conn : Nat) (hstate : r.shared.state = s.state) (hg : g = .watcher (some conn))
      (hnext : r.next.part = .idle) (hspawned : r.spawned = [.draining])
  | dropped (hfrom : s.state = .connecting) (hstate : r.shared.state = s.state) (hg : g.part = .handles)
      (hnext : r.next.part = .idle) (hspawned : r.spawned = [])
  | swap (backoff : Int) (hfrom : s.state = .connected ∨ s.state = .disconnected)
      (hstate : r.shared.state = .connecting) (hg : g.part = .handles) (hnext : r.next.part = .idle)
      (hspawned : r.spawned = [.waiting backoff])

theorem drainRound_notice {again next : Goroutine} {p : Part} (hg : g.part = p) (ha : again.part = p)
    (hn : next.part = p) : NoticeEffect s g (drainRound s again next) := by
  have hstate : (drainRound s again next).shared.state = s.state := by
    unfold drainRound
    split <;> rfl
  exact .keep hstate ((drainRound_part ha hn).trans hg.symm) drainRound_spawned

theorem connectStep_notice {loop : Option Int} {pc : ConnectPc} (hopen : s.channelsClosed = false)
    (h : ConnectStep c s loop pc r) : NoticeEffect s (.connect loop pc) r := by
  cases h with
  | storeConnecting => exact .storeConnecting rfl rfl rfl rfl
  | install => exact .install rfl rfl rfl rfl
  | drain => exact drainRound_notice rfl rfl rfl
  | openFailed | confirmFailed => exact .failed rfl rfl rfl rfl
  | sendClosed pub cons i ch hclosed => exact absurd (hopen.symm.trans hclosed) (by decide)
  | storeConnected => exact .storeConnected rfl rfl rfl rfl
  | watchPub => exact .watchPub rfl rfl rfl rfl
  | watchCons => cases loop <;> exact .watchCons rfl rfl rfl rfl
  | aborted =>
    cases loop with
    | none => exact .aborted rfl rfl rfl rfl rfl
    | some backoff => exact .keep rfl rfl rfl
  | _ => exact .keep rfl rfl rfl

theorem loopStep_notice (hchan : s.closeChan = false) (hclosing : s.state ≠ .closing) (hg : g ≠ .stop)
    (h : LoopStep c s g r) : NoticeEffect s g r := by
  cases h with
  | quit backoff hquit => exact absurd (hchan.symm.trans hquit) (by decide)
  | giveUp backoff hstate => exact absurd hstate hclosing
  | stop => exact absurd rfl hg
  | connClosed conn => exact .fires conn rfl rfl rfl rfl
  | dismissed conn hquit => exact absurd (hchan.symm.trans hquit) (by decide)
  | drain => exact drainRound_notice rfl rfl rfl
  | noTrigger hstate =>
    rcases hstate with hstate | hstate
    · exact .dropped hstate rfl rfl rfl rfl
    · exact absurd hstate hclosing
  | swap wasConnected hstate =>
    refine .swap c.reconnectInitialInterval ?_ rfl rfl rfl rfl
    cases wasConnected with
    | true => exact .inl hstate
    | false => exact .inr hstate
  | _ => exact .keep rfl rfl rfl

theorem stepGoroutine_notice (hflags : Flags s 0) (hclosing : s.state ≠ .closing) (hstop : g ≠ .stop)
    (hclose : g.closes = 0) (h : stepGoroutine c s g choice = some r) : NoticeEffect s g r := by
  cases stepGoroutine_cases h with
  | connect hstep => exact connectStep_notice hflags.channelsClosed hstep
  | producer hstep => cases hstep <;> exact .keep rfl rfl rfl
  | close hstep => cases hclose
  | loop hstep => exact loopStep_notice hflags.closeChan hclosing hstop hstep

end Effect

/-! ### Who covers a connection -/

def Shared.conn (s : Shared) (cons : Bool) : Option Nat := if cons then s.consumerConn else s.publisherConn

-- `connect` has still to start the watcher of the publisher, or of the consumer connection
def Part.owes : Part → Bool → Bool
  | .fills, _ | .registers false, _ => true
  | .registers true, cons => cons
  | _, _ => false

def Unregistered (s : Sys) (w : Watch) (cons : Bool) : Prop :=
  ∃ i g, w.installer = some i ∧ s.gs[i]? = some g ∧ g.part.owes cons = true

def Handled (s : Sys) (w : Watch) (conn : Nat) : Prop :=
  ∃ j g, s.gs[j]? = some g ∧
    (g.part = .watches (some conn) ∨ (g.part = .handles ∧ w.watched j = some conn))

-- somebody dials, and has not installed a pair yet
def Pending (s : Sys) : Prop := s.shared.state = .connecting ∧ ∀ g ∈ s.gs, g.part ≠ .fills

def Covered (s : Sys) (w : Watch) (cons : Bool) (conn : Nat) : Prop :=
  Unregistered s w cons ∨ Handled s w conn ∨ Pending s

/-- Before `Close` is called. -/
structure Noticed (s : Sys) (w : Watch) : Prop where
  closing : s.shared.state ≠ .closing
  stop : .stop ∉ s.gs
  disconnected : s.shared.state = .disconnected → s.gs = [.connect none .storeConnecting]
  dials : s.shared.state = .connecting →
    (∃ g ∈ s.gs, g.part = .dials ∨ g.part = .fills) ∨ (s.gs = [.done] ∧ s.shared.ready = false)
  installer : ∀ i g, s.gs[i]? = some g → g.part = .fills → w.installer = some i
  covered : ∀ cons conn, s.shared.conn cons = some conn → Covered s w cons conn

/-! ### One step -/

def Sys.after (s : Sys) (i : Nat) (r : Result) : Sys := ⟨r.shared, advance s.gs i r.next r.spawned⟩

section Run

variable {s : Sys} {w : Watch} {i : Nat} {choice : Choice} {g : Goroutine} {r : Result}

theorem fills_dials (h : g.part = .fills) : g.dials = 1 := by
  cases g with
  | connect loop pc => cases pc <;> first | rfl | cases h
  | _ => cases h

theorem installs_dials (h : g.installs = true) : g.dials = 1 ∧ g.part = .dials := by
  cases g with
  | connect loop pc => cases pc <;> first | exact ⟨rfl, rfl⟩ | cases h
  | _ => cases h

theorem OneDialler.not_connected (h : OneDialler s) (hg : s.gs[i]? = some g) (hdials : g.dials = 1) :
    s.shared.state ≠ .connected := by
  intro hstate
  have hle := le_total (f := Goroutine.dials) (List.mem_of_getElem? hg)
  have hzero := h.connected hstate
  simp only [Sys.dials] at hzero
  omega

-- Beside a goroutine that dials, and while the state is `StateConnected`, nobody fills the pool.
theorem OneDialler.others_not_fill (h : OneDialler s) (hg : s.gs[i]? = some g) (hdials : g.dials = 1) :
    ∀ j x, j ≠ i → s.gs[j]? = some x → x.part ≠ .fills := by
  intro j x hne hx hpart
  have htwo := add_le_total (f := Goroutine.dials) hg hx hne.symm
  have hone := h.one
  have hx1 := fills_dials hpart
  simp only [Sys.dials] at hone
  omega

theorem OneDialler.not_fill (h : OneDialler s) (hstate : s.shared.state = .connected) :
    ∀ x ∈ s.gs, x.part ≠ .fills := by
  intro x hx hpart
  obtain ⟨j, hj⟩ := List.mem_iff_getElem?.mp hx
  exact h.not_connected hj (fills_dials hpart) hstate

theorem Spawns.not_fill {t : Shared} {spawned : List Goroutine} (h : Spawns t g spawned) :
    ∀ x ∈ spawned, x.part ≠ .fills := by
  cases h <;> simp [Goroutine.part]

theorem watch_installer (hg : s.gs[i]? = some g) (hinst : g.installs = false) :
    (watch s (.run i choice) w).installer = w.installer := by
  unfold watch
  split
  · rename_i heq
    cases heq
    split
    · rfl
    · rename_i heq
      rw [hg] at heq
      cases heq
      cases hinst
    · rfl
  · rfl

theorem watch_install (hg : s.gs[i]? = some g) (hinst : g.installs = true)
    (hr : stepGoroutine c s.shared g choice = some r) :
    (watch s (.run i choice) w).installer = some i := by
  cases g with
  | connect loop pc =>
    cases pc with
    | install pub cons =>
      cases choice with
      | go => simp [watch, hg]
      | fail | quit => cases hr
    | _ => cases hinst
  | _ => cases hinst

theorem Unregistered.after {cons : Bool} (h : Unregistered s w cons) (hg : s.gs[i]? = some g)
    (hinst : g.installs = false) (hnext : g.part.owes cons = true → r.next.part.owes cons = true) :
    Unregistered (s.after i r) (watch s (.run i choice) w) cons := by
  obtain ⟨k, x, hk, hx, howes⟩ := h
  have hk' : (watch s (.run i choice) w).installer = some k := (watch_installer hg hinst).trans hk
  by_cases hik : i = k
  · subst hik
    rw [hg] at hx
    cases hx
    exact ⟨i, r.next, hk', getElem?_advance_self hg, hnext howes⟩
  · exact ⟨k, x, hk', getElem?_advance_ne hx hik, howes⟩

theorem Handled.after {conn : Nat} (h : Handled s w conn) (hg : s.gs[i]? = some g)
    (hself : g.part = .watches (some conn) ∨ (g.part = .handles ∧ w.watched i = some conn) →
      Handled (s.after i r) (watch s (.run i choice) w) conn) :
    Handled (s.after i r) (watch s (.run i choice) w) conn := by
  obtain ⟨j, x, hx, hhandles⟩ := h
  by_cases hij : i = j
  · subst hij
    rw [hg] at hx
    cases hx
    exact hself hhandles
  · refine ⟨j, x, getElem?_advance_ne hx hij, ?_⟩
    rw [watch_watched_lt (List.getElem?_eq_some_iff.mp hx).1]
    exact hhandles

theorem Handled.keep {conn : Nat} (h : Handled s w conn) (hg : s.gs[i]? = some g)
    (hnext : g.part.follows = true → r.next.part = g.part) :
    Handled (s.after i r) (watch s (.run i choice) w) conn := by
  apply h.after hg
  intro hhandles
  have hsame : r.next.part = g.part := by
    apply hnext
    rcases hhandles with h | ⟨h, -⟩ <;> rw [h] <;> rfl
  refine ⟨i, r.next, getElem?_advance_self hg, ?_⟩
  rw [hsame, watch_watched_lt (List.getElem?_eq_some_iff.mp hg).1]
  exact hhandles

theorem pending_after (hr : stepGoroutine c s.shared g choice = some r)
    (hothers : ∀ j x, j ≠ i → s.gs[j]? = some x → x.part ≠ .fills) (hnext : r.next.part ≠ .fills)
    (hstate : r.shared.state = .connecting) : Pending (s.after i r) := by
  refine ⟨hstate, ?_⟩
  intro x hx
  rcases mem_advance hx with ⟨j, hne, hj⟩ | rfl | hspawned
  · exact hothers j x hne hj
  · exact hnext
  · exact (stepGoroutine_spawns hr).not_fill x hspawned

theorem Pending.after (h : Pending s) (hr : stepGoroutine c s.shared g choice = some r)
    (hnext : r.next.part ≠ .fills) (hstate : r.shared.state = .connecting) : Pending (s.after i r) :=
  pending_after hr (fun _ x _ hx => h.2 x (List.mem_of_getElem? hx)) hnext hstate

-- A step of a goroutine that neither owes a watcher nor follows a connection, and starts to fill nothing.
theorem Covered.after {cons : Bool} {conn : Nat} (h : Covered s w cons conn) (hg : s.gs[i]? = some g)
    (hr : stepGoroutine c s.shared g choice = some r) (hinst : g.installs = false)
    (howes : g.part.owes cons = true → r.next.part.owes cons = true)
    (hfollows : g.part.follows = true → r.next.part = g.part)
    (hfills : r.next.part = .fills → g.part = .fills)
    (hstate : s.shared.state = .connecting → r.shared.state = .connecting) :
    Covered (s.after i r) (watch s (.run i choice) w) cons conn := by
  rcases h with h | h | h
  · exact .inl (h.after hg hinst howes)
  · exact .inr (.inl (h.keep hg hfollows))
  · refine .inr (.inr (h.after hr ?_ (hstate h.1)))
    intro hnext
    exact h.2 g (List.mem_of_getElem? hg) (hfills hnext)

theorem installs_fills (hinst : g.installs = true) (hr : stepGoroutine c s.shared g choice = some r) :
    r.next.part = .fills ∧ r.shared.state = s.shared.state := by
  cases stepGoroutine_cases hr with
  | connect hstep =>
    cases hstep with
    | install => exact ⟨rfl, rfl⟩
    | _ => cases hinst
  | producer hstep => cases hinst
  | close hstep => cases hinst
  | loop hstep => cases hstep <;> cases hinst

theorem Noticed.connecting (hone : OneDialler s) (hs : Noticed s w) (hg : s.gs[i]? = some g)
    (hpart : g.part = .fills) : s.shared.state = .connecting := by
  have hmem := List.mem_of_getElem? hg
  cases hstate : s.shared.state with
  | connecting => rfl
  | connected => exact absurd hpart (hone.not_fill hstate g hmem)
  | closing => exact absurd hstate hs.closing
  | disconnected =>
    rw [hs.disconnected hstate, List.mem_singleton] at hmem
    rw [hmem] at hpart
    cases hpart

theorem Noticed.covered_after (hone : OneDialler s) (hs : Noticed s w) (hg : s.gs[i]? = some g)
    (hr : stepGoroutine c s.shared g choice = some r) (heff : NoticeEffect s.shared g r)
    (hinst : g.installs = false) (cons : Bool) (conn : Nat) (hconn : s.shared.conn cons = some conn) :
    Covered (s.after i r) (watch s (.run i choice) w) cons conn := by
  have hcovered := hs.covered cons conn hconn
  have hnext : (s.after i r).gs[i]? = some r.next := getElem?_advance_self hg
  cases heff with
  | keep hstate hpart hspawned =>
    exact hcovered.after hg hr hinst (by rw [hpart]; exact id) (fun _ => hpart) (by rw [hpart]; exact id)
      hstate.trans
  | storeConnecting hstate hgone hpart hspawned =>
    exact hcovered.after hg hr hinst (by simp [hgone, Part.owes]) (by simp [hgone, Part.follows])
      (by simp [hpart]) (fun _ => hstate)
  | install hstate hgone => exact absurd (hinst.symm.trans hgone) (by decide)
  | failed hstate hgone hpart hspawned =>
    have hothers := hone.others_not_fill hg (fills_dials hgone)
    exact .inr (.inr (pending_after hr hothers (by simp [hpart]) (hstate.trans (hs.connecting hone hg hgone))))
  | storeConnected hstate hgone hpart hspawned =>
    have hk : (watch s (.run i choice) w).installer = some i :=
      (watch_installer hg hinst).trans (hs.installer i g hg hgone)
    exact .inl ⟨i, r.next, hk, hnext, by simp [hpart, Part.owes]⟩
  | watchPub hstate hgone hpart hspawned =>
    cases cons with
    | false =>
      have hpub : s.shared.publisherConn = some conn := hconn
      rw [hpub] at hspawned
      refine .inr (.inl ⟨s.gs.length, .watcher (some conn), ?_, .inl rfl⟩)
      simp only [Sys.after, hspawned, getElem?_advance_spawned]
    | true =>
      exact hcovered.after hg hr hinst (by simp [hpart, Part.owes]) (by simp [hgone, Part.follows])
        (by simp [hpart]) hstate.trans
  | watchCons hstate hgone hpart hspawned =>
    cases cons with
    | true =>
      have hcons : s.shared.consumerConn = some conn := hconn
      rw [hcons] at hspawned
      refine .inr (.inl ⟨s.gs.length, .watcher (some conn), ?_, .inl rfl⟩)
      simp only [Sys.after, hspawned, getElem?_advance_spawned]
    | false =>
      exact hcovered.after hg hr hinst (by simp [hgone, Part.owes]) (by simp [hgone, Part.follows])
        (by simp [hpart]) hstate.trans
  | aborted hstate hready hgone hdone hspawned =>
    subst hgone
    exact hcovered.after hg hr hinst (by simp [Goroutine.part, Part.owes]) (by simp [Goroutine.part, Part.follows])
      (by simp [hdone, Goroutine.part]) hstate.trans
  | fires lost hstate hgone hpart hspawned =>
    subst hgone
    rcases hcovered with h | h | h
    · exact .inl (h.after hg hinst (by simp [Goroutine.part, Part.owes]))
    · refine .inr (.inl (h.after hg ?_))
      rintro (hconn | ⟨hconn, -⟩) <;> cases hconn
      refine ⟨s.gs.length, .draining, ?_, .inr ⟨rfl, watch_fires w hg hr hspawned⟩⟩
      simp only [Sys.after, hspawned, getElem?_advance_spawned]
    · exact .inr (.inr (h.after hr (by simp [hpart]) (hstate.trans h.1)))
  | dropped hfrom hstate hgone hpart hspawned =>
    -- whoever fills the pool is the installer, and owes both watchers
    by_cases hfills : ∃ (k : Nat) (x : Goroutine), s.gs[k]? = some x ∧ x.part = .fills
    · obtain ⟨k, x, hx, hxp⟩ := hfills
      have hun : Unregistered s w cons := ⟨k, x, hs.installer k x hx hxp, hx, by simp [hxp, Part.owes]⟩
      exact .inl (hun.after hg hinst (by simp [hgone, Part.owes]))
    · have hothers : ∀ j x, j ≠ i → s.gs[j]? = some x → x.part ≠ .fills :=
        fun j x _ hx hxp => hfills ⟨j, x, hx, hxp⟩
      exact .inr (.inr (pending_after hr hothers (by simp [hpart]) (hstate.trans hfrom)))
  | swap backoff hfrom hstate hgone hpart hspawned =>
    have hmem := List.mem_of_getElem? hg
    have hconnected : s.shared.state = .connected := by
      rcases hfrom with hfrom | hfrom
      · exact hfrom
      · rw [hs.disconnected hfrom, List.mem_singleton] at hmem
        rw [hmem] at hgone
        cases hgone
    have hnone := hone.not_fill hconnected
    exact .inr (.inr (pending_after hr (fun _ x _ hx => hnone x (List.mem_of_getElem? hx)) (by simp [hpart]) hstate))

theorem NoticeEffect.state {t : Shared} (h : NoticeEffect t g r) :
    r.shared.state = t.state ∨ r.shared.state = .connecting ∨ r.shared.state = .connected := by
  cases h with
  | keep hstate | install hstate | failed hstate | watchPub hstate | watchCons hstate | aborted hstate
  | fires _ hstate | dropped _ hstate => exact .inl hstate
  | storeConnecting hstate | swap _ _ hstate => exact .inr (.inl hstate)
  | storeConnected hstate => exact .inr (.inr hstate)

-- A loop gives up only on account of `Close`.
theorem stepGoroutine_stop {t : Shared} (hr : stepGoroutine c t g choice = some r) (hnext : r.next = .stop) :
    t.closeChan = true ∨ t.state = .closing := by
  cases loopStep_of_next hr (by rw [hnext]; rfl) with
  | quit backoff hquit => exact .inl hquit
  | giveUp backoff hclosing => exact .inr hclosing
  | drain =>
    rcases drainRound_next t .draining .trigger with hn | hn <;> rw [hn] at hnext <;> cases hnext
  | _ => cases hnext

theorem Noticed.dials_after (hstart : Starting s) (hs : Noticed s w) (hg : s.gs[i]? = some g)
    (hr : stepGoroutine c s.shared g choice = some r) (heff : NoticeEffect s.shared g r)
    (hstate : r.shared.state = .connecting) :
    (∃ x ∈ (s.after i r).gs, x.part = .dials ∨ x.part = .fills) ∨
      ((s.after i r).gs = [.done] ∧ r.shared.ready = false) := by
  have hmem : r.next ∈ (s.after i r).gs := List.mem_of_getElem? (getElem?_advance_self hg)
  -- unless it is the one that dials who moves, there is still one
  have hkeep : s.shared.state = .connecting →
      (g.part = .dials ∨ g.part = .fills → r.next.part = .dials ∨ r.next.part = .fills) →
      ∃ x ∈ (s.after i r).gs, x.part = .dials ∨ x.part = .fills := by
    intro hfrom hnext
    rcases hs.dials hfrom with hdials | ⟨hdone, -⟩
    · exact exists_mem_advance hg hdials fun h => .inl (hnext h)
    · have hgone := List.mem_of_getElem? hg
      rw [hdone, List.mem_singleton] at hgone
      rw [hgone] at hr
      cases hr
  cases heff with
  | keep hsame hpart => exact .inl (hkeep (hsame ▸ hstate) (by rw [hpart]; exact id))
  | storeConnecting _ _ hpart => exact .inl ⟨r.next, hmem, .inl hpart⟩
  | install _ _ hpart => exact .inl ⟨r.next, hmem, .inr hpart⟩
  | failed _ _ hpart => exact .inl ⟨r.next, hmem, .inl hpart⟩
  | storeConnected hconnected => exact absurd (hconnected.symm.trans hstate) (by decide)
  | watchPub hsame hpart | watchCons hsame hpart | dropped _ hsame hpart =>
    exact .inl (hkeep (hsame ▸ hstate) (by simp [hpart]))
  | fires lost hsame hgone => exact .inl (hkeep (hsame ▸ hstate) (by simp [hgone, Goroutine.part]))
  | aborted hsame hready hgone hdone hspawned =>
    subst hgone
    obtain ⟨rfl, hfalse, hlen⟩ := hstart.first i _ hg
    refine .inr ⟨?_, hready.trans hfalse⟩
    obtain ⟨x, hx⟩ := List.length_eq_one_iff.mp (hlen rfl)
    simp [Sys.after, advance, hx, hdone, hspawned]
  | swap backoff _ _ _ _ hspawned =>
    refine .inl ⟨.waiting backoff, ?_, .inl rfl⟩
    simp [Sys.after, advance, hspawned]

theorem Noticed.installer_after (hone : OneDialler s) (hs : Noticed s w) (hg : s.gs[i]? = some g)
    (hr : stepGoroutine c s.shared g choice = some r) (heff : NoticeEffect s.shared g r) (j : Nat)
    (x : Goroutine) (hx : (s.after i r).gs[j]? = some x) (hpart : x.part = .fills) :
    (watch s (.run i choice) w).installer = some j := by
  rcases getElem?_advance_cases hx with ⟨rfl, rfl⟩ | ⟨hne, hold⟩ | ⟨-, hnew⟩
  · cases hinst : g.installs with
    | true => exact watch_install hg hinst hr
    | false =>
      have hfills : g.part = .fills := by
        cases heff with
        | keep _ hsame => rw [← hsame]; exact hpart
        | install _ hgone => exact absurd (hinst.symm.trans hgone) (by decide)
        | storeConnecting _ _ hnext | failed _ _ hnext | storeConnected _ _ hnext | watchPub _ _ hnext
        | watchCons _ _ hnext | fires _ _ _ hnext | dropped _ _ _ hnext | swap _ _ _ _ hnext =>
          exact absurd (hnext.symm.trans hpart) (by simp)
        | aborted _ _ _ hnext => rw [hnext] at hpart; cases hpart
      rw [watch_installer hg hinst]
      exact hs.installer j g hg hfills
  · have hinst : g.installs = false := by
      rw [Bool.eq_false_iff]
      intro hinst
      exact hone.others_not_fill hg (installs_dials hinst).1 j x hne hold hpart
    rw [watch_installer hg hinst]
    exact hs.installer j x hold hpart
  · exact absurd hpart ((stepGoroutine_spawns hr).not_fill x (List.mem_of_getElem? hnew))

theorem Noticed.run (hone : OneDialler s) (hstart : Starting s) (hcloses : s.closes = 0)
    (hflags : Flags s.shared 0) (hs : Noticed s w) (hg : s.gs[i]? = some g)
    (hr : stepGoroutine c s.shared g choice = some r) :
    Noticed (s.after i r) (watch s (.run i choice) w) := by
  have hmem := List.mem_of_getElem? hg
  have hg0 : g.closes = 0 := by
    have hle := le_total (f := Goroutine.closes) hmem
    simp only [Sys.closes] at hcloses
    omega
  have hstop : g ≠ .stop := by
    rintro rfl
    exact hs.stop hmem
  have heff := stepGoroutine_notice hflags hs.closing hstop hg0 hr
  have hstate := heff.state
  refine ⟨?_, ?_, ?_, ?_, ?_, ?_⟩
  · intro hclosing
    rcases hstate with h | h | h
    · exact hs.closing (h.symm.trans hclosing)
    · cases h.symm.trans hclosing
    · cases h.symm.trans hclosing
  · intro hstop
    rcases mem_advance hstop with ⟨j, -, hj⟩ | hnext | hspawned
    · exact hs.stop (List.mem_of_getElem? hj)
    · rcases stepGoroutine_stop hr hnext.symm with hquit | hclosing
      · exact absurd (hflags.closeChan.symm.trans hquit) (by decide)
      · exact hs.closing hclosing
    · have hspawns := stepGoroutine_spawns hr
      generalize r.spawned = spawned at hspawns hspawned
      cases hspawns <;> simp at hspawned
  · intro hdisconnected
    rcases hstate with h | h | h
    · -- the first step of `NewClient` stores `StateConnecting`
      rw [hs.disconnected (h.symm.trans hdisconnected), List.mem_singleton] at hmem
      subst hmem
      cases stepGoroutine_cases hr with
      | connect hstep =>
        cases hstep
        cases hdisconnected
      | loop hstep => cases hstep
    · cases h.symm.trans hdisconnected
    · cases h.symm.trans hdisconnected
  · exact hs.dials_after hstart hg hr heff
  · exact hs.installer_after hone hg hr heff
  · intro cons conn hconn
    cases hinst : g.installs with
    | true =>
      refine .inl ⟨i, r.next, watch_install hg hinst hr, getElem?_advance_self hg, ?_⟩
      rw [(installs_fills hinst hr).1]
      rfl
    | false =>
      obtain ⟨hpub, hcons⟩ := stepGoroutine_installed hr hinst
      have hsame : r.shared.conn cons = s.shared.conn cons := by simp only [Shared.conn, hpub, hcons]
      exact hs.covered_after hone hg hr heff hinst cons conn (hsame.symm.trans hconn)

end Run

/-! ### Every run -/

theorem Covered.append {s : Sys} {w : Watch} {cons : Bool} {conn : Nat} (h : Covered s w cons conn)
    {g : Goroutine} (hg : g.part = .idle) : Covered ⟨s.shared, s.gs ++ [g]⟩ w cons conn := by
  have hold : ∀ {j : Nat} {x : Goroutine}, s.gs[j]? = some x → (s.gs ++ [g])[j]? = some x := by
    intro j x hx
    rw [List.getElem?_append_left (List.getElem?_eq_some_iff.mp hx).1]
    exact hx
  rcases h with ⟨i, x, hi, hx, howes⟩ | ⟨j, x, hx, hhandles⟩ | ⟨hstate, hnone⟩
  · exact .inl ⟨i, x, hi, hold hx, howes⟩
  · exact .inr (.inl ⟨j, x, hold hx, hhandles⟩)
  · refine .inr (.inr ⟨hstate, ?_⟩)
    intro x hx
    rcases List.mem_append.mp hx with hx | hx
    · exact hnone x hx
    · rw [List.mem_singleton.mp hx, hg]
      decide

-- A producer is started when `NewClient` has returned the client.
theorem Noticed.publish {s : Sys} {w : Watch} (hs : Noticed s w) (hstart : Starting s)
    (hready : s.shared.ready = true) : Noticed ⟨s.shared, s.gs ++ [.producer (.check false)]⟩ w := by
  refine ⟨hs.closing, ?_, ?_, ?_, ?_, ?_⟩
  · simpa using hs.stop
  · intro hstate
    have hmem : .connect none .storeConnecting ∈ s.gs := by rw [hs.disconnected hstate]; simp
    exact absurd hmem (hstart.not_mem hready _)
  · intro hstate
    rcases hs.dials hstate with ⟨x, hx, hpart⟩ | ⟨-, hfalse⟩
    · exact .inl ⟨x, List.mem_append_left _ hx, hpart⟩
    · exact absurd (hfalse.symm.trans hready) (by decide)
  · intro i x hx hpart
    rcases getElem?_append_cases hx with hx | rfl
    · exact hs.installer i x hx hpart
    · cases hpart
  · intro cons conn hconn
    exact (hs.covered cons conn hconn).append rfl

structure Reached (s : Sys) : Prop where
  one : OneDialler s
  phase : ClosePhase s
  starting : Starting s

theorem step_noticed (s : Sys) (w : Watch) (a : Action) (t : Sys) (hrun : Reached s)
    (hs : s.shared.closeCalled = false → Noticed s w) (h : step c s a = some t)
    (hcalled : t.shared.closeCalled = false) : Noticed t (watch s a w) := by
  cases step_sysStep h with
  | run i choice g r hg hr =>
    have hbefore : s.shared.closeCalled = false := by
      rw [← stepGoroutine_closeCalled hr]
      exact hcalled
    obtain ⟨hcloses, hflags⟩ := hrun.phase.before_flags hbefore
    exact (hs hbefore).run hrun.one hrun.starting hcloses hflags hg hr
  | connLost conn hopen | channelError ch hopen =>
    obtain ⟨hclosing, hstop, hdisconnected, hdials, hinstaller, hcovered⟩ := hs hcalled
    exact ⟨hclosing, hstop, hdisconnected, hdials, hinstaller, hcovered⟩
  | publish hready => exact (hs hcalled).publish hrun.starting hready
  | close hready hnew => cases hcalled

theorem newClient_noticed : Noticed newClient Watch.start := by
  refine ⟨by decide, by decide, fun _ => rfl, ?_, ?_, ?_⟩
  · intro hstate
    cases hstate
  · intro i g hg hpart
    have hmem := List.mem_of_getElem? hg
    rw [List.mem_singleton.mp hmem] at hpart
    cases hpart
  · intro cons conn hconn
    cases cons <;> cases hconn

theorem run_noticed {as : List Action} {s : Sys} {w : Watch}
    (h : exec (noted (step c) watch) (newClient, Watch.start) as = some (s, w))
    (hcalled : s.shared.closeCalled = false) : Reached s ∧ Noticed s w := by
  have hnew : Reached newClient := ⟨newClient_oneDialler, newClient_phase, newClient_starting⟩
  have hinv := noted_invariant (I := Reached) (J := fun s w => s.shared.closeCalled = false → Noticed s w)
    (fun s a t hs _ h => ⟨step_oneDialler s a t hs.one h, step_phase s a t hs.phase h,
      step_starting s a t hs.starting h⟩)
    (fun s w a t hrun hs _ h => step_noticed s w a t hrun hs h) hnew (fun _ => newClient_noticed)
    (meets_true newClient as) h
  exact ⟨hinv.1, hinv.2 hcalled⟩

theorem dialling_of_part {g : Goroutine} (h : g.part = .dials ∨ g.part = .fills) : g.dialling = true := by
  cases g with
  | connect loop pc => cases pc <;> first | rfl | (rcases h with h | h <;> cases h)
  | waiting | check | stop => rfl
  | _ => rcases h with h | h <;> cases h

/-- Before `Close` is called, in `StateConnecting` somebody dials, unless `NewClient`
has failed and there is no client; and in `StateConnected` the loss of an installed
connection is still to be handled by a goroutine that watched it, or the `connect`
that installed it has still to start its watcher. -/
theorem loss_noticed (c : Config) (as : List Action) (s : Sys) (w : Watch)
    (h : exec (noted (step c) watch) (newClient, Watch.start) as = some (s, w))
    (hcalled : s.shared.closeCalled = false) :
    (s.shared.state = .connecting →
      (∃ g ∈ s.gs, g.dialling = true) ∨ (s.gs = [.done] ∧ s.shared.ready = false)) ∧
    (s.shared.state = .connected → ∀ conn ∈ s.shared.installed, s.shared.connOpen conn = false →
      Handled s w conn ∨ ∃ i g, w.installer = some i ∧ s.gs[i]? = some g ∧
        (g.part = .registers false ∨ (g.part = .registers true ∧ s.shared.consumerConn = some conn))) := by
  obtain ⟨hrun, hs⟩ := run_noticed h hcalled
  refine ⟨?_, ?_⟩
  · intro hstate
    rcases hs.dials hstate with ⟨g, hg, hpart⟩ | hfailed
    · exact .inl ⟨g, hg, dialling_of_part hpart⟩
    · exact .inr hfailed
  · intro hstate conn hconn _
    have hnone := hrun.one.not_fill hstate
    have hcons : ∃ cons, s.shared.conn cons = some conn ∧ (cons = true → s.shared.consumerConn = some conn) := by
      rcases mem_installed.mp hconn with hconn | hconn
      · exact ⟨false, hconn, fun h => by cases h⟩
      · exact ⟨true, hconn, fun _ => hconn⟩
    obtain ⟨cons, hconn, hcons⟩ := hcons
    rcases hs.covered cons conn hconn with ⟨i, g, hi, hg, howes⟩ | hhandled | ⟨hconnecting, -⟩
    · refine .inr ⟨i, g, hi, hg, ?_⟩
      have hnot := hnone g (List.mem_of_getElem? hg)
      generalize g.part = p at howes hnot
      cases p with
      | fills => exact absurd rfl hnot
      | registers pubDone =>
        cases pubDone with
        | false => exact .inl rfl
        | true => exact .inr ⟨rfl, hcons howes⟩
      | _ => cases howes
    · exact .inl hhandled
    · exact absurd (hconnecting.symm.trans hstate) (by decide)

/- The consumer connection is lost and its watcher has started the goroutine that
drains and triggers. -/
def consumerGone : List Action := connectSteps 0 ++ [.connLost 1, .run 2 .go]

theorem loss_noticed_consumerGone :
    ∃ s w, exec (noted (step small) watch) (newClient, Watch.start) consumerGone = some (s, w) ∧
      s.shared.closeCalled = false ∧ s.shared.state = .connected ∧ s.shared.consumerConn = some 1 ∧
      s.shared.connOpen 1 = false ∧
      (Handled s w 1 ∨ ∃ i g, w.installer = some i ∧ s.gs[i]? = some g ∧
        (g.part = .registers false ∨ (g.part = .registers true ∧ s.shared.consumerConn = some 1))) :=
  ⟨_, _, rfl, rfl, rfl, rfl, rfl, (loss_noticed small consumerGone _ _ rfl rfl).2 rfl 1 (by decide) rfl⟩

-- `NewClient` cannot dial the publisher connection.
def failedDial : List Action := [.run 0 .go, .run 0 .fail, .run 0 .go]

theorem failedDial_leaves_connecting :
    ∃ s, exec (step small) newClient failedDial = some s ∧ s.shared.closeCalled = false ∧
      s.shared.state = .connecting ∧ ∀ g ∈ s.gs, g.dialling = false :=
  ⟨_, rfl, rfl, rfl, by decide⟩

end Ghost.Rabbitmq.Client
