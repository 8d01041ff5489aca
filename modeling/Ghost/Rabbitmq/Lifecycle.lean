import Ghost.Rabbitmq.CloseFinal

/-!
# From NewClient to Close (rabbitmq/client.go)

`NewClient`'s `connect` is alone until it registers its watchers, and nobody has
the client before it has returned. `Close` runs once, and how far it has come
decides which of its flags are set.
-/

namespace Ghost.Rabbitmq.Client
open Go Threads Transition

variable {c : Config}

def Shared.installed (s : Shared) : List Nat := s.publisherConn.toList ++ s.consumerConn.toList

theorem mem_installed {s : Shared} {conn : Nat} :
    conn ∈ s.installed ↔ s.publisherConn = some conn ∨ s.consumerConn = some conn := by
  simp [Shared.installed]

def Goroutine.installs : Goroutine → Bool
  | .connect _ (.install _ _) => true
  | _ => false

section Frame

variable {s : Shared} {g : Goroutine} {choice : Choice} {r : Result}

def Goroutine.closes : Goroutine → Nat
  | .close _ => 1
  | _ => 0

-- The flags of `Close`, which no other function sets.
structure SameFlags (s t : Shared) : Prop where
  closeCalled : t.closeCalled = s.closeCalled
  closeStored : t.closeStored = s.closeStored
  closeChan : t.closeChan = s.closeChan
  poolClosed : t.poolClosed = s.poolClosed
  channelsClosed : t.channelsClosed = s.channelsClosed

theorem SameFlags.refl (s : Shared) : SameFlags s s := ⟨rfl, rfl, rfl, rfl, rfl⟩

/-- The goroutines a step of `g` may start. -/
inductive Spawns (s : Shared) : Goroutine → List Goroutine → Prop where
  | nothing (g : Goroutine) : Spawns s g []
  | watchPub (loop : Option Int) : Spawns s (.connect loop .watchPub) [.watcher s.publisherConn]
  | watchCons (loop : Option Int) : Spawns s (.connect loop .watchCons) [.watcher s.consumerConn]
  | draining (conn : Nat) : Spawns s (.watcher (some conn)) [.draining]
  | loop (wasConnected : Bool) (backoff : Int) : Spawns s (.cas wasConnected) [.waiting backoff]

theorem drainRound_spawned {again next : Goroutine} : (drainRound s again next).spawned = [] := by
  unfold drainRound
  split <;> rfl

theorem stepGoroutine_spawns (h : stepGoroutine c s g choice = some r) : Spawns s g r.spawned := by
  cases stepGoroutine_cases h with
  | connect hstep =>
    cases hstep with
    | drain => exact drainRound_spawned ▸ .nothing _
    | watchPub => exact .watchPub _
    | watchCons => exact .watchCons _
    | _ => exact .nothing _
  | producer hstep => cases hstep <;> exact .nothing _
  | close hstep => cases hstep <;> exact .nothing _
  | loop hstep =>
    cases hstep with
    | drain => exact drainRound_spawned ▸ .nothing _
    | connClosed => exact .draining _
    | swap => exact .loop _ _
    | _ => exact .nothing _

theorem Spawns.closes {spawned : List Goroutine} (h : Spawns s g spawned) :
    total Goroutine.closes spawned = 0 := by
  cases h <;> rfl

/-- A step that is no step of `Close`. -/
def NoClose (s : Shared) (r : Result) : Prop := SameFlags s r.shared ∧ r.next.closes = 0

theorem drainRound_noClose {again next : Goroutine} (ha : again.closes = 0) (hn : next.closes = 0) :
    NoClose s (drainRound s again next) := by
  unfold drainRound
  split
  · exact ⟨⟨rfl, rfl, rfl, rfl, rfl⟩, ha⟩
  · refine ⟨.refl s, ?_⟩
    show (if s.channelsClosed = true then again else next).closes = 0
    split
    · exact ha
    · exact hn

theorem connectStep_noClose {loop : Option Int} {pc : ConnectPc} (h : ConnectStep c s loop pc r) :
    NoClose s r := by
  cases h with
  | drain => exact drainRound_noClose rfl rfl
  | watchCons | aborted => cases loop <;> exact ⟨⟨rfl, rfl, rfl, rfl, rfl⟩, rfl⟩
  | _ => exact ⟨⟨rfl, rfl, rfl, rfl, rfl⟩, rfl⟩

theorem loopStep_noClose (h : LoopStep c s g r) : NoClose s r := by
  cases h with
  | drain => exact drainRound_noClose rfl rfl
  | _ => exact ⟨⟨rfl, rfl, rfl, rfl, rfl⟩, rfl⟩

/-- A step is one of `Close`, or leaves what `Close` does to `Close`. -/
theorem stepGoroutine_close (h : stepGoroutine c s g choice = some r) :
    (∃ pc, g = .close pc ∧ CloseStep s pc r) ∨ (g.closes = 0 ∧ NoClose s r) := by
  cases stepGoroutine_cases h with
  | connect hstep => exact .inr ⟨rfl, connectStep_noClose hstep⟩
  | producer hstep => exact .inr ⟨rfl, by cases hstep <;> exact ⟨⟨rfl, rfl, rfl, rfl, rfl⟩, rfl⟩⟩
  | close hstep => exact .inl ⟨_, rfl, hstep⟩
  | loop hstep => exact .inr ⟨by cases hstep <;> rfl, loopStep_noClose hstep⟩

end Frame

/-! ### Close -/

def ClosePc.stage : ClosePc → Nat
  | .storeClosing => 0
  | .closeChan => 1
  | .poolClosed => 2
  | .closeChannels => 3
  | .drainChannels => 4
  | .lock => 5
  | .closePub => 6
  | .closeCons => 7

/-- The flags once the first `n` statements of `Close` have been run. -/
structure Flags (s : Shared) (n : Nat) : Prop where
  closeStored : s.closeStored = decide (0 < n)
  closeChan : s.closeChan = decide (1 < n)
  poolClosed : s.poolClosed = decide (2 < n)
  channelsClosed : s.channelsClosed = decide (3 < n)

theorem Flags.same {s t : Shared} {n : Nat} (h : Flags s n) (ht : SameFlags s t) : Flags t n :=
  ⟨ht.closeStored.trans h.closeStored, ht.closeChan.trans h.closeChan, ht.poolClosed.trans h.poolClosed,
    ht.channelsClosed.trans h.channelsClosed⟩

/- Each statement of `Close` moves the flags on by one stage: neither the second
`close(c.closeChan)` nor the second `close` of the pool is ever reached. -/
theorem closeStep_flags {s : Shared} {pc : ClosePc} {r : Result} (h : CloseStep s pc r)
    (hs : Flags s pc.stage) : r.shared.closeCalled = s.closeCalled ∧
      ((∃ pc', r.next = .close pc' ∧ Flags r.shared pc'.stage) ∨ (r.next = .done ∧ Flags r.shared 8)) := by
  obtain ⟨hstored, hchan, hpool, hchannels⟩ := hs
  cases h with
  | storeClosing => exact ⟨rfl, .inl ⟨_, rfl, rfl, hchan, hpool, hchannels⟩⟩
  | closeTwice hclosed => exact absurd (hchan.symm.trans hclosed) (by decide)
  | closeChan => exact ⟨rfl, .inl ⟨_, rfl, hstored, rfl, hpool, hchannels⟩⟩
  | poolTwice hclosed => exact absurd (hpool.symm.trans hclosed) (by decide)
  | poolClosed => exact ⟨rfl, .inl ⟨_, rfl, hstored, hchan, rfl, hchannels⟩⟩
  | closeChannels => exact ⟨rfl, .inl ⟨_, rfl, hstored, hchan, hpool, rfl⟩⟩
  | drain | drained | lock => exact ⟨rfl, .inl ⟨_, rfl, hstored, hchan, hpool, hchannels⟩⟩
  | closePub =>
    cases s.publisherConn <;> exact ⟨rfl, .inl ⟨_, rfl, hstored, hchan, hpool, hchannels⟩⟩
  | closeCons =>
    cases s.consumerConn <;> exact ⟨rfl, .inr ⟨rfl, hstored, hchan, hpool, hchannels⟩⟩

def Sys.closes (s : Sys) : Nat := total Goroutine.closes s.gs

/-- Where the one call of `Close` stands. -/
inductive ClosePhase (s : Sys) : Prop where
  | before (hcalled : s.shared.closeCalled = false) (hcloses : s.closes = 0) (hflags : Flags s.shared 0)
  | during (pc : ClosePc) (hcalled : s.shared.closeCalled = true) (hmem : .close pc ∈ s.gs)
      (hcloses : s.closes = 1) (hflags : Flags s.shared pc.stage)
  | after (hcalled : s.shared.closeCalled = true) (hcloses : s.closes = 0) (hflags : Flags s.shared 8)

theorem closes_pos {s : Sys} {pc : ClosePc} (h : .close pc ∈ s.gs) : 0 < s.closes :=
  le_total (f := Goroutine.closes) h

theorem ClosePhase.flags_close {s : Sys} (h : ClosePhase s) {pc : ClosePc} {i : Nat}
    (hpc : s.gs[i]? = some (.close pc)) :
    s.shared.closeCalled = true ∧ s.closes = 1 ∧ Flags s.shared pc.stage := by
  have hpos := closes_pos (List.mem_of_getElem? hpc)
  cases h with
  | before hcalled hcloses hflags => omega
  | after hcalled hcloses hflags => omega
  | during pc' hcalled hmem hcloses hflags =>
    obtain ⟨j, hj⟩ := List.mem_iff_getElem?.mp hmem
    by_cases hij : i = j
    · subst hij
      rw [hpc] at hj
      cases hj
      exact ⟨hcalled, hcloses, hflags⟩
    · have htwo := add_le_total (f := Goroutine.closes) hpc hj hij
      simp only [Sys.closes] at hcloses
      simp only [Goroutine.closes] at htwo
      omega

theorem ClosePhase.same {s t : Sys} (h : ClosePhase s) (hflags : SameFlags s.shared t.shared)
    (hcloses : t.closes = s.closes) (hmem : ∀ pc, .close pc ∈ s.gs → .close pc ∈ t.gs) : ClosePhase t := by
  cases h with
  | before hcalled h0 hf => exact .before (hflags.closeCalled.trans hcalled) (hcloses.trans h0) (hf.same hflags)
  | during pc hcalled hpc h1 hf =>
    exact .during pc (hflags.closeCalled.trans hcalled) (hmem pc hpc) (hcloses.trans h1) (hf.same hflags)
  | after hcalled h0 hf => exact .after (hflags.closeCalled.trans hcalled) (hcloses.trans h0) (hf.same hflags)

theorem ClosePhase.run {s : Sys} {i : Nat} {choice : Choice} {g : Goroutine} {r : Result} (hs : ClosePhase s)
    (hg : s.gs[i]? = some g) (hr : stepGoroutine c s.shared g choice = some r) :
    ClosePhase ⟨r.shared, advance s.gs i r.next r.spawned⟩ := by
  have htotal := total_advance (f := Goroutine.closes) r.next r.spawned hg
  have hspawned := (stepGoroutine_spawns hr).closes
  rcases stepGoroutine_close hr with ⟨pc, rfl, hstep⟩ | ⟨hg0, hflags, hnext⟩
  · obtain ⟨hcalled, hone, hf⟩ := hs.flags_close hg
    obtain ⟨hsame, hnext⟩ := closeStep_flags hstep hf
    have hmem : r.next ∈ advance s.gs i r.next r.spawned := List.mem_of_getElem? (getElem?_advance_self hg)
    have hpc : (Goroutine.close pc).closes = 1 := rfl
    simp only [Sys.closes] at hone
    rcases hnext with ⟨pc', hpc', hf'⟩ | ⟨hdone, hf'⟩
    · have hclose : r.next.closes = 1 := by rw [hpc']; rfl
      refine .during pc' (hsame.trans hcalled) (hpc' ▸ hmem) ?_ hf'
      simp only [Sys.closes]
      omega
    · have hclose : r.next.closes = 0 := by rw [hdone]; rfl
      refine .after (hsame.trans hcalled) ?_ hf'
      simp only [Sys.closes]
      omega
  · refine hs.same hflags ?_ ?_
    · simp only [Sys.closes]
      omega
    · intro pc hpc
      obtain ⟨j, hj⟩ := List.mem_iff_getElem?.mp hpc
      have hij : i ≠ j := by
        rintro rfl
        rw [hg] at hj
        cases hj
        cases hg0
      exact List.mem_of_getElem? (getElem?_advance_ne hj hij)

/-- The step in which `Close` returns is its last statement. -/
theorem ClosePhase.returns {s : Sys} {i : Nat} {choice : Choice} {g : Goroutine} {r : Result}
    (hs : ClosePhase s) (hg : s.gs[i]? = some g) (hr : stepGoroutine c s.shared g choice = some r)
    (hcalled : r.shared.closeCalled = true)
    (hcloses : total Goroutine.closes (advance s.gs i r.next r.spawned) = 0) :
    (s.shared.closeCalled = true ∧ s.closes = 0) ∨ g = .close .closeCons := by
  have htotal := total_advance (f := Goroutine.closes) r.next r.spawned hg
  rcases stepGoroutine_close hr with ⟨pc, rfl, hstep⟩ | ⟨hg0, hflags, hnext⟩
  · obtain ⟨-, -, hf⟩ := hs.flags_close hg
    have hnext : r.next.closes = 0 := by
      have hmem : r.next ∈ advance s.gs i r.next r.spawned := List.mem_of_getElem? (getElem?_advance_self hg)
      have hle := le_total (f := Goroutine.closes) hmem
      omega
    cases hstep with
    | closeTwice hclosed => exact absurd (hf.closeChan.symm.trans hclosed) (by decide)
    | closeCons => exact .inr rfl
    | _ => cases hnext
  · refine .inl ⟨hflags.closeCalled ▸ hcalled, ?_⟩
    simp only [Sys.closes]
    omega

theorem step_phase (s : Sys) (a : Action) (t : Sys) (hs : ClosePhase s) (h : step c s a = some t) : ClosePhase t := by
  cases step_sysStep h with
  | run i choice g r hg hr => exact hs.run hg hr
  | connLost conn hopen | channelError ch hopen =>
    exact hs.same ⟨rfl, rfl, rfl, rfl, rfl⟩ rfl (fun _ h => h)
  | publish hready =>
    exact hs.same (.refl _) (by simp [Sys.closes, Goroutine.closes]) (fun _ h => List.mem_append_left _ h)
  | close hready hnew =>
    cases hs with
    | before hcalled hcloses hflags =>
      refine .during .storeClosing rfl (by simp) ?_
        ⟨hflags.closeStored, hflags.closeChan, hflags.poolClosed, hflags.channelsClosed⟩
      simp only [Sys.closes, total_append, total_cons, total_nil, Goroutine.closes] at hcloses ⊢
      omega
    | during pc hcalled => exact absurd (hcalled.symm.trans hnew) (by decide)
    | after hcalled => exact absurd (hcalled.symm.trans hnew) (by decide)

theorem newClient_phase : ClosePhase newClient := .before rfl rfl ⟨rfl, rfl, rfl, rfl⟩

theorem ClosePhase.before_flags {s : Sys} (h : ClosePhase s) (hcalled : s.shared.closeCalled = false) :
    s.closes = 0 ∧ Flags s.shared 0 := by
  cases h with
  | before _ hcloses hflags => exact ⟨hcloses, hflags⟩
  | during pc htrue => exact absurd (htrue.symm.trans hcalled) (by decide)
  | after htrue => exact absurd (htrue.symm.trans hcalled) (by decide)

theorem stepGoroutine_closeCalled {s : Shared} {g : Goroutine} {choice : Choice} {r : Result}
    (h : stepGoroutine c s g choice = some r) : r.shared.closeCalled = s.closeCalled := by
  rcases stepGoroutine_close h with ⟨pc, rfl, hstep⟩ | ⟨-, hflags, -⟩
  · cases hstep with
    | closePub => cases s.publisherConn <;> rfl
    | closeCons => cases s.consumerConn <;> rfl
    | _ => rfl
  · exact hflags.closeCalled

/-! ### NewClient -/

-- past the store of `StateConnected`
def ConnectPc.registers : ConnectPc → Bool
  | .watchPub | .watchCons => true
  | _ => false

section Ready

variable {s : Shared} {g : Goroutine} {choice : Choice} {r : Result}

theorem drainRound_ready {again next : Goroutine} : (drainRound s again next).shared.ready = s.ready := by
  unfold drainRound
  split <;> rfl

theorem closeStep_ready {pc : ClosePc} (h : CloseStep s pc r) : r.shared.ready = s.ready := by
  cases h with
  | closePub => cases s.publisherConn <;> rfl
  | closeCons => cases s.consumerConn <;> rfl
  | _ => rfl

/-- The client is handed out by the last step of `NewClient` and by no other. -/
theorem stepGoroutine_ready (h : stepGoroutine c s g choice = some r) :
    r.shared.ready = s.ready ∨
      (g = .connect none .watchCons ∧ r.shared.ready = true ∧ r.next = .done) := by
  cases stepGoroutine_cases h with
  | connect hstep =>
    cases hstep with
    | drain => exact .inl drainRound_ready
    | watchCons =>
      rename_i loop
      cases loop with
      | none => exact .inr ⟨rfl, rfl, rfl⟩
      | some => exact .inl rfl
    | _ => exact .inl rfl
  | producer hstep => cases hstep <;> exact .inl rfl
  | close hstep => exact .inl (closeStep_ready hstep)
  | loop hstep =>
    cases hstep with
    | drain => exact .inl drainRound_ready
    | _ => exact .inl rfl

theorem drainRound_next (s : Shared) (again next : Goroutine) :
    (drainRound s again next).next = again ∨ (drainRound s again next).next = next := by
  unfold drainRound
  split
  · exact .inl rfl
  · show (if s.channelsClosed = true then again else next) = again ∨ _
    split
    · exact .inl rfl
    · exact .inr rfl

theorem connectStep_next {loop loop' : Option Int} {pc pc' : ConnectPc} (h : ConnectStep c s loop pc r)
    (hnext : r.next = .connect loop' pc') :
    loop' = loop ∧ (pc'.registers = false → pc.registers = false) := by
  cases h with
  | drain pub cons =>
    rcases drainRound_next s (.connect loop (.drain pub cons)) (.connect loop (.fill pub cons 0)) with
      hn | hn <;> rw [hn] at hnext <;> cases hnext
    · exact ⟨rfl, id⟩
    · exact ⟨rfl, id⟩
  | watchCons | aborted => cases loop <;> cases hnext
  | sendClosed => cases hnext
  | watchPub =>
    cases hnext
    exact ⟨rfl, fun h => absurd h (by decide)⟩
  | _ =>
    cases hnext
    exact ⟨rfl, fun _ => rfl⟩

-- the goroutines that only a step outside `connect`, `Close` and the producers leads to
def Goroutine.outsideCalls : Goroutine → Bool
  | .check _ | .stop | .restoring _ | .watcher _ | .draining | .trigger | .cas _ => true
  | .connect _ _ | .waiting _ | .restore | .close _ | .producer _ | .done => false

theorem loopStep_of_next (h : stepGoroutine c s g choice = some r) (hnext : r.next.outsideCalls = true) :
    LoopStep c s g r := by
  cases stepGoroutine_cases h with
  | connect hstep =>
    cases hstep with
    | drain pub cons =>
      rcases drainRound_next s (.connect _ (.drain pub cons)) (.connect _ (.fill pub cons 0)) with hn | hn <;>
        rw [hn] at hnext <;> cases hnext
    | watchCons | aborted =>
      rename_i loop
      cases loop <;> cases hnext
    | _ => cases hnext
  | producer hstep => cases hstep <;> cases hnext
  | close hstep => cases hstep <;> cases hnext
  | loop hstep => exact hstep

-- Only `NewClient`'s own `connect` goes on as that.
theorem stepGoroutine_none {pc' : ConnectPc} (h : stepGoroutine c s g choice = some r)
    (hnext : r.next = .connect none pc') :
    ∃ pc, g = .connect none pc ∧ (pc'.registers = false → pc.registers = false) := by
  cases stepGoroutine_cases h with
  | connect hstep =>
    obtain ⟨rfl, hreg⟩ := connectStep_next hstep hnext
    exact ⟨_, rfl, hreg⟩
  | producer hstep => cases hstep <;> cases hnext
  | close hstep => cases hstep <;> cases hnext
  | loop hstep =>
    cases hstep with
    | drain =>
      rcases drainRound_next s .draining .trigger with hn | hn <;>
        rw [hn] at hnext <;> cases hnext
    | _ => cases hnext

end Ready

/- `NewClient` is the first goroutine; nobody has the client while it runs, and
nobody else runs until it registers its watchers. -/
structure Starting (s : Sys) : Prop where
  first : ∀ i pc, s.gs[i]? = some (.connect none pc) →
    i = 0 ∧ s.shared.ready = false ∧ (pc.registers = false → s.gs.length = 1)
  called : s.shared.closeCalled = true → s.shared.ready = true

theorem Starting.not_mem {s : Sys} (hs : Starting s) (hready : s.shared.ready = true) (pc : ConnectPc) :
    .connect none pc ∉ s.gs := by
  intro hmem
  obtain ⟨i, hi⟩ := List.mem_iff_getElem?.mp hmem
  exact absurd ((hs.first i pc hi).2.1.symm.trans hready) (by decide)

theorem Starting.run {s : Sys} {i : Nat} {choice : Choice} {g : Goroutine} {r : Result} (hs : Starting s)
    (hg : s.gs[i]? = some g) (hr : stepGoroutine c s.shared g choice = some r) :
    Starting ⟨r.shared, advance s.gs i r.next r.spawned⟩ := by
  have hready := stepGoroutine_ready hr
  refine ⟨?_, ?_⟩
  · intro j pc hj
    rcases getElem?_advance_cases hj with ⟨rfl, hnext⟩ | ⟨hne, hold⟩ | ⟨-, hnew⟩
    · obtain ⟨pc₀, rfl, hreg⟩ := stepGoroutine_none hr hnext.symm
      obtain ⟨rfl, hfalse, hlen⟩ := hs.first _ _ hg
      refine ⟨rfl, ?_, ?_⟩
      · rcases hready with hsame | ⟨-, -, hdone⟩
        · exact hsame.trans hfalse
        · rw [hdone] at hnext
          cases hnext
      · intro hpc
        have hlen := hlen (hreg hpc)
        have hspawns := stepGoroutine_spawns hr
        have hspawned : r.spawned = [] := by
          cases hspawned : r.spawned with
          | nil => rfl
          | cons x xs =>
            rw [hspawned] at hspawns
            cases hspawns with
            | watchPub | watchCons => exact absurd (hreg hpc) (by decide)
        simp only [advance, hspawned, List.append_nil, List.length_set]
        exact hlen
    · obtain ⟨rfl, hfalse, hlen⟩ := hs.first _ _ hold
      have hlt := (List.getElem?_eq_some_iff.mp hg).1
      refine ⟨rfl, ?_, ?_⟩
      · rcases hready with hsame | ⟨rfl, -, -⟩
        · exact hsame.trans hfalse
        · exact absurd (hs.first _ _ hg).1 (Ne.symm hne)
      · intro hpc
        have hone := hlen hpc
        omega
    · have hspawns := stepGoroutine_spawns hr
      have hmem := List.mem_of_getElem? hnew
      generalize r.spawned = spawned at hspawns hmem
      cases hspawns <;> simp at hmem
  · intro hcalled
    have htrue := hs.called (stepGoroutine_closeCalled hr ▸ hcalled)
    rcases hready with hready | ⟨-, hready, -⟩
    · exact hready.trans htrue
    · exact hready

theorem step_starting (s : Sys) (a : Action) (t : Sys) (hs : Starting s) (h : step c s a = some t) :
    Starting t := by
  cases step_sysStep h with
  | run i choice g r hg hr => exact hs.run hg hr
  | connLost conn hopen | channelError ch hopen => exact ⟨hs.first, hs.called⟩
  | publish hready =>
    refine ⟨?_, hs.called⟩
    intro i pc hi
    have hmem := List.mem_of_getElem? hi
    simp only [List.mem_append, List.mem_singleton, reduceCtorEq, or_false] at hmem
    exact absurd hmem (hs.not_mem hready pc)
  | close hready hnew =>
    refine ⟨?_, fun _ => hready⟩
    intro i pc hi
    have hmem := List.mem_of_getElem? hi
    simp only [List.mem_append, List.mem_singleton, reduceCtorEq, or_false] at hmem
    exact absurd hmem (hs.not_mem hready pc)

theorem newClient_starting : Starting newClient := by
  refine ⟨?_, fun h => absurd h (by decide)⟩
  intro i pc hi
  cases i with
  | zero => exact ⟨rfl, rfl, fun _ => rfl⟩
  | succ i => simp [newClient] at hi

theorem run_starting {as : List Action} {s : Sys} (h : exec (step c) newClient as = some s) : Starting s :=
  exec_invariant step_starting newClient_starting h

/-! ### One dialler at a time -/

/- Between the entry of `NewClient`'s `connect`, or a won compare-and-swap, and the
store of `StateConnected` or `StateDisconnected`; a failed dial of `NewClient` until
it returns. -/
def Goroutine.dialling : Goroutine → Bool
  | .connect _ pc => !pc.registers
  | .waiting _ | .check _ | .stop => true
  | _ => false

theorem dialling_counts {g : Goroutine} (h : g.dialling = true) :
    g.dials + g.loops = 1 ∨ ∃ conns, g = .connect none (.abort conns) := by
  cases g with
  | connect loop pc =>
    cases pc with
    | abort conns =>
      cases loop with
      | none => exact .inr ⟨conns, rfl⟩
      | some backoff => exact .inl rfl
    | watchPub | watchCons => cases h
    | _ => exact .inl rfl
  | waiting | check | stop => exact .inl rfl
  | _ => cases h

theorem total_dialling (gs : List Goroutine) :
    total (fun g => g.dials + g.loops) gs = total Goroutine.dials gs + total Goroutine.loops gs := by
  induction gs with
  | nil => rfl
  | cons g gs ih =>
    simp only [total_cons, ih]
    omega

-- While a failed `connect` of `NewClient` closes what it dialled, there is no other goroutine.
theorem Starting.abort_alone {s : Sys} (hs : Starting s) {i j : Nat} {conns : List Nat} {g : Goroutine}
    (hi : s.gs[i]? = some (.connect none (.abort conns))) (hj : s.gs[j]? = some g) : i = j := by
  obtain ⟨rfl, -, hlen⟩ := hs.first i _ hi
  have hone := hlen rfl
  have hlt := (List.getElem?_eq_some_iff.mp hj).1
  omega

/-- At any time of any run at most one goroutine is in the dialling phase. -/
theorem one_dialler (c : Config) (as : List Action) (s : Sys)
    (h : exec (step c) newClient as = some s) (i j : Nat) (g g' : Goroutine)
    (hi : s.gs[i]? = some g) (hj : s.gs[j]? = some g')
    (hg : g.dialling = true) (hg' : g'.dialling = true) : i = j := by
  have hstart := run_starting h
  have hone := (run_oneDialler h).one
  rcases dialling_counts hg with hcount | ⟨conns, rfl⟩
  · rcases dialling_counts hg' with hcount' | ⟨conns, rfl⟩
    · by_contra hij
      have htwo := add_le_total (f := fun g => g.dials + g.loops) hi hj hij
      have hsum := total_dialling s.gs
      simp only [Sys.dials, Sys.loops] at hone
      omega
    · exact (hstart.abort_alone hj hi).symm
  · exact hstart.abort_alone hi hj

/- Both connections are lost and both handlers run `triggerReconnect`; the loop the
first of them started enters `connect`. -/
def bothLost : List Action :=
  connectSteps 0 ++ ([.connLost 0, .connLost 1, .run 1 .go, .run 2 .go, .run 3 .go, .run 3 .go, .run 3 .go,
    .run 3 .go, .run 4 .go, .run 4 .go, .run 5 .go, .run 5 .go] : List Action)

theorem one_dialler_bothLost :
    ∃ s g, exec (step small) newClient bothLost = some s ∧ s.gs[5]? = some g ∧ g.dialling = true ∧
      ∀ j g', s.gs[j]? = some g' → g'.dialling = true → j = 5 :=
  ⟨_, _, rfl, rfl, rfl, fun j g' hj hg' => one_dialler small bothLost _ rfl j 5 g' _ hj rfl hg' rfl⟩

end Ghost.Rabbitmq.Client
