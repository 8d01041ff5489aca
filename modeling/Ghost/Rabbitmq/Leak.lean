import Ghost.Rabbitmq.Lifecycle

/-!
# Dialled connections (rabbitmq/client.go)

`connect` dials a pair of connections and installs it over the pair before, which
it does not close. That is right when both connections of the old pair are gone.
When only one of them was lost, the other stays open and nobody holds it any more:
no later `connect` and not `Close` either will close it.
-/

namespace Ghost.Rabbitmq.Client
open Go Threads Transition

variable {c : Config}

-- dialled, and about to be installed
def Goroutine.pending : Goroutine → List Nat
  | .connect _ (.dialCons pub) => [pub]
  | .connect _ (.install pub cons) => [pub, cons]
  | _ => []

-- dialled, and to be installed or closed by the goroutine
def Goroutine.conns : Goroutine → List Nat
  | .connect _ (.abort conns) => conns
  | g => g.pending

def Goroutine.connects : Goroutine → Bool
  | .connect _ _ => true
  | _ => false

-- runs `reconnectWithBackoff`
def Goroutine.reconnects : Goroutine → Bool
  | .connect (some _) _ | .waiting _ | .check _ | .stop | .restore | .restoring _ => true
  | _ => false

/-- No dialled connection is lost track of: without a `connect` under way every open
connection is installed, and none is open once `Close` has returned and the
reconnect goroutines have ended. -/
structure NoLeak (s : Sys) : Prop where
  installed : (∀ g ∈ s.gs, g.connects = false) →
    ∀ conn, s.shared.connOpen conn = true → conn ∈ s.shared.installed
  closed : s.shared.closeCalled = true → s.closes = 0 → (∀ g ∈ s.gs, g.reconnects = false) →
    ∀ conn, s.shared.connOpen conn = false

/-- A pair is installed over a pair of closed connections, unless the pool has been
closed: then `connect` never leaves its drain. -/
def InstallsOverClosed (s : Sys) : Action → Prop
  | .run i _ => (s.gs[i]?).any Goroutine.installs = true → s.shared.channelsClosed = false →
      ∀ conn ∈ s.shared.installed, s.shared.connOpen conn = false
  | _ => True

instance (s : Sys) : (a : Action) → Decidable (InstallsOverClosed s a)
  | .run i _ => inferInstanceAs (Decidable ((s.gs[i]?).any Goroutine.installs = true →
      s.shared.channelsClosed = false → ∀ conn ∈ s.shared.installed, s.shared.connOpen conn = false))
  | .connLost _ | .channelError _ | .publish | .close => .isTrue trivial

section Effect

variable {s : Shared} {g : Goroutine} {choice : Choice} {r : Result}

/-- What a step does to the connections. -/
inductive ConnEffect (s : Shared) (g : Goroutine) (r : Result) : Prop where
  | dial (hshared : r.shared = s.dial) (hpending : r.next.pending = g.pending ++ [s.nextConn])
      (hconns : r.next.conns = g.conns ++ [s.nextConn])
  | install (loop : Option Int) (pub cons : Nat) (hg : g = .connect loop (.install pub cons))
      (hr : r = ⟨{ s with publisherConn := some pub, consumerConn := some cons },
        .connect loop (.drain pub cons), []⟩)
  -- nothing is opened, and what the goroutine drops is closed
  | keep (hpub : r.shared.publisherConn = s.publisherConn) (hcons : r.shared.consumerConn = s.consumerConn)
      (hnext : r.shared.nextConn = s.nextConn)
      (hopen : ∀ conn, r.shared.connOpen conn = true → s.connOpen conn = true)
      (hpending : ∀ conn ∈ r.next.pending, conn ∈ g.pending)
      (hconns : ∀ conn ∈ g.conns, r.shared.connOpen conn = true → conn ∈ r.next.conns)

-- A step that opens no connection, of a goroutine that owns none.
theorem keep_conns (hpub : r.shared.publisherConn = s.publisherConn)
    (hcons : r.shared.consumerConn = s.consumerConn) (hnext : r.shared.nextConn = s.nextConn)
    (hopen : ∀ conn, r.shared.connOpen conn = true → s.connOpen conn = true)
    (hpending : r.next.pending = []) (hg : g.conns = []) : ConnEffect s g r :=
  .keep hpub hcons hnext hopen (by simp [hpending]) (by simp [hg])

theorem closeConn_open {s : Shared} {conn x : Nat} (h : (s.closeConn conn).connOpen x = true) :
    x ≠ conn ∧ s.connOpen x = true := by
  simp only [Shared.closeConn, Function.update_apply] at h
  split at h
  · cases h
  · exact ⟨‹_›, h⟩

theorem drainRound_conns {again next : Goroutine} (hg : g.conns = []) (ha : again.pending = [])
    (hn : next.pending = []) : ConnEffect s g (drainRound s again next) := by
  unfold drainRound
  split
  · exact keep_conns rfl rfl rfl (fun _ => id) ha hg
  · refine keep_conns rfl rfl rfl (fun _ => id) ?_ hg
    show (if s.channelsClosed = true then again else next).pending = []
    split
    · exact ha
    · exact hn

theorem connectStep_conns {loop : Option Int} {pc : ConnectPc} (h : ConnectStep c s loop pc r) :
    ConnEffect s (.connect loop pc) r := by
  cases h with
  | dialPub | dialCons => exact .dial rfl rfl rfl
  | install pub cons => exact .install loop pub cons rfl rfl
  | drain => exact drainRound_conns rfl rfl rfl
  | dialConsFailed pub => exact .keep rfl rfl rfl (fun _ => id) (by simp [Goroutine.pending]) (fun _ h _ => h)
  | abort conn conns =>
    refine .keep rfl rfl rfl (fun x hx => (closeConn_open hx).2) (by simp [Goroutine.pending]) ?_
    intro x hx hopen
    rcases List.mem_cons.mp hx with rfl | hx
    · exact absurd rfl (closeConn_open hopen).1
    · exact hx
  | watchCons | aborted => cases loop <;> exact keep_conns rfl rfl rfl (fun _ => id) rfl rfl
  | _ => exact keep_conns rfl rfl rfl (fun _ => id) rfl rfl

/-- What `Close` does to an installed connection, if there is one. -/
theorem closed_conns {t : Shared} (conn : Option Nat)
    (ht : t = match conn with
      | none => s
      | some conn => s.closeConn conn) :
    t.publisherConn = s.publisherConn ∧ t.consumerConn = s.consumerConn ∧ t.nextConn = s.nextConn ∧
      (∀ x, t.connOpen x = true → s.connOpen x = true) ∧ (∀ x, conn = some x → t.connOpen x = false) := by
  subst ht
  cases conn with
  | none => exact ⟨rfl, rfl, rfl, fun _ => id, by simp⟩
  | some conn =>
    refine ⟨rfl, rfl, rfl, fun x hx => (closeConn_open hx).2, ?_⟩
    intro x hx
    cases hx
    simp [Shared.closeConn]

theorem closeStep_conns {pc : ClosePc} (h : CloseStep s pc r) : ConnEffect s (.close pc) r := by
  cases h with
  | closePub =>
    obtain ⟨hpub, hcons, hnext, hopen, -⟩ := closed_conns (s := s) s.publisherConn rfl
    exact keep_conns hpub hcons hnext hopen rfl rfl
  | closeCons =>
    obtain ⟨hpub, hcons, hnext, hopen, -⟩ := closed_conns (s := s) s.consumerConn rfl
    exact keep_conns hpub hcons hnext hopen rfl rfl
  | _ => exact keep_conns rfl rfl rfl (fun _ => id) rfl rfl

theorem loopStep_conns (h : LoopStep c s g r) : ConnEffect s g r := by
  cases h with
  | drain => exact drainRound_conns rfl rfl rfl
  | _ => exact keep_conns rfl rfl rfl (fun _ => id) rfl rfl

theorem stepGoroutine_conns (h : stepGoroutine c s g choice = some r) : ConnEffect s g r := by
  cases stepGoroutine_cases h with
  | connect hstep => exact connectStep_conns hstep
  | producer hstep => cases hstep <;> exact keep_conns rfl rfl rfl (fun _ => id) rfl rfl
  | close hstep => exact closeStep_conns hstep
  | loop hstep => exact loopStep_conns hstep

-- `Close` before its last statement has closed the publisher connection, and at its end both.
theorem closeStep_closed {pc : ClosePc} (h : CloseStep s pc r) :
    (r.next = .close .closeCons → ∀ conn, s.publisherConn = some conn → r.shared.connOpen conn = false) ∧
      (pc = .closeCons → ∀ conn, s.consumerConn = some conn → r.shared.connOpen conn = false) := by
  cases h with
  | closePub => exact ⟨fun _ => (closed_conns (s := s) s.publisherConn rfl).2.2.2.2, fun h => by cases h⟩
  | closeCons => exact ⟨fun h => (by cases h), fun _ => (closed_conns (s := s) s.consumerConn rfl).2.2.2.2⟩
  | _ => exact ⟨fun h => (by cases h), fun h => by cases h⟩

theorem Spawns.pending {spawned : List Goroutine} (h : Spawns s g spawned) :
    ∀ x ∈ spawned, x.pending = [] := by
  cases h <;> simp [Goroutine.pending]

end Effect

/-! ### The connections a client has made -/

/-- Connections that are installed or about to be have been dialled, so no dial
opens one of them a second time. -/
structure Made (s : Sys) : Prop where
  installed : ∀ conn ∈ s.shared.installed, conn < s.shared.nextConn
  pending : ∀ g ∈ s.gs, ∀ conn ∈ g.pending, conn < s.shared.nextConn

theorem Made.run {s : Sys} {i : Nat} {g : Goroutine} {r : Result} (hs : Made s)
    (hg : s.gs[i]? = some g) (heff : ConnEffect s.shared g r) (hspawned : ∀ x ∈ r.spawned, x.pending = []) :
    Made ⟨r.shared, advance s.gs i r.next r.spawned⟩ := by
  have hown := hs.pending g (List.mem_of_getElem? hg)
  have hpending : ∀ n, s.shared.nextConn ≤ n → (∀ conn ∈ r.next.pending, conn < n) →
      ∀ x ∈ advance s.gs i r.next r.spawned, ∀ conn ∈ x.pending, conn < n := by
    intro n hle hnext x hx conn hconn
    rcases mem_advance hx with ⟨j, -, hj⟩ | rfl | hx
    · exact Nat.lt_of_lt_of_le (hs.pending x (List.mem_of_getElem? hj) conn hconn) hle
    · exact hnext conn hconn
    · rw [hspawned x hx] at hconn
      cases hconn
  cases heff with
  | dial hshared hnext hconns =>
    have hn : r.shared.nextConn = s.shared.nextConn + 1 := by rw [hshared]; rfl
    refine ⟨?_, hpending r.shared.nextConn (by omega) ?_⟩
    · intro conn hconn
      have hlt := hs.installed conn (by rw [hshared] at hconn; exact hconn)
      show conn < r.shared.nextConn
      omega
    · intro conn hconn
      rw [hnext, List.mem_append, List.mem_singleton] at hconn
      rcases hconn with hconn | rfl
      · have hlt := hown conn hconn
        omega
      · omega
  | install loop pub cons hgone hr =>
    subst hgone hr
    refine ⟨?_, hpending _ (Nat.le_refl _) (by simp [Goroutine.pending])⟩
    intro conn hconn
    rcases mem_installed.mp hconn with h | h <;> cases h
    · exact hown pub (by simp [Goroutine.pending])
    · exact hown cons (by simp [Goroutine.pending])
  | keep hpub hcons hnext hopen hnp hconns =>
    refine ⟨?_, hpending _ (Nat.le_of_eq hnext.symm) ?_⟩
    · intro conn hconn
      rw [mem_installed, hpub, hcons, ← mem_installed] at hconn
      exact Nat.lt_of_lt_of_eq (hs.installed conn hconn) hnext.symm
    · intro conn hconn
      exact Nat.lt_of_lt_of_eq (hown conn (hnp conn hconn)) hnext.symm

theorem step_made (s : Sys) (a : Action) (t : Sys) (hs : Made s) (h : step c s a = some t) : Made t := by
  cases step_sysStep h with
  | run i choice g r hg hr =>
    exact hs.run hg (stepGoroutine_conns hr) (stepGoroutine_spawns hr).pending
  | connLost conn hopen | channelError ch hopen => exact ⟨hs.installed, hs.pending⟩
  | publish hready | close hready hnew =>
    refine ⟨hs.installed, ?_⟩
    simpa [Goroutine.pending, or_imp, forall_and] using hs.pending

/-! ### Every open connection is accounted for -/

/-- A `connect` that drains a closed pool goes round for ever. -/
def Stuck (s : Sys) : Prop :=
  s.shared.channelsClosed = true ∧ ∃ loop pub cons, .connect loop (.drain pub cons) ∈ s.gs

structure Accounted (s : Sys) : Prop where
  owned : ∀ conn, s.shared.connOpen conn = true →
    conn ∈ s.shared.installed ∨ ∃ g ∈ s.gs, conn ∈ g.conns
  -- before the last statement of `Close`, and after it
  closedPub : .close .closeCons ∈ s.gs →
    ∀ conn, s.shared.publisherConn = some conn → s.shared.connOpen conn = false
  closed : s.shared.closeCalled = true → s.closes = 0 →
    ∀ conn ∈ s.shared.installed, s.shared.connOpen conn = false

theorem drainRound_stuck {s : Shared} {again next : Goroutine} (h : s.channelsClosed = true) :
    (drainRound s again next).next = again := by
  unfold drainRound
  split
  · rfl
  · exact if_pos h

theorem closeStep_channelsClosed {s : Shared} {pc : ClosePc} {r : Result} (h : CloseStep s pc r)
    (hs : s.channelsClosed = true) : r.shared.channelsClosed = true := by
  cases h with
  | closePub => cases s.publisherConn <;> exact hs
  | closeCons => cases s.consumerConn <;> exact hs
  | closeChannels => rfl
  | _ => exact hs

theorem Stuck.run {s : Sys} {i : Nat} {choice : Choice} {g : Goroutine} {r : Result} (hs : Stuck s)
    (hg : s.gs[i]? = some g) (hr : stepGoroutine c s.shared g choice = some r) :
    Stuck ⟨r.shared, advance s.gs i r.next r.spawned⟩ := by
  obtain ⟨hclosed, loop, pub, cons, hmem⟩ := hs
  refine ⟨?_, loop, pub, cons, ?_⟩
  · rcases stepGoroutine_close hr with ⟨pc, -, hstep⟩ | ⟨-, hflags, -⟩
    · exact closeStep_channelsClosed hstep hclosed
    · exact hflags.channelsClosed.trans hclosed
  · have hdrain : ∃ x ∈ advance s.gs i r.next r.spawned, x = .connect loop (.drain pub cons) := by
      refine exists_mem_advance hg ⟨_, hmem, rfl⟩ ?_
      rintro rfl
      left
      cases stepGoroutine_cases hr with
      | connect hstep =>
        cases hstep
        exact drainRound_stuck hclosed
      | loop hstep => cases hstep
    obtain ⟨x, hx, rfl⟩ := hdrain
    exact hx

-- The installed connections stay closed, and `Close` closes them where it says so.
theorem Accounted.keep {s : Sys} {i : Nat} {choice : Choice} {g : Goroutine} {r : Result}
    (hphase : ClosePhase s) (hs : Accounted s) (hg : s.gs[i]? = some g)
    (hr : stepGoroutine c s.shared g choice = some r)
    (hpub : r.shared.publisherConn = s.shared.publisherConn)
    (hcons : r.shared.consumerConn = s.shared.consumerConn)
    (hopen : ∀ conn ∈ s.shared.installed, s.shared.connOpen conn = false → r.shared.connOpen conn = false)
    (howned : ∀ conn, r.shared.connOpen conn = true →
      conn ∈ s.shared.installed ∨ ∃ x ∈ advance s.gs i r.next r.spawned, conn ∈ x.conns) :
    Accounted ⟨r.shared, advance s.gs i r.next r.spawned⟩ := by
  have hinst : r.shared.installed = s.shared.installed := by simp only [Shared.installed, hpub, hcons]
  have hlast : .close .closeCons ∈ s.gs → ∀ conn, s.shared.publisherConn = some conn →
      r.shared.connOpen conn = false := by
    intro hmem conn hconn
    exact hopen conn (mem_installed.mpr (.inl hconn)) (hs.closedPub hmem conn hconn)
  refine ⟨?_, ?_, ?_⟩
  · intro conn hconn
    rw [hinst]
    exact howned conn hconn
  · intro hmem conn hconn
    rw [hpub] at hconn
    rcases mem_advance hmem with ⟨j, -, hj⟩ | hnext | hspawned
    · exact hlast (List.mem_of_getElem? hj) conn hconn
    · rcases stepGoroutine_close hr with ⟨pc, -, hstep⟩ | ⟨-, -, hnoclose⟩
      · exact (closeStep_closed hstep).1 hnext.symm conn hconn
      · rw [← hnext] at hnoclose
        cases hnoclose
    · have hzero := (stepGoroutine_spawns hr).closes
      have hone := le_total (f := Goroutine.closes) hspawned
      simp only [Goroutine.closes] at hone
      omega
  · intro hcalled hcloses conn hconn
    rw [hinst] at hconn
    rcases hphase.returns hg hr hcalled hcloses with ⟨hcalled, hcloses⟩ | rfl
    · exact hopen conn hconn (hs.closed hcalled hcloses conn hconn)
    · rcases mem_installed.mp hconn with hconn | hconn
      · exact hlast (List.mem_of_getElem? hg) conn hconn
      · cases stepGoroutine_cases hr with
        | close hstep => exact (closeStep_closed hstep).2 rfl conn hconn
        | loop hstep => cases hstep

theorem Accounted.install {s : Sys} {i : Nat} {loop : Option Int} {pub cons : Nat}
    (hphase : ClosePhase s) (hs : Accounted s) (hg : s.gs[i]? = some (.connect loop (.install pub cons)))
    (hopen : s.shared.channelsClosed = false)
    (hclosed : ∀ conn ∈ s.shared.installed, s.shared.connOpen conn = false) :
    Accounted ⟨{ s.shared with publisherConn := some pub, consumerConn := some cons },
      advance s.gs i (.connect loop (.drain pub cons)) []⟩ := by
  refine ⟨?_, ?_, ?_⟩
  · intro conn hconn
    rcases hs.owned conn hconn with hinst | ⟨x, hx, hown⟩
    · exact absurd (hconn.symm.trans (hclosed conn hinst)) (by decide)
    · obtain ⟨j, hj⟩ := List.mem_iff_getElem?.mp hx
      by_cases hij : i = j
      · subst hij
        rw [hg] at hj
        cases hj
        left
        rw [mem_installed]
        simpa [Goroutine.conns, Goroutine.pending, eq_comm] using hown
      · exact .inr ⟨x, List.mem_of_getElem? (getElem?_advance_ne hj hij), hown⟩
  · intro hmem
    rcases mem_advance hmem with ⟨j, -, hj⟩ | hnext | hspawned
    · exact absurd (hopen.symm.trans (hphase.flags_close hj).2.2.channelsClosed) (by decide)
    · cases hnext
    · cases hspawned
  · intro hcalled hcloses
    have htotal := total_advance (f := Goroutine.closes) (.connect loop (.drain pub cons)) [] hg
    simp only [Sys.closes] at hcloses
    rw [hcloses] at htotal
    have hzero : s.closes = 0 := by
      simp only [Sys.closes]
      simpa [Goroutine.closes] using htotal.symm
    cases hphase with
    | before hfalse => exact absurd (hfalse.symm.trans hcalled) (by decide)
    | during pc _ _ hone => omega
    | after _ _ hflags => exact absurd (hopen.symm.trans hflags.channelsClosed) (by decide)

theorem Accounted.run {s : Sys} {i : Nat} {choice : Choice} {g : Goroutine} {r : Result}
    (hphase : ClosePhase s) (hmade : Made s) (hs : Accounted s)
    (hok : InstallsOverClosed s (.run i choice)) (hg : s.gs[i]? = some g)
    (hr : stepGoroutine c s.shared g choice = some r) :
    Stuck ⟨r.shared, advance s.gs i r.next r.spawned⟩ ∨
      Accounted ⟨r.shared, advance s.gs i r.next r.spawned⟩ := by
  cases stepGoroutine_conns hr with
  | dial hshared hpending hconns =>
    right
    refine hs.keep hphase hg hr (by rw [hshared]; rfl) (by rw [hshared]; rfl) ?_ ?_
    · intro conn hconn hclosed
      have hlt := hmade.installed conn hconn
      rw [hshared]
      simp only [Shared.dial]
      rw [Function.update_of_ne (by omega)]
      exact hclosed
    · intro conn hconn
      rw [hshared] at hconn
      simp only [Shared.dial, Function.update_apply] at hconn
      split at hconn
      · right
        refine ⟨r.next, List.mem_of_getElem? (getElem?_advance_self hg), ?_⟩
        rw [hconns]
        simp [*]
      · rcases hs.owned conn hconn with hinst | hown
        · exact .inl hinst
        · refine .inr (exists_mem_advance hg hown fun h => .inl ?_)
          rw [hconns]
          exact List.mem_append_left _ h
  | install loop pub cons hgone hres =>
    subst hgone hres
    by_cases hclosed : s.shared.channelsClosed = true
    · exact .inl ⟨hclosed, loop, pub, cons, List.mem_of_getElem? (getElem?_advance_self hg)⟩
    · have hfalse := eq_false_of_ne_true hclosed
      exact .inr (hs.install hphase hg hfalse (hok (by rw [hg]; rfl) hfalse))
  | keep hpub hcons hnext hopen hpending hconns =>
    right
    refine hs.keep hphase hg hr hpub hcons ?_ ?_
    · intro conn hconn hclosed
      exact Bool.eq_false_iff.mpr fun h => absurd (hclosed.symm.trans (hopen conn h)) (by decide)
    · intro conn hconn
      rcases hs.owned conn (hopen conn hconn) with hinst | hown
      · exact .inl hinst
      · exact .inr (exists_mem_advance hg hown fun h => .inl (hconns conn h hconn))

-- What the broker does closes connections at most.
theorem Accounted.environment {s : Sys} {t : Shared} (hs : Accounted s)
    (hpub : t.publisherConn = s.shared.publisherConn) (hcons : t.consumerConn = s.shared.consumerConn)
    (hcalled : t.closeCalled = s.shared.closeCalled)
    (hopen : ∀ conn, t.connOpen conn = true → s.shared.connOpen conn = true) : Accounted ⟨t, s.gs⟩ := by
  have hinst : t.installed = s.shared.installed := by simp only [Shared.installed, hpub, hcons]
  have hclosed : ∀ conn, s.shared.connOpen conn = false → t.connOpen conn = false := by
    intro conn hfalse
    exact Bool.eq_false_iff.mpr fun h => absurd (hfalse.symm.trans (hopen conn h)) (by decide)
  refine ⟨?_, ?_, ?_⟩
  · intro conn hconn
    rw [hinst]
    exact hs.owned conn (hopen conn hconn)
  · intro hmem conn hconn
    exact hclosed conn (hs.closedPub hmem conn (hpub ▸ hconn))
  · intro hc h0 conn hconn
    exact hclosed conn (hs.closed (hcalled ▸ hc) h0 conn (hinst ▸ hconn))

theorem Accounted.owned_append {s : Sys} (hs : Accounted s) (g : Goroutine) (conn : Nat)
    (hconn : s.shared.connOpen conn = true) :
    conn ∈ s.shared.installed ∨ ∃ x ∈ s.gs ++ [g], conn ∈ x.conns := by
  rcases hs.owned conn hconn with hinst | ⟨x, hx, hown⟩
  · exact .inl hinst
  · exact .inr ⟨x, List.mem_append_left _ hx, hown⟩

theorem step_accounted {s t : Sys} {a : Action} (hphase : ClosePhase s) (hmade : Made s)
    (hs : Stuck s ∨ Accounted s) (hok : InstallsOverClosed s a) (h : step c s a = some t) :
    Stuck t ∨ Accounted t := by
  cases step_sysStep h with
  | run i choice g r hg hr =>
    rcases hs with hs | hs
    · exact .inl (hs.run hg hr)
    · exact hs.run hphase hmade hok hg hr
  | connLost conn hopen =>
    rcases hs with hs | hs
    · exact .inl hs
    · exact .inr (hs.environment rfl rfl rfl fun x hx => (closeConn_open hx).2)
  | channelError ch hopen =>
    rcases hs with hs | hs
    · exact .inl hs
    · exact .inr (hs.environment rfl rfl rfl fun _ => id)
  | publish hready =>
    rcases hs with ⟨hclosed, loop, pub, cons, hmem⟩ | hs
    · exact .inl ⟨hclosed, loop, pub, cons, List.mem_append_left _ hmem⟩
    · refine .inr ⟨hs.owned_append _, ?_, ?_⟩
      · intro hmem
        simp only [List.mem_append, List.mem_singleton, reduceCtorEq, or_false] at hmem
        exact hs.closedPub hmem
      · intro hcalled hcloses
        simp only [Sys.closes, total_append, total_cons, total_nil] at hcloses
        exact hs.closed hcalled (by simp only [Sys.closes]; omega)
  | close hready hnew =>
    rcases hs with ⟨hclosed, loop, pub, cons, hmem⟩ | hs
    · exact .inl ⟨hclosed, loop, pub, cons, List.mem_append_left _ hmem⟩
    · refine .inr ⟨hs.owned_append _, ?_, ?_⟩
      · intro hmem
        simp only [List.mem_append, List.mem_singleton, Goroutine.close.injEq, reduceCtorEq, or_false] at hmem
        exact hs.closedPub hmem
      · intro hcalled hcloses
        simp only [Sys.closes, total_append, total_cons, Goroutine.closes] at hcloses
        omega

structure Tracked (s : Sys) : Prop where
  phase : ClosePhase s
  starting : Starting s
  made : Made s
  accounted : Stuck s ∨ Accounted s

theorem step_tracked (s : Sys) (a : Action) (t : Sys) (hs : Tracked s) (hok : InstallsOverClosed s a)
    (h : step c s a = some t) : Tracked t :=
  ⟨step_phase s a t hs.phase h, step_starting s a t hs.starting h, step_made s a t hs.made h,
    step_accounted hs.phase hs.made hs.accounted hok h⟩

theorem newClient_tracked : Tracked newClient := by
  refine ⟨newClient_phase, newClient_starting, ⟨?_, ?_⟩, .inr ⟨?_, ?_, ?_⟩⟩
  · simp [newClient, newShared, Shared.installed]
  · simp [newClient, Goroutine.pending]
  · simp [newClient, newShared]
  · simp [newClient]
  · simp [newClient, newShared]

theorem connect_of_mem_conns {g : Goroutine} {conn : Nat} (h : conn ∈ g.conns) :
    ∃ loop pc, g = .connect loop pc := by
  cases g with
  | connect loop pc => exact ⟨loop, pc, rfl⟩
  | _ => cases h

theorem Tracked.noLeak {s : Sys} (hs : Tracked s) : NoLeak s := by
  rcases hs.accounted with ⟨hclosed, loop, pub, cons, hmem⟩ | hacc
  · -- the `connect` that is stuck in its drain has not returned
    refine ⟨?_, ?_⟩
    · intro hnone
      cases hnone _ hmem
    · intro hcalled hcloses hnone
      cases loop with
      | none => exact absurd hmem (hs.starting.not_mem (hs.starting.called hcalled) _)
      | some backoff => cases hnone _ hmem
  · refine ⟨?_, ?_⟩
    · intro hnone conn hconn
      rcases hacc.owned conn hconn with hinst | ⟨g, hg, hown⟩
      · exact hinst
      · obtain ⟨loop, pc, rfl⟩ := connect_of_mem_conns hown
        cases hnone _ hg
    · intro hcalled hcloses hnone conn
      rw [Bool.eq_false_iff]
      intro hconn
      rcases hacc.owned conn hconn with hinst | ⟨g, hg, hown⟩
      · exact absurd (hconn.symm.trans (hacc.closed hcalled hcloses conn hinst)) (by decide)
      · obtain ⟨loop, pc, rfl⟩ := connect_of_mem_conns hown
        cases loop with
        | none => exact absurd hg (hs.starting.not_mem (hs.starting.called hcalled) pc)
        | some backoff => cases hnone _ hg

/-- In every run in which `connect` installs its pair over closed connections only,
no connection is leaked. -/
theorem no_leak (c : Config) (as : List Action) (s : Sys) (h : exec (step c) newClient as = some s)
    (hok : Meets (step c) InstallsOverClosed newClient as) : NoLeak s :=
  (exec_invariant_meets step_tracked newClient_tracked hok h).noLeak

/- Both connections are lost, the loop of the first handler connects again and
restores the empty topology, and the client is closed. -/
def lostTogether : List Action := bothLost ++ connectSteps 5 ++ [.run 5 .go, .run 5 .go, .close] ++ closeSteps 8

theorem no_leak_lostTogether :
    ∃ s, exec (step small) newClient lostTogether = some s ∧
      Meets (step small) InstallsOverClosed newClient lostTogether ∧
      s.shared.nextConn = 4 ∧ s.shared.closeCalled = true ∧ s.closes = 0 ∧
      ∀ conn, s.shared.connOpen conn = false := by
  have hok : Meets (step small) InstallsOverClosed newClient lostTogether := meets_of_checks rfl
  refine ⟨_, rfl, hok, rfl, rfl, rfl, ?_⟩
  exact (no_leak small lostTogether _ rfl hok).closed rfl rfl (by decide)

/- Only the consumer connection is lost. The loop installs a new pair over it and
over the open publisher connection 0, and `Close` closes that new pair. -/
def lostAlone : List Action :=
  connectSteps 0 ++ ([.connLost 1, .run 2 .go, .run 3 .go, .run 3 .go, .run 3 .go, .run 3 .go] : List Action) ++
    List.replicate 15 (.run 4 .go) ++ .close :: closeSteps 7

theorem lostAlone_leaks :
    ∃ s, exec (step small) newClient lostAlone = some s ∧ (∀ g ∈ s.gs, g.connects = false) ∧
      s.shared.installed = [2, 3] ∧ s.shared.closeCalled = true ∧ s.closes = 0 ∧
      (∀ g ∈ s.gs, g.reconnects = false) ∧ s.shared.connOpen 0 = true := by
  refine ⟨_, rfl, ?_, rfl, rfl, rfl, ?_, rfl⟩ <;> decide

end Ghost.Rabbitmq.Client
