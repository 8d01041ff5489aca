import Ghost.Rabbitmq.Notice

/-!
# Connected before restored (rabbitmq/client.go, rabbitmq/topology.go)

`connect` stores `StateConnected`, and only then does the reconnect loop call
`restoreTopology`. In between every operation that reads the state finds the
client connected while the queues it may use are not there yet. The client runs
here together with the application's own declarations, which fill the cache.
-/

namespace Ghost.Rabbitmq.Client
open Go Threads Transition

variable {c : Config}

/-! ### Declarations of the application -/

-- `DeclareExchange`, `DeclareQueue` or `BindQueue`, past `CreateConsumerChannel`
inductive Decl where
  | checked (e : Entry)
  -- the broker has accepted it, and the cache does not hold it yet
  | accepted (e : Entry)
  | done
  deriving DecidableEq

structure App where
  client : Sys
  decls : List Decl

inductive Op where
  | client (a : Action)
  | declare (e : Entry)
  | accept (k : Nat)
  | cache (k : Nat)
  deriving DecidableEq

def Sys.declared (s : Sys) (e : Entry) : Sys :=
  { s with shared := { s.shared with topology := s.shared.topology.add e } }

def appStep (c : Config) (p : App) : Op → Option App
  | .client a => (step c p.client a).map fun t => { p with client := t }
  | .declare e =>
    if p.client.shared.ready = true ∧ p.client.shared.state = .connected then
      some { p with decls := p.decls ++ [.checked e] }
    else none
  | .accept k =>
    match p.decls[k]? with
    | some (.checked e) => some { p with decls := p.decls.set k (.accepted e) }
    | _ => none
  | .cache k =>
    match p.decls[k]? with
    | some (.accepted e) => some ⟨p.client.declared e, p.decls.set k .done⟩
    | _ => none

inductive AppStep (c : Config) (p : App) : Op → App → Prop where
  | client (a : Action) (t : Sys) (ht : step c p.client a = some t) : AppStep c p (.client a) ⟨t, p.decls⟩
  | declare (e : Entry) (hready : p.client.shared.ready = true) (hstate : p.client.shared.state = .connected) :
      AppStep c p (.declare e) { p with decls := p.decls ++ [.checked e] }
  | accept (k : Nat) (e : Entry) (hk : p.decls[k]? = some (.checked e)) :
      AppStep c p (.accept k) { p with decls := p.decls.set k (.accepted e) }
  | cache (k : Nat) (e : Entry) (hk : p.decls[k]? = some (.accepted e)) :
      AppStep c p (.cache k) ⟨p.client.declared e, p.decls.set k .done⟩

theorem appStep_step {p q : App} {op : Op} (h : appStep c p op = some q) : AppStep c p op q := by
  cases op with
  | client a =>
    obtain ⟨t, ht, rfl⟩ := Option.map_eq_some_iff.mp h
    exact .client a t ht
  | declare e =>
    simp only [appStep] at h
    split at h <;> cases h
    rename_i hboth
    exact .declare e hboth.1 hboth.2
  | accept k =>
    simp only [appStep] at h
    split at h <;> cases h
    exact .accept k _ ‹_›
  | cache k =>
    simp only [appStep] at h
    split at h <;> cases h
    exact .cache k _ ‹_›

def newApp : App := ⟨newClient, []⟩

/-- The note: what the broker has been asked to declare, by `restoreTopology` or
by the application, and has accepted. -/
def redeclare (p : App) (op : Op) (ds : List Entry) : List Entry :=
  match op with
  | .client (.run i .go) =>
    match p.client.gs[i]? with
    | some (.restoring (e :: _)) => ds ++ [e]
    | _ => ds
  | .accept k =>
    match p.decls[k]? with
    | some (.checked e) => ds ++ [e]
    | _ => ds
  | _ => ds

def Goroutine.restores : Goroutine → List Entry
  | .restoring rest => rest
  | _ => []

-- past the store of `StateConnected`, and before `restoreTopology` takes its snapshot
def Goroutine.restoresLater : Goroutine → Bool
  | .connect loop pc => pc.registers && loop.isSome
  | .restore => true
  | _ => false

/-- No re-declaration of `restoreTopology` fails. -/
def Redeclares (p : App) : Op → Prop
  | .client (.run i .fail) => ∀ g ∈ p.client.gs[i]?, g.restores = []
  | _ => True

instance (p : App) : (op : Op) → Decidable (Redeclares p op)
  | .client (.run i .fail) => inferInstanceAs (Decidable (∀ g ∈ p.client.gs[i]?, g.restores = []))
  | .client (.run _ .go) | .client (.run _ .quit) | .client (.connLost _) | .client (.channelError _)
  | .client .publish | .client .close | .declare _ | .accept _ | .cache _ => .isTrue trivial

/-- No reconnect is between its store of `StateConnected` and the end of `restoreTopology`. -/
def Settled (s : Sys) : Prop := ∀ g ∈ s.gs, g.restoresLater = false ∧ g.restores = []

instance (s : Sys) : Decidable (Settled s) :=
  inferInstanceAs (Decidable (∀ g ∈ s.gs, g.restoresLater = false ∧ g.restores = []))

section Effect

variable {s : Shared} {g : Goroutine} {choice : Choice} {r : Result}

/-- What a step does to the cache, to the entries still to be re-declared and to
who will re-declare them. -/
inductive RestoreEffect (s : Shared) (g : Goroutine) (choice : Choice) (r : Result) : Prop where
  | keep (htopology : r.shared.topology = s.topology) (hrestores : r.next.restores = g.restores)
      (hlater : g.restoresLater = true → r.next.restoresLater = true)
      (hstate : r.shared.state = .connected → s.state = .connected)
  | storeConnected (loop : Option Int) (htopology : r.shared.topology = s.topology)
      (hg : g = .connect loop .storeConnected) (hnext : r.next = .connect loop .watchPub)
  | restore (hg : g = .restore) (hnext : r.next = .restoring s.topology.entries)
      (htopology : r.shared.topology = .empty)
  | declared (e : Entry) (rest : List Entry) (hg : g = .restoring (e :: rest)) (hchoice : choice = .go)
      (hnext : r.next = .restoring rest) (htopology : r.shared.topology = s.topology.add e)
      (hstate : r.shared.state = s.state)
  | refused (e : Entry) (rest : List Entry) (hg : g = .restoring (e :: rest)) (hchoice : choice = .fail)
      (htopology : r.shared.topology = s.topology) (hnext : r.next = .done)
      (hstate : r.shared.state = s.state)

theorem drainRound_restore {again next : Goroutine} (ha : again.restores = g.restores)
    (hn : next.restores = g.restores) (hg : g.restoresLater = false) :
    RestoreEffect s g choice (drainRound s again next) := by
  have hlater : g.restoresLater = true → (drainRound s again next).next.restoresLater = true :=
    fun h => absurd (hg.symm.trans h) (by decide)
  have hrestores : (drainRound s again next).next.restores = g.restores := by
    rcases drainRound_next s again next with h | h <;> rw [h]
    · exact ha
    · exact hn
  refine .keep ?_ hrestores hlater ?_
  · unfold drainRound
    split <;> rfl
  · unfold drainRound
    split <;> exact id

-- A step that leaves the cache alone and does not store `StateConnected`.
theorem keep_restore (htopology : r.shared.topology = s.topology) (hrestores : r.next.restores = g.restores)
    (hlater : g.restoresLater = false) (hstate : r.shared.state = s.state ∨ r.shared.state ≠ .connected) :
    RestoreEffect s g choice r := by
  refine .keep htopology hrestores (fun h => absurd (hlater.symm.trans h) (by decide)) ?_
  intro h
  rcases hstate with hstate | hstate
  · exact hstate.symm.trans h
  · exact absurd h hstate

theorem connectStep_restore {loop : Option Int} {pc : ConnectPc} (h : ConnectStep c s loop pc r) :
    RestoreEffect s (.connect loop pc) choice r := by
  cases h with
  | storeConnecting => exact keep_restore rfl rfl rfl (.inr (by simp))
  | drain => exact drainRound_restore rfl rfl rfl
  | storeConnected => exact .storeConnected loop rfl rfl rfl
  | watchPub => exact .keep rfl rfl (by cases loop <;> exact id) id
  | watchCons => cases loop <;> exact .keep rfl rfl (by intro h; first | rfl | cases h) id
  | aborted => cases loop <;> exact keep_restore rfl rfl rfl (.inl rfl)
  | _ => exact keep_restore rfl rfl rfl (.inl rfl)

theorem closeStep_restore {pc : ClosePc} (h : CloseStep s pc r) : RestoreEffect s (.close pc) choice r := by
  cases h with
  | storeClosing => exact keep_restore rfl rfl rfl (.inr (by simp))
  | closePub => cases s.publisherConn <;> exact keep_restore rfl rfl rfl (.inl rfl)
  | closeCons => cases s.consumerConn <;> exact keep_restore rfl rfl rfl (.inl rfl)
  | _ => exact keep_restore rfl rfl rfl (.inl rfl)

theorem restoring_restore {rest : List Entry} (h : stepGoroutine c s (.restoring rest) choice = some r) :
    RestoreEffect s (.restoring rest) choice r := by
  cases rest with
  | nil =>
    cases choice with
    | go =>
      cases h
      exact keep_restore rfl rfl rfl (.inl rfl)
    | fail | quit => cases h
  | cons e rest =>
    cases choice with
    | go =>
      simp only [stepGoroutine] at h
      split at h <;> cases h
      exact .declared e rest rfl rfl rfl rfl rfl
    | fail =>
      cases h
      exact .refused e rest rfl rfl rfl rfl rfl
    | quit => cases h

theorem loopStep_restore (h : LoopStep c s g r) (hg : ∀ rest, g ≠ .restoring rest) :
    RestoreEffect s g choice r := by
  cases h with
  | stop | swap => exact keep_restore rfl rfl rfl (.inr (by simp))
  | restore => exact .restore rfl rfl rfl
  | restored | declared | refused => exact absurd rfl (hg _)
  | drain => exact drainRound_restore rfl rfl rfl
  | _ => exact keep_restore rfl rfl rfl (.inl rfl)

theorem stepGoroutine_restore (h : stepGoroutine c s g choice = some r) : RestoreEffect s g choice r := by
  by_cases hrest : ∃ rest, g = .restoring rest
  · obtain ⟨rest, rfl⟩ := hrest
    exact restoring_restore h
  · cases stepGoroutine_cases h with
    | connect hstep => exact connectStep_restore hstep
    | producer hstep => cases hstep <;> exact keep_restore rfl rfl rfl (.inl rfl)
    | close hstep => exact closeStep_restore hstep
    | loop hstep => exact loopStep_restore hstep fun rest h => hrest ⟨rest, h⟩

theorem Spawns.restores {spawned : List Goroutine} (h : Spawns s g spawned) :
    ∀ x ∈ spawned, x.restores = [] ∧ x.restoresLater = false := by
  cases h <;> simp [Goroutine.restores, Goroutine.restoresLater]

end Effect

/-! ### Before the loss -/

/-- Nothing is declared before `NewClient` has returned the client. -/
structure Unused (p : App) : Prop where
  topology : p.client.shared.topology.entries = []
  restores : ∀ g ∈ p.client.gs, g.restores = []
  decls : p.decls = []

theorem step_ready {s t : Sys} {a : Action} (h : step c s a = some t) (hs : s.shared.ready = true) :
    t.shared.ready = true := by
  cases step_sysStep h with
  | run i choice g r hg hr =>
    rcases stepGoroutine_ready hr with hsame | ⟨-, htrue, -⟩
    · exact hsame.trans hs
    · exact htrue
  | _ => exact hs

theorem Unused.client {p : App} {a : Action} {t : Sys} (hp : Unused p) (hready : p.client.shared.ready = false)
    (h : step c p.client a = some t) : Unused ⟨t, p.decls⟩ := by
  cases step_sysStep h with
  | run i choice g r hg hr =>
    have hgone := hp.restores g (List.mem_of_getElem? hg)
    have hmem : r.next.restores = [] → ∀ x ∈ advance p.client.gs i r.next r.spawned, x.restores = [] := by
      intro hnext x hx
      rcases mem_advance hx with ⟨j, -, hj⟩ | rfl | hspawned
      · exact hp.restores x (List.mem_of_getElem? hj)
      · exact hnext
      · exact ((stepGoroutine_spawns hr).restores x hspawned).1
    cases stepGoroutine_restore hr with
    | keep htopology hrestores =>
      exact ⟨by rw [htopology]; exact hp.topology, hmem (hrestores.trans hgone), hp.decls⟩
    | storeConnected loop htopology _ hnext =>
      exact ⟨by rw [htopology]; exact hp.topology, hmem (by rw [hnext]; rfl), hp.decls⟩
    | restore _ hnext htopology =>
      refine ⟨by rw [htopology]; rfl, hmem ?_, hp.decls⟩
      rw [hnext]
      exact hp.topology
    | declared e rest heq | refused e rest heq =>
      rw [heq] at hgone
      cases hgone
  | connLost conn hopen | channelError ch hopen => exact ⟨hp.topology, hp.restores, hp.decls⟩
  | publish hstarted | close hstarted hnew => exact absurd (hready.symm.trans hstarted) (by decide)

theorem step_unused (p : App) (op : Op) (q : App) (hp : p.client.shared.ready = false → Unused p)
    (h : appStep c p op = some q) (hready : q.client.shared.ready = false) : Unused q := by
  cases appStep_step h with
  | client a t ht =>
    have hbefore : p.client.shared.ready = false := by
      rw [Bool.eq_false_iff]
      intro htrue
      exact absurd (hready.symm.trans (step_ready ht htrue)) (by decide)
    exact (hp hbefore).client hbefore ht
  | declare e hstarted => exact absurd (hready.symm.trans hstarted) (by decide)
  | accept k e hk | cache k e hk =>
    rw [(hp hready).decls] at hk
    cases hk

structure AppRun (p : App) : Prop where
  one : OneDialler p.client
  starting : Starting p.client
  unused : p.client.shared.ready = false → Unused p

theorem step_appRun (p : App) (op : Op) (q : App) (hp : AppRun p) (h : appStep c p op = some q) : AppRun q := by
  have hunused := step_unused p op q hp.unused h
  cases appStep_step h with
  | client a t ht => exact ⟨step_oneDialler _ _ _ hp.one ht, step_starting _ _ _ hp.starting ht, hunused⟩
  | _ =>
    exact ⟨⟨hp.one.one, hp.one.connected, hp.one.disconnected⟩, ⟨hp.starting.first, hp.starting.called⟩, hunused⟩

theorem newApp_appRun : AppRun newApp := by
  refine ⟨newClient_oneDialler, newClient_starting, fun _ => ⟨rfl, ?_, rfl⟩⟩
  simp [newApp, newClient, Goroutine.restores]

/-! ### After the loss -/

/-- The old pair is still installed, nobody finds the client connected, or a
reconnect has still to take its snapshot of the cache. -/
def Waits (conn : Nat) (s : Sys) : Prop :=
  conn ∈ s.shared.installed ∨ s.shared.state ≠ .connected ∨ ∃ g ∈ s.gs, g.restoresLater = true

/-- Where an entry is that was cached when `conn` was lost. -/
def Kept (conn : Nat) (e : Entry) (s : Sys) (ds : List Entry) : Prop :=
  e ∈ ds ∨ (∃ g ∈ s.gs, e ∈ g.restores) ∨ (e ∈ s.shared.topology.entries ∧ Waits conn s)

theorem mem_redeclare {p : App} {op : Op} {ds : List Entry} {e : Entry} (h : e ∈ ds) :
    e ∈ redeclare p op ds := by
  unfold redeclare
  split
  · split
    · exact List.mem_append_left _ h
    · exact h
  · split
    · exact List.mem_append_left _ h
    · exact h
  · exact h

section Run

variable {p : App} {i conn : Nat} {choice : Choice} {g : Goroutine} {r : Result} {e : Entry} {ds : List Entry}

theorem Waits.run (hone : OneDialler p.client) (hnone : ∀ pc, g ≠ .connect none pc)
    (hg : p.client.gs[i]? = some g) (hr : stepGoroutine c p.client.shared g choice = some r)
    (heff : RestoreEffect p.client.shared g choice r) (hrestore : g ≠ .restore) (h : Waits conn p.client) :
    Waits conn ⟨r.shared, advance p.client.gs i r.next r.spawned⟩ := by
  have hmem : r.next ∈ advance p.client.gs i r.next r.spawned := List.mem_of_getElem? (getElem?_advance_self hg)
  rcases h with hinst | hstate | hlater
  · cases hinstalls : g.installs with
    | true =>
      refine .inr (.inl ?_)
      show r.shared.state ≠ .connected
      rw [(installs_fills hinstalls hr).2]
      exact hone.not_connected hg (installs_dials hinstalls).1
    | false =>
      obtain ⟨hpub, hcons⟩ := stepGoroutine_installed hr hinstalls
      left
      simp only [Shared.installed, hpub, hcons]
      exact hinst
  · cases heff with
    | keep _ _ _ hconnected => exact .inr (.inl fun h => hstate (hconnected h))
    | storeConnected loop _ hgone hnext =>
      cases loop with
      | none => exact absurd hgone (hnone _)
      | some backoff =>
        refine .inr (.inr ⟨r.next, hmem, ?_⟩)
        rw [hnext]
        rfl
    | restore hgone => exact absurd hgone hrestore
    | declared _ _ _ _ _ _ hsame | refused _ _ _ _ _ _ hsame =>
      refine .inr (.inl ?_)
      show r.shared.state ≠ .connected
      rw [hsame]
      exact hstate
  · refine .inr (.inr (exists_mem_advance hg hlater fun hg => .inl ?_))
    cases heff with
    | keep _ _ hkeep => exact hkeep hg
    | storeConnected loop _ hgone => rw [hgone] at hg; cases hg
    | restore hgone => exact absurd hgone hrestore
    | declared e rest hgone | refused e rest hgone => rw [hgone] at hg; cases hg

theorem redeclare_declared {rest : List Entry} (hg : p.client.gs[i]? = some (.restoring (e :: rest))) :
    e ∈ redeclare p (.client (.run i .go)) ds := by
  simp [redeclare, hg]

theorem Kept.run (hone : OneDialler p.client) (hnone : ∀ pc, g ≠ .connect none pc)
    (hok : Redeclares p (.client (.run i choice))) (hg : p.client.gs[i]? = some g)
    (hr : stepGoroutine c p.client.shared g choice = some r) (h : Kept conn e p.client ds) :
    Kept conn e ⟨r.shared, advance p.client.gs i r.next r.spawned⟩
      (redeclare p (.client (.run i choice)) ds) := by
  have heff := stepGoroutine_restore hr
  have hmem : r.next ∈ advance p.client.gs i r.next r.spawned := List.mem_of_getElem? (getElem?_advance_self hg)
  rcases h with h | h | ⟨hcached, hwaits⟩
  · exact .inl (mem_redeclare h)
  · by_cases hdone : e ∈ redeclare p (.client (.run i choice)) ds
    · exact .inl hdone
    · refine .inr (.inl (exists_mem_advance hg h fun hmine => .inl ?_))
      cases heff with
      | keep _ hsame =>
        rw [hsame]
        exact hmine
      | storeConnected loop _ hgone => rw [hgone] at hmine; cases hmine
      | restore hgone => rw [hgone] at hmine; cases hmine
      | declared x rest hgone hchoice hnext =>
        subst hgone hchoice
        rw [hnext]
        rcases List.mem_cons.mp hmine with rfl | hrest
        · exact absurd (redeclare_declared hg) hdone
        · exact hrest
      | refused x rest hgone hchoice =>
        subst hgone hchoice
        cases hok _ hg
  · by_cases hrestore : g = .restore
    · subst hrestore
      cases stepGoroutine_cases hr with
      | loop hstep =>
        cases hstep
        exact .inr (.inl ⟨_, hmem, hcached⟩)
    · refine .inr (.inr ⟨?_, hwaits.run hone hnone hg hr heff hrestore⟩)
      show e ∈ r.shared.topology.entries
      cases heff with
      | keep hsame | storeConnected _ hsame | refused _ _ _ _ hsame => rw [hsame]; exact hcached
      | restore hgone => exact absurd hgone hrestore
      | declared x rest _ _ _ hadd =>
        rw [hadd, TopologyCache.mem_entries_add]
        exact .inl hcached

end Run

theorem Waits.append {s : Sys} {conn : Nat} (g : Goroutine) (h : Waits conn s) :
    Waits conn ⟨s.shared, s.gs ++ [g]⟩ := by
  rcases h with h | h | ⟨x, hx, hlater⟩
  · exact .inl h
  · exact .inr (.inl h)
  · exact .inr (.inr ⟨x, List.mem_append_left _ hx, hlater⟩)

theorem Kept.append {s : Sys} {conn : Nat} {e : Entry} {ds : List Entry} (g : Goroutine)
    (h : Kept conn e s ds) : Kept conn e ⟨s.shared, s.gs ++ [g]⟩ ds := by
  rcases h with h | ⟨x, hx, hrest⟩ | ⟨hcached, hwaits⟩
  · exact .inl h
  · exact .inr (.inl ⟨x, List.mem_append_left _ hx, hrest⟩)
  · exact .inr (.inr ⟨hcached, hwaits.append g⟩)

theorem step_kept (conn : Nat) (e : Entry) (p : App) (ds : List Entry) (op : Op) (q : App) (hp : AppRun p)
    (hs : p.client.shared.ready = true ∧ Kept conn e p.client ds) (hok : Redeclares p op)
    (h : appStep c p op = some q) :
    q.client.shared.ready = true ∧ Kept conn e q.client (redeclare p op ds) := by
  obtain ⟨hready, hkept⟩ := hs
  cases appStep_step h with
  | client a t ht =>
    refine ⟨step_ready ht hready, ?_⟩
    cases step_sysStep ht with
    | run i choice g r hg hr =>
      have hnone : ∀ pc, g ≠ .connect none pc := by
        rintro pc rfl
        exact hp.starting.not_mem hready pc (List.mem_of_getElem? hg)
      exact hkept.run hp.one hnone hok hg hr
    | connLost conn hopen | channelError ch hopen => exact hkept
    | publish hstarted | close hstarted hnew => exact hkept.append _
  | declare x => exact ⟨hready, hkept⟩
  | accept k x hk =>
    refine ⟨hready, ?_⟩
    rcases hkept with hkept | hkept
    · exact .inl (mem_redeclare hkept)
    · exact .inr hkept
  | cache k x hk =>
    refine ⟨hready, ?_⟩
    rcases hkept with hkept | hkept | ⟨hcached, hwaits⟩
    · exact .inl hkept
    · exact .inr (.inl hkept)
    · refine .inr (.inr ⟨?_, hwaits⟩)
      simp only [Sys.declared, TopologyCache.mem_entries_add]
      exact .inl hcached

theorem Kept.done {conn : Nat} {e : Entry} {s : Sys} {ds : List Entry} (h : Kept conn e s ds)
    (hsettled : Settled s) (hstate : s.shared.state = .connected) (hgone : conn ∉ s.shared.installed) :
    e ∈ ds := by
  rcases h with h | ⟨g, hg, hrest⟩ | ⟨-, hwaits⟩
  · exact h
  · rw [(hsettled g hg).2] at hrest
    cases hrest
  · rcases hwaits with hinst | hnot | ⟨g, hg, hlater⟩
    · exact absurd hinst hgone
    · exact absurd hstate hnot
    · exact absurd ((hsettled g hg).1.symm.trans hlater) (by decide)

/-- In every run in which an installed connection is lost and no re-declaration
fails from then on: once another pair is installed, whoever reads `StateConnected`
while no reconnect is between its store of that state and the end of its
`restoreTopology` finds every entry re-declared that was cached at the loss. -/
theorem connected_restored (c : Config) (as bs : List Op) (p q u : App) (conn : Nat) (ds : List Entry)
    (h : exec (appStep c) newApp as = some p) (hinst : conn ∈ p.client.shared.installed)
    (hlost : appStep c p (.client (.connLost conn)) = some q)
    (hrun : exec (noted (appStep c) redeclare) (q, []) bs = some (u, ds))
    (hok : Meets (appStep c) Redeclares q bs) (hsettled : Settled u.client)
    (hstate : isHealthy u.client.shared = true) (hgone : conn ∉ u.client.shared.installed) :
    ∀ e ∈ p.client.shared.topology.entries, e ∈ ds := by
  intro e he
  have hp := exec_invariant step_appRun newApp_appRun h
  have hq := step_appRun p _ q hp hlost
  have hready : p.client.shared.ready = true := by
    by_contra hfalse
    rw [(hp.unused (eq_false_of_ne_true hfalse)).topology] at he
    cases he
  have hstart : q.client.shared.ready = true ∧ Kept conn e q.client [] := by
    obtain ⟨t, ht, rfl⟩ := Option.map_eq_some_iff.mp hlost
    cases step_sysStep ht with
    | connLost _ hopen => exact ⟨hready, .inr (.inr ⟨he, .inl hinst⟩)⟩
  have hkept := (noted_invariant (I := AppRun) (J := fun p ds => p.client.shared.ready = true ∧ Kept conn e p.client ds)
    (fun p op q hp _ h => step_appRun p op q hp h) (step_kept conn e) hq hstart hok hrun).2.2
  exact hkept.done hsettled (by simpa [isHealthy] using hstate) hgone

/-! ### One cached queue -/

def ordersQueue : Entry := .queue { name := "orders", durable := true }

-- `NewClient`, then `DeclareQueue`
def declareOrders : List Op :=
  List.map .client (connectSteps 0) ++ [.declare ordersQueue, .accept 0, .cache 0]

-- the watcher of the publisher connection and the loop it starts, up to the store of `StateConnected`
def reconnectOrders : List Op :=
  .client (.run 1 .go) :: List.replicate 4 (.client (.run 3 .go)) ++ List.replicate 11 (.client (.run 4 .go))

-- the rest of `connect` and `restoreTopology`
def restoreOrders : List Op := List.replicate 5 (.client (.run 4 .go))

theorem connected_restored_orders :
    ∃ p q u ds, exec (appStep small) newApp declareOrders = some p ∧
      appStep small p (.client (.connLost 0)) = some q ∧
      exec (noted (appStep small) redeclare) (q, [])
        (reconnectOrders ++ restoreOrders) = some (u, ds) ∧
      p.client.shared.topology.entries = [ordersQueue] ∧ isHealthy u.client.shared = true ∧
      ∀ e ∈ p.client.shared.topology.entries, e ∈ ds := by
  refine ⟨_, _, _, _, rfl, rfl, rfl, rfl, rfl, ?_⟩
  exact connected_restored small declareOrders (reconnectOrders ++ restoreOrders) _ _ _ 0 _ rfl (by decide) rfl
    rfl (meets_of_checks rfl) (by decide) rfl (by decide)

/- A producer checks the state right after the store of `StateConnected`: it goes on
to the pool of the new connection, and the queue has not been declared there. -/
theorem producer_before_restore :
    ∃ p q u ds, exec (appStep small) newApp declareOrders = some p ∧ p.client.shared.installed = [0, 1] ∧
      p.client.shared.topology.entries = [ordersQueue] ∧
      appStep small p (.client (.connLost 0)) = some q ∧
      exec (noted (appStep small) redeclare) (q, [])
        (reconnectOrders ++ [.client .publish, .client (.run 5 .go)]) = some (u, ds) ∧
      u.client.shared.installed = [2, 3] ∧ isHealthy u.client.shared = true ∧
      u.client.gs[5]? = some (.producer .poolCheck) ∧ ds = [] :=
  ⟨_, _, _, _, rfl, rfl, rfl, rfl, rfl, rfl, rfl, rfl, rfl⟩

end Ghost.Rabbitmq.Client
