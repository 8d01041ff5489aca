import Ghost.Rabbitmq.Leak
import Ghost.Transition.History

/-!
# Close handlers of old connections (rabbitmq/client.go)

A close handler drains the pool and runs `triggerReconnect` whenever its own
connection is gone, however late that is. It does not ask whether that connection
is still the installed one. A note beside the run says which connection each
handler watched and which goroutine installed the present pair.
-/

namespace Ghost.Rabbitmq.Client
open Go Threads Transition

variable {c : Config}

structure Watch where
  watched : Nat → Option Nat
  installer : Option Nat

def Watch.start : Watch := ⟨fun _ => none, none⟩

-- The goroutine a watcher starts is the last one.
def watch (s : Sys) (a : Action) (w : Watch) : Watch :=
  match a with
  | .run i .go =>
    match s.gs[i]? with
    | some (.watcher (some conn)) => { w with watched := Function.update w.watched s.gs.length (some conn) }
    | some (.connect _ (.install _ _)) => { w with installer := some i }
    | _ => w
  | _ => w

/-- The part a goroutine has in noticing that a connection is lost. -/
inductive Part where
  | idle
  -- a reconnect loop or `connect`, before a pair is installed
  | dials
  -- `connect` before its store of `StateConnected`
  | fills
  -- before the watchers of both connections are started, or of the consumer connection only
  | registers (pubDone : Bool)
  | watches (conn : Option Nat)
  -- drains, then runs `triggerReconnect`
  | handles
  deriving DecidableEq

def Goroutine.part : Goroutine → Part
  | .connect _ pc =>
    match pc with
    | .storeConnecting | .dialPub | .dialCons _ | .install _ _ | .abort _ => .dials
    | .drain _ _ | .fill _ _ _ | .confirm _ _ _ _ | .send _ _ _ _ | .storeConnected => .fills
    | .watchPub => .registers false
    | .watchCons => .registers true
  | .waiting _ | .check _ | .stop => .dials
  | .watcher conn => .watches conn
  | .draining | .trigger | .cas _ => .handles
  | .restore | .restoring _ | .close _ | .producer _ | .done => .idle

-- a close watcher, or the goroutine one has started
def Part.follows : Part → Bool
  | .watches _ | .handles => true
  | _ => false

/-- When a pair is installed, no handler of an earlier one is left. -/
def NoHandlerLeft (s : Sys) : Action → Prop
  | .run i _ => (s.gs[i]?).any Goroutine.installs = true → ∀ g ∈ s.gs, g.part.follows = false
  | _ => True

instance (s : Sys) : (a : Action) → Decidable (NoHandlerLeft s a)
  | .run i _ => inferInstanceAs (Decidable ((s.gs[i]?).any Goroutine.installs = true →
      ∀ g ∈ s.gs, g.part.follows = false))
  | .connLost _ | .channelError _ | .publish | .close => .isTrue trivial

section Step

variable {s : Shared} {g : Goroutine} {choice : Choice} {r : Result}

theorem drainRound_part {again next : Goroutine} {p : Part} (ha : again.part = p) (hn : next.part = p) :
    (drainRound s again next).next.part = p := by
  rcases drainRound_next s again next with h | h <;> rw [h]
  · exact ha
  · exact hn

theorem outsideCalls_of_follows (h : g.part.follows = true) : g.outsideCalls = true := by
  cases g with
  | connect loop pc => cases pc <;> cases h
  | watcher | draining | trigger | cas => rfl
  | _ => cases h

-- Nobody becomes a handler; a handler goes on as one or is done.
theorem stepGoroutine_follows (h : stepGoroutine c s g choice = some r) (hnext : r.next.part.follows = true) :
    g.part = .handles ∧ r.next.part = .handles := by
  cases loopStep_of_next h (outsideCalls_of_follows hnext) with
  | drain => exact ⟨rfl, drainRound_part rfl rfl⟩
  | trigger | lostSwap => exact ⟨rfl, rfl⟩
  | _ => cases hnext

theorem stepGoroutine_installed (h : stepGoroutine c s g choice = some r) (hg : g.installs = false) :
    r.shared.publisherConn = s.publisherConn ∧ r.shared.consumerConn = s.consumerConn := by
  cases stepGoroutine_conns h with
  | dial hshared => rw [hshared]; exact ⟨rfl, rfl⟩
  | install loop pub cons hgone =>
    rw [hgone] at hg
    cases hg
  | keep hpub hcons => exact ⟨hpub, hcons⟩

end Step

theorem watch_watched_lt {s : Sys} {a : Action} {w : Watch} {j : Nat} (h : j < s.gs.length) :
    (watch s a w).watched j = w.watched j := by
  unfold watch
  split
  · split
    · exact Function.update_of_ne (by omega) _ _
    · rfl
    · rfl
  · rfl

theorem watch_fires {s : Sys} {i conn : Nat} {choice : Choice} {r : Result} (w : Watch)
    (hg : s.gs[i]? = some (.watcher (some conn)))
    (hr : stepGoroutine c s.shared (.watcher (some conn)) choice = some r) (hspawned : r.spawned = [.draining]) :
    (watch s (.run i choice) w).watched s.gs.length = some conn := by
  cases choice with
  | go => simp [watch, hg]
  | fail => cases hr
  | quit =>
    simp only [stepGoroutine] at hr
    split at hr <;> cases hr
    cases hspawned

/-- Everybody who watches or handles a connection does so for an installed one. -/
structure Current (s : Sys) (w : Watch) : Prop where
  watchers : ∀ conn, .watcher (some conn) ∈ s.gs → conn ∈ s.shared.installed
  handlers : ∀ j g, s.gs[j]? = some g → g.part = .handles →
    ∃ conn ∈ s.shared.installed, w.watched j = some conn

theorem current_of_none {s : Sys} {w : Watch} (h : ∀ g ∈ s.gs, g.part.follows = false) : Current s w := by
  refine ⟨?_, ?_⟩
  · intro conn hmem
    cases h _ hmem
  · intro j g hg hpart
    have hfalse := h g (List.mem_of_getElem? hg)
    rw [hpart] at hfalse
    cases hfalse

theorem Current.install {s : Sys} {i : Nat} {choice : Choice} {g : Goroutine} {r : Result} {w : Watch}
    (hok : ∀ x ∈ s.gs, x.part.follows = false) (hg : s.gs[i]? = some g) (hinst : g.installs = true)
    (hr : stepGoroutine c s.shared g choice = some r) :
    Current ⟨r.shared, advance s.gs i r.next r.spawned⟩ w := by
  apply current_of_none
  intro x hx
  rcases mem_advance hx with ⟨j, -, hj⟩ | rfl | hspawned
  · exact hok x (List.mem_of_getElem? hj)
  · rw [Bool.eq_false_iff]
    intro hfollows
    have hpart := (stepGoroutine_follows hr hfollows).1
    have hfalse := hok g (List.mem_of_getElem? hg)
    rw [hpart] at hfalse
    cases hfalse
  · have hspawns := stepGoroutine_spawns hr
    generalize r.spawned = spawned at hspawns hspawned
    cases hspawns with
    | nothing => cases hspawned
    | _ => cases hinst

theorem Current.keep {s : Sys} {i : Nat} {choice : Choice} {g : Goroutine} {r : Result} {w : Watch}
    (hs : Current s w) (hg : s.gs[i]? = some g) (hinst : g.installs = false)
    (hr : stepGoroutine c s.shared g choice = some r) :
    Current ⟨r.shared, advance s.gs i r.next r.spawned⟩ (watch s (.run i choice) w) := by
  obtain ⟨hpub, hcons⟩ := stepGoroutine_installed hr hinst
  have hsame : r.shared.installed = s.shared.installed := by simp only [Shared.installed, hpub, hcons]
  have hspawns := stepGoroutine_spawns hr
  refine ⟨?_, ?_⟩
  · intro conn hmem
    show conn ∈ r.shared.installed
    rw [hsame]
    rcases mem_advance hmem with ⟨j, -, hj⟩ | hnext | hspawned
    · exact hs.watchers conn (List.mem_of_getElem? hj)
    · have hpart := (stepGoroutine_follows hr (by rw [← hnext]; rfl)).2
      rw [← hnext] at hpart
      cases hpart
    · generalize r.spawned = spawned at hspawns hspawned
      cases hspawns <;> simp at hspawned
      · exact mem_installed.mpr (.inl hspawned.symm)
      · exact mem_installed.mpr (.inr hspawned.symm)
  · intro j x hx hpart
    show ∃ conn ∈ r.shared.installed, _
    rw [hsame]
    rcases getElem?_advance_cases hx with ⟨rfl, rfl⟩ | ⟨hne, hold⟩ | ⟨hle, hnew⟩
    · have hlt := (List.getElem?_eq_some_iff.mp hg).1
      rw [watch_watched_lt hlt]
      exact hs.handlers j g hg (stepGoroutine_follows hr (by rw [hpart]; rfl)).1
    · have hlt := (List.getElem?_eq_some_iff.mp hold).1
      rw [watch_watched_lt hlt]
      exact hs.handlers j x hold hpart
    · cases hspawned : r.spawned with
      | nil =>
        rw [hspawned] at hnew
        cases hnew
      | cons y ys =>
        rw [hspawned] at hspawns hnew
        have hmem := List.mem_of_getElem? hnew
        cases hspawns with
        | draining conn =>
          have hj : j = s.gs.length := by
            have hlt := (List.getElem?_eq_some_iff.mp hnew).1
            simp only [List.length_singleton] at hlt
            omega
          refine ⟨conn, hs.watchers conn (List.mem_of_getElem? hg), ?_⟩
          rw [hj]
          exact watch_fires w hg hr hspawned
        | _ =>
          rw [List.mem_singleton.mp hmem] at hpart
          cases hpart

theorem Current.append {s : Sys} {t : Shared} {w : Watch} {g : Goroutine} (hs : Current s w)
    (hg : g.part = .idle) (ht : t.installed = s.shared.installed) : Current ⟨t, s.gs ++ [g]⟩ w := by
  refine ⟨?_, ?_⟩
  · intro conn hmem
    show conn ∈ t.installed
    rw [ht]
    rcases List.mem_append.mp hmem with hmem | hmem
    · exact hs.watchers conn hmem
    · rw [← List.mem_singleton.mp hmem] at hg
      cases hg
  · intro j x hx hpart
    show ∃ conn ∈ t.installed, _
    rw [ht]
    rcases getElem?_append_cases hx with hx | rfl
    · exact hs.handlers j x hx hpart
    · rw [hg] at hpart
      cases hpart

theorem step_current (s : Sys) (w : Watch) (a : Action) (t : Sys) (hs : Current s w)
    (hok : NoHandlerLeft s a) (h : step c s a = some t) : Current t (watch s a w) := by
  cases step_sysStep h with
  | run i choice g r hg hr =>
    cases hinst : g.installs with
    | true =>
      have hnone := hok (by rw [hg]; exact hinst)
      exact .install hnone hg hinst hr
    | false => exact hs.keep hg hinst hr
  | connLost conn hopen | channelError ch hopen => exact ⟨hs.watchers, hs.handlers⟩
  | publish hready | close hready hnew => exact hs.append rfl rfl

/-- In every run in which no handler is left when a pair is installed, a close
handler drains the pool or moves the state from `StateConnected` to
`StateConnecting` only while the connection it watched is installed. -/
theorem handlers_current (c : Config) (as : List Action) (s : Sys) (w : Watch)
    (h : exec (noted (step c) watch) (newClient, Watch.start) as = some (s, w))
    (hok : Meets (step c) NoHandlerLeft newClient as) (j : Nat)
    (hj : s.gs[j]? = some .draining ∨ (s.gs[j]? = some (.cas true) ∧ s.shared.state = .connected)) :
    ∃ conn ∈ s.shared.installed, w.watched j = some conn := by
  have hstart : Current newClient Watch.start := current_of_none (by decide)
  have hcurrent := (noted_invariant (I := fun _ => True) (fun _ _ _ _ _ _ => trivial)
    (fun s w a t _ => step_current s w a t) trivial hstart hok h).2
  rcases hj with hj | ⟨hj, -⟩
  · exact hcurrent.handlers j _ hj rfl
  · exact hcurrent.handlers j _ hj rfl

/- Both connections are lost, both handlers are through with it before the new pair
is installed, and of that the publisher connection is lost. -/
def lostTwice : List Action := bothLost ++ connectSteps 5 ++ [.connLost 2, .run 6 .go]

theorem handlers_current_lostTwice :
    ∃ s w, exec (noted (step small) watch) (newClient, Watch.start) lostTwice = some (s, w) ∧
      Meets (step small) NoHandlerLeft newClient lostTwice ∧ s.gs[8]? = some .draining ∧
      ∃ conn ∈ s.shared.installed, w.watched 8 = some conn := by
  have hok : Meets (step small) NoHandlerLeft newClient lostTwice := meets_of_checks rfl
  exact ⟨_, _, rfl, hok, rfl, handlers_current small lostTwice _ _ rfl hok 8 (.inl rfl)⟩

/- Both connections are lost. The handler of the consumer connection 1 comes to its
drain when the other handler's loop has installed and filled a new pair. -/
def lateHandler : List Action :=
  connectSteps 0 ++ ([.connLost 0, .connLost 1, .run 1 .go, .run 2 .go, .run 3 .go, .run 3 .go, .run 3 .go,
    .run 3 .go] : List Action) ++ List.replicate 15 (.run 5 .go)

theorem lateHandler_tears_down :
    ∃ s w, exec (noted (step small) watch) (newClient, Watch.start) lateHandler = some (s, w) ∧
      s.shared.installed = [2, 3] ∧ s.shared.connOpen 2 = true ∧ s.shared.connOpen 3 = true ∧
      isHealthy s.shared = true ∧ s.shared.channels = [1] ∧ s.gs[4]? = some .draining ∧
      w.watched 4 = some 1 ∧
      ∃ t, exec (step small) s (List.replicate 4 (.run 4 .go)) = some t ∧
        t.shared.channels = [] ∧ t.shared.state = .connecting :=
  ⟨_, _, rfl, rfl, rfl, rfl, rfl, rfl, rfl, rfl, _, rfl, rfl, rfl⟩

end Ghost.Rabbitmq.Client
