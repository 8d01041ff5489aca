import Ghost.Transition.Threads
import Mathlib.Logic.Function.Basic

/-!
# The channel pool by itself

What the pool is for, without the client around it: a buffer of channels, each
opened on one connection, and goroutines that play one role towards it. A
goroutine drains the buffer, checks a channel out and returns it, or rebuilds
the pool on a connection it has dialled.
-/

namespace Ghost.Rabbitmq
open Threads

structure Pool where
  channels : List Nat
  nextChan : Nat
  chanConn : Nat → Nat
  -- for each rebuild that completed: its connection, and the buffer at that moment
  fills : List (Nat × List Nat)
  nextConn : Nat

inductive Role where
  | idle
  | holds (ch : Nat)
  -- past the check that the channel is open
  | returns (ch : Nat)
  | dialled (pub : Nat)
  | fills (pub k : Nat)
  | sends (pub k ch : Nat)

namespace Role

def held : Role → List Nat
  | .holds ch | .returns ch => [ch]
  | _ => []

def channels : Role → List Nat
  | .holds ch | .returns ch | .sends _ _ ch => [ch]
  | _ => []

def conns : Role → List Nat
  | .dialled pub | .fills pub _ | .sends pub _ _ => [pub]
  | _ => []

-- the connection the pool is being rebuilt on, once it has been drained
def rebuilds : Role → Option Nat
  | .fills pub _ | .sends pub _ _ => some pub
  | _ => none

def dials : Role → Nat
  | .dialled _ | .fills _ _ | .sends _ _ _ => 1
  | _ => 0

end Role

namespace Pool

/-- One step of a goroutine in its role, on a pool of `size` channels. -/
inductive Move (size : Nat) : Pool → Role → Pool → Role → Prop where
  | keep (p : Pool) (role : Role) : Move size p role p role
  | leave (p : Pool) (role : Role) : Move size p role p .idle
  | drain (p : Pool) (role : Role) (ch : Nat) (rest : List Nat) (h : p.channels = ch :: rest) :
      Move size p role { p with channels := rest } role
  | get (p : Pool) (ch : Nat) (rest : List Nat) (h : p.channels = ch :: rest) :
      Move size p .idle { p with channels := rest } (.holds ch)
  | check (p : Pool) (ch : Nat) : Move size p (.holds ch) p (.returns ch)
  | put (p : Pool) (ch : Nat) (h : p.channels.length < size) :
      Move size p (.returns ch) { p with channels := p.channels ++ [ch] } .idle
  | dial (p : Pool) : Move size p .idle { p with nextConn := p.nextConn + 1 } (.dialled p.nextConn)
  | dialOther (p : Pool) (pub : Nat) :
      Move size p (.dialled pub) { p with nextConn := p.nextConn + 1 } (.dialled pub)
  | drained (p : Pool) (pub : Nat) (h : p.channels = []) :
      Move size p (.dialled pub) p (.fills pub 0)
  | openCh (p : Pool) (pub k : Nat) (h : k < size) :
      Move size p (.fills pub k)
        { p with
          nextChan := p.nextChan + 1
          chanConn := Function.update p.chanConn p.nextChan pub } (.sends pub k p.nextChan)
  | send (p : Pool) (pub k ch : Nat) (h : p.channels.length < size) :
      Move size p (.sends pub k ch) { p with channels := p.channels ++ [ch] } (.fills pub (k + 1))
  | fill (p : Pool) (pub k : Nat) (h : size ≤ k) :
      Move size p (.fills pub k) { p with fills := p.fills ++ [(pub, p.channels)] } .idle

variable {size : Nat} {p q : Pool} {role next : Role} {rs spawned : List Role} {i : Nat}

/-! ### Channels and connections in use have been made -/

def Made (p : Pool) (role : Role) : Prop :=
  (∀ ch ∈ role.channels, ch < p.nextChan) ∧ (∀ conn ∈ role.conns, conn < p.nextConn)

structure Known (p : Pool) (rs : List Role) : Prop where
  roles : ∀ role ∈ rs, p.Made role
  buffer : ∀ ch ∈ p.channels, ch < p.nextChan
  owners : ∀ ch, ch < p.nextChan → p.chanConn ch < p.nextConn
  fills : ∀ f ∈ p.fills, ∀ ch ∈ f.2, ch < p.nextChan

theorem Move.counters (h : Move size p role q next) :
    p.nextChan ≤ q.nextChan ∧ p.nextConn ≤ q.nextConn := by
  cases h <;> exact ⟨by simp, by simp⟩

theorem Made.mono (h : p.Made role) (hle : p.nextChan ≤ q.nextChan ∧ p.nextConn ≤ q.nextConn) :
    q.Made role :=
  ⟨fun ch hch => Nat.lt_of_lt_of_le (h.1 ch hch) hle.1,
    fun conn hconn => Nat.lt_of_lt_of_le (h.2 conn hconn) hle.2⟩

theorem made_idle : p.Made .idle := ⟨by simp [Role.channels], by simp [Role.conns]⟩

-- What the goroutine has in hand after its step, and what is in the buffer.
theorem Move.made (h : Move size p role q next) (hrole : p.Made role)
    (hbuf : ∀ ch ∈ p.channels, ch < p.nextChan) :
    q.Made next ∧ ∀ ch ∈ q.channels, ch < q.nextChan := by
  obtain ⟨hchan, hconn⟩ := hrole
  cases h with
  | keep => exact ⟨⟨hchan, hconn⟩, hbuf⟩
  | leave => exact ⟨made_idle, hbuf⟩
  | drain _ ch rest h =>
    refine ⟨⟨hchan, hconn⟩, ?_⟩
    intro x hx
    exact hbuf x (h ▸ List.mem_cons_of_mem ch hx)
  | get ch rest h =>
    refine ⟨⟨?_, by simp [Role.conns]⟩, ?_⟩
    · simp only [Role.channels, List.mem_singleton, forall_eq]
      exact hbuf ch (h ▸ List.mem_cons_self ..)
    · intro x hx
      exact hbuf x (h ▸ List.mem_cons_of_mem ch hx)
  | check ch => exact ⟨⟨hchan, hconn⟩, hbuf⟩
  | put ch =>
    refine ⟨made_idle, ?_⟩
    intro x hx
    rcases List.mem_append.mp hx with hx | hx
    · exact hbuf x hx
    · exact hchan x hx
  | dial => exact ⟨⟨by simp [Role.channels], by simp [Role.conns]⟩, hbuf⟩
  | dialOther pub =>
    have hpub := hconn pub (by simp [Role.conns])
    refine ⟨⟨by simp [Role.channels], ?_⟩, hbuf⟩
    simp only [Role.conns, List.mem_singleton, forall_eq]
    omega
  | drained pub => exact ⟨⟨by simp [Role.channels], hconn⟩, hbuf⟩
  | openCh pub k =>
    refine ⟨⟨by simp [Role.channels], hconn⟩, ?_⟩
    intro x hx
    exact Nat.lt_succ_of_lt (hbuf x hx)
  | send pub k ch =>
    refine ⟨⟨by simp [Role.channels], hconn⟩, ?_⟩
    intro x hx
    rcases List.mem_append.mp hx with hx | hx
    · exact hbuf x hx
    · exact hchan x hx
  | fill => exact ⟨made_idle, hbuf⟩

theorem Move.owners (h : Move size p role q next) (hrole : p.Made role)
    (hown : ∀ ch, ch < p.nextChan → p.chanConn ch < p.nextConn) :
    ∀ ch, ch < q.nextChan → q.chanConn ch < q.nextConn := by
  cases h with
  | dial | dialOther => exact fun ch hch => Nat.lt_succ_of_lt (hown ch hch)
  | openCh pub k =>
    intro ch hch
    by_cases hnew : ch = p.nextChan
    · subst hnew
      simpa using hrole.2 pub (by simp [Role.conns])
    · simp only [Function.update_of_ne hnew]
      exact hown ch (by simp only at hch; omega)
  | _ => exact hown

theorem Move.fills (h : Move size p role q next) (hbuf : ∀ ch ∈ p.channels, ch < p.nextChan)
    (hfills : ∀ f ∈ p.fills, ∀ ch ∈ f.2, ch < p.nextChan) :
    ∀ f ∈ q.fills, ∀ ch ∈ f.2, ch < q.nextChan := by
  cases h with
  | openCh => exact fun f hf ch hch => Nat.lt_succ_of_lt (hfills f hf ch hch)
  | fill pub k =>
    intro f hf
    rcases List.mem_append.mp hf with hf | hf
    · exact hfills f hf
    · rw [List.mem_singleton.mp hf]
      exact hbuf
  | _ => exact hfills

theorem Known.move (hk : Known p rs) (hi : rs[i]? = some role) (h : Move size p role q next)
    (hspawned : ∀ r ∈ spawned, r = .idle) : Known q (advance rs i next spawned) := by
  have hrole := hk.roles role (List.mem_of_getElem? hi)
  obtain ⟨hnext, hbuf⟩ := h.made hrole hk.buffer
  refine ⟨?_, hbuf, h.owners hrole hk.owners, h.fills hk.buffer hk.fills⟩
  intro x hx
  rcases mem_advance hx with ⟨j, -, hj⟩ | rfl | hx
  · exact (hk.roles x (List.mem_of_getElem? hj)).mono h.counters
  · exact hnext
  · exact hspawned x hx ▸ made_idle

theorem Known.append {new : List Role} (hk : Known p rs) (hnew : ∀ r ∈ new, r = .idle) :
    Known p (rs ++ new) := by
  refine ⟨?_, hk.buffer, hk.owners, hk.fills⟩
  intro r hr
  rcases List.mem_append.mp hr with hr | hr
  · exact hk.roles r hr
  · exact hnew r hr ▸ made_idle

/-! ### A rebuild that is not disturbed -/

/- The buffer holds channels of `pub` only, and with those checked out there are
at most `k` of them. -/
def Own (p : Pool) (held : List Nat) (pub k : Nat) : Prop :=
  (∀ ch ∈ p.channels, p.chanConn ch = pub) ∧
    p.channels.length + held.countP (fun ch => p.chanConn ch = pub) ≤ k

def CleanFor (size : Nat) (p : Pool) (held : List Nat) : Role → Prop
  | .dialled pub => ∀ ch, ch < p.nextChan → p.chanConn ch ≠ pub
  | .fills pub k => p.Own held pub k
  | .sends pub k ch => k < size ∧ p.chanConn ch = pub ∧ p.Own held pub k
  | _ => True

structure Clean (size : Nat) (p : Pool) (rs : List Role) : Prop where
  roles : ∀ role ∈ rs, p.CleanFor size (rs.flatMap Role.held) role
  fills : ∀ f ∈ p.fills, ∀ ch ∈ f.2, p.chanConn ch = f.1

/-- No rebuild is under way, or `ch` is a channel of the connection it is on. -/
def Welcome (p : Pool) (rs : List Role) (ch : Nat) : Prop :=
  ∀ role ∈ rs, ∀ pub, role.rebuilds = some pub → p.chanConn ch = pub

theorem cleanFor_of_dials_zero {held : List Nat} (h : role.dials = 0) : p.CleanFor size held role := by
  cases role with
  | dialled | fills | sends => cases h
  | _ => trivial

theorem Clean.room {pub k ch : Nat} (h : Clean size p rs) (hrole : .sends pub k ch ∈ rs) :
    p.channels.length < size := by
  obtain ⟨hk, -, -, hlen⟩ := h.roles _ hrole
  omega

/- The step of a goroutine that is not rebuilding leaves the channels of the
connection a rebuild is on where they are, or moves them. -/
theorem Move.own (h : Move size p role q next) (h0 : role.dials = 0) {pub : Nat}
    (hwelcome : ∀ ch, role = .returns ch → q.channels = p.channels ++ [ch] → p.chanConn ch = pub)
    (hbuf : ∀ ch ∈ p.channels, p.chanConn ch = pub) :
    (∀ ch ∈ q.channels, q.chanConn ch = pub) ∧
      q.channels.length + next.held.countP (fun ch => p.chanConn ch = pub) ≤
        p.channels.length + role.held.countP (fun ch => p.chanConn ch = pub) := by
  cases h with
  | keep => exact ⟨hbuf, Nat.le_refl _⟩
  | leave => exact ⟨hbuf, by simp [Role.held]⟩
  | drain _ ch rest h =>
    refine ⟨fun x hx => hbuf x (h ▸ List.mem_cons_of_mem ch hx), ?_⟩
    simp only [h, List.length_cons]
    omega
  | get ch rest h =>
    refine ⟨fun x hx => hbuf x (h ▸ List.mem_cons_of_mem ch hx), ?_⟩
    have hch : p.chanConn ch = pub := hbuf ch (h ▸ List.mem_cons_self ..)
    simp [h, Role.held, hch]
  | check ch => exact ⟨hbuf, Nat.le_refl _⟩
  | put ch =>
    have hch := hwelcome ch rfl rfl
    refine ⟨?_, by simp [Role.held, hch]⟩
    intro x hx
    rcases List.mem_append.mp hx with hx | hx
    · exact hbuf x hx
    · rw [List.mem_singleton.mp hx]
      exact hch
  | dial => exact ⟨hbuf, by simp [Role.held]⟩
  | dialOther | drained | openCh | send | fill => cases h0

theorem Move.tables (h : Move size p role q next) (h0 : role.dials = 0) :
    q.chanConn = p.chanConn ∧ q.nextChan = p.nextChan ∧ q.fills = p.fills := by
  cases h with
  | dialOther | drained | openCh | send | fill => cases h0
  | _ => exact ⟨rfl, rfl, rfl⟩

theorem Move.fills_clean (h : Move size p role q next) (hknown : ∀ f ∈ p.fills, ∀ ch ∈ f.2, ch < p.nextChan)
    (hfills : ∀ f ∈ p.fills, ∀ ch ∈ f.2, p.chanConn ch = f.1) {held : List Nat}
    (hclean : p.CleanFor size held role) : ∀ f ∈ q.fills, ∀ ch ∈ f.2, q.chanConn ch = f.1 := by
  cases h with
  | openCh pub k =>
    intro f hf ch hch
    show Function.update _ _ _ _ = _
    rw [Function.update_of_ne (Nat.ne_of_lt (hknown f hf ch hch))]
    exact hfills f hf ch hch
  | fill pub k =>
    intro f hf
    rcases List.mem_append.mp hf with hf | hf
    · exact hfills f hf
    · rw [List.mem_singleton.mp hf]
      exact hclean.1
  | _ => exact hfills

theorem held_idle (h : ∀ r ∈ rs, r = .idle) : rs.flatMap Role.held = [] := by
  apply List.flatMap_eq_nil_iff.mpr
  intro r hr
  rw [h r hr]
  rfl

section Step

variable (hspawned : ∀ r ∈ spawned, r = .idle)
include hspawned

theorem held_advance (next : Role) (hi : rs[i]? = some role) (f : Nat → Bool) :
    ((advance rs i next spawned).flatMap Role.held).countP f + role.held.countP f =
      (rs.flatMap Role.held).countP f + next.held.countP f := by
  have hcount := countP_advance Role.held f next spawned hi
  rw [held_idle hspawned, List.countP_nil] at hcount
  omega

theorem CleanFor.other {x : Role} (hi : rs[i]? = some role) (h : Move size p role q next)
    (h0 : role.dials = 0)
    (hwelcome : ∀ ch, role = .returns ch → q.channels = p.channels ++ [ch] → Welcome p rs ch)
    (hx : x ∈ rs) (hclean : p.CleanFor size (rs.flatMap Role.held) x) :
    q.CleanFor size ((advance rs i next spawned).flatMap Role.held) x := by
  obtain ⟨hconn, hnext, -⟩ := h.tables h0
  have hown : ∀ pub k, x.rebuilds = some pub → p.Own (rs.flatMap Role.held) pub k →
      q.Own ((advance rs i next spawned).flatMap Role.held) pub k := by
    intro pub k hpub hp
    have hmove := h.own h0 (fun ch hr hput => hwelcome ch hr hput x hx pub hpub) hp.1
    have hcount := held_advance hspawned next hi (fun ch => p.chanConn ch = pub)
    refine ⟨hmove.1, ?_⟩
    have hbound := hp.2
    rw [hconn]
    omega
  cases x with
  | dialled pub =>
    intro ch hch
    rw [hconn]
    exact hclean ch (hnext ▸ hch)
  | fills pub k => exact hown pub k rfl hclean
  | sends pub k ch => exact ⟨hclean.1, hconn ▸ hclean.2.1, hown pub k rfl hclean.2.2⟩
  | _ => trivial

theorem CleanFor.self (hk : Known p rs) (hi : rs[i]? = some role) (h : Move size p role q next)
    (h1 : role.dials = 1) (hclean : p.CleanFor size (rs.flatMap Role.held) role) :
    q.CleanFor size ((advance rs i next spawned).flatMap Role.held) next := by
  have hcount := held_advance hspawned next hi
  have hheld : role.held = [] := by
    cases role with
    | dialled | fills | sends => rfl
    | _ => cases h1
  have hmem : ∀ ch ∈ rs.flatMap Role.held, ch < p.nextChan := by
    intro ch hch
    obtain ⟨r, hr, hch⟩ := List.mem_flatMap.mp hch
    apply (hk.roles r hr).1 ch
    cases r with
    | holds | returns => exact hch
    | _ => cases hch
  simp only [hheld, List.countP_nil, Nat.add_zero] at hcount
  cases h with
  | keep =>
    simp only [hheld, List.countP_nil, Nat.add_zero] at hcount
    cases role with
    | dialled pub => exact hclean
    | fills pub k => exact ⟨hclean.1, by rw [hcount]; exact hclean.2⟩
    | sends pub k ch => exact ⟨hclean.1, hclean.2.1, hclean.2.2.1, by rw [hcount]; exact hclean.2.2.2⟩
    | _ => trivial
  | leave | fill => trivial
  | drain _ ch rest hcons =>
    have hown : ∀ pub k, p.Own (rs.flatMap Role.held) pub k →
        Own { p with channels := rest } ((advance rs i role spawned).flatMap Role.held) pub k := by
      intro pub k hp
      refine ⟨fun x hx => hp.1 x (hcons ▸ List.mem_cons_of_mem ch hx), ?_⟩
      have hlen := hp.2
      rw [hcons, List.length_cons] at hlen
      simp only [hcount, hheld, List.countP_nil]
      omega
    cases role with
    | dialled pub => exact hclean
    | fills pub k => exact hown pub k hclean
    | sends pub k ch => exact ⟨hclean.1, hclean.2.1, hown pub k hclean.2.2⟩
    | _ => trivial
  | get | check | put | dial => cases h1
  | dialOther pub => exact hclean
  | drained pub hempty =>
    refine ⟨by simp [hempty], ?_⟩
    rw [hcount, hempty]
    simp only [Role.held, List.countP_nil, List.length_nil, Nat.zero_add, Nat.add_zero, Nat.le_zero]
    apply List.countP_eq_zero.mpr
    intro ch hch
    simpa using hclean ch (hmem ch hch)
  | openCh pub k hlt =>
    -- the channels made before keep their connection
    have hold : ∀ ch, ch < p.nextChan → Function.update p.chanConn p.nextChan pub ch = p.chanConn ch :=
      fun ch hch => Function.update_of_ne (Nat.ne_of_lt hch) ..
    refine ⟨hlt, by simp, ?_, ?_⟩
    · intro x hx
      exact (hold x (hk.buffer x hx)).trans (hclean.1 x hx)
    · rw [hcount, List.countP_congr (q := fun ch => p.chanConn ch = pub)]
      · simpa [Role.held] using hclean.2
      · intro ch hch
        simp only [hold ch (hmem ch hch)]
  | send pub k ch hroom =>
    obtain ⟨hlt, hch, hbuf, hlen⟩ := hclean
    refine ⟨?_, ?_⟩
    · intro x hx
      rcases List.mem_append.mp hx with hx | hx
      · exact hbuf x hx
      · rw [List.mem_singleton.mp hx]
        exact hch
    · rw [hcount]
      simp only [Role.held, List.countP_nil, List.length_append, List.length_singleton]
      omega

/-- A rebuild stays clean as long as no channel of another connection is put
into the pool while it is under way. -/
theorem Clean.move (hk : Known p rs) (hc : Clean size p rs) (hone : total Role.dials rs ≤ 1)
    (hi : rs[i]? = some role) (h : Move size p role q next)
    (hwelcome : ∀ ch, role = .returns ch → q.channels = p.channels ++ [ch] → Welcome p rs ch) :
    Clean size q (advance rs i next spawned) := by
  have hrole := List.mem_of_getElem? hi
  have hle := le_total (f := Role.dials) hrole
  refine ⟨?_, h.fills_clean hk.fills hc.fills (hc.roles role hrole)⟩
  intro x hx
  rcases mem_advance hx with ⟨j, hj, hx⟩ | rfl | hx
  · by_cases h0 : role.dials = 0
    · have hxm := List.mem_of_getElem? hx
      exact CleanFor.other hspawned hi h h0 hwelcome hxm (hc.roles x hxm)
    · have htwo := add_le_total (f := Role.dials) hi hx (Ne.symm hj)
      exact cleanFor_of_dials_zero (by omega)
  · by_cases h0 : role.dials = 0
    · cases h with
      | dial =>
        intro ch hch
        exact Nat.ne_of_lt (hk.owners ch hch)
      | keep | drain => exact cleanFor_of_dials_zero h0
      | leave | get | check | put => trivial
      | dialOther | drained | openCh | send | fill => cases h0
    · exact CleanFor.self hspawned hk hi h (by omega) (hc.roles role hrole)
  · rw [hspawned x hx]
    trivial

end Step

theorem Clean.append {new : List Role} (hc : Clean size p rs) (hnew : ∀ r ∈ new, r = .idle) :
    Clean size p (rs ++ new) := by
  have hheld : (rs ++ new).flatMap Role.held = rs.flatMap Role.held := by
    rw [List.flatMap_append, held_idle hnew, List.append_nil]
  refine ⟨?_, hc.fills⟩
  intro r hr
  rw [hheld]
  rcases List.mem_append.mp hr with hr | hr
  · exact hc.roles r hr
  · rw [hnew r hr]
    trivial

end Pool
end Ghost.Rabbitmq
