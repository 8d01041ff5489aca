import Ghost.Db.Atomicity
import Ghost.Transition.Reach

/-!
# Transactions that wait for each other (db/postgres.go)

The limit of the pool is a resource that `WithTransaction` calls wait for. Calls that
do not use the client inside `fn` always come to an end. An `fn` that calls
`WithTransaction` of the same client holds one connection and waits for a second, and
as many of these as the pool has connections wait for each other.
-/

namespace Ghost.Db.Atomicity
open Go Sql Transition

variable {Q P : Type} {s t : Sys Q P} {a : Action Q P} {as : List (Action Q P)} {i : Nat}

/-! ### Without nesting -/

/-- Steps of the calls in progress, with a given outcome of `fn` for one of them. -/
def Own (i : Nat) (out : Outcome P) : Action Q P → Prop
  | .call .. | .endCtx .. => False
  | .returns k r => k = i → r = out
  | _ => True

/- No `fn` waits for a call. -/
def Unnested (s : Sys Q P) : Prop :=
  ∀ i j, (s.calls i).pc = .running (some j) → (s.calls j).pc.isFinished = true

def Ends (i : Nat) (s : Sys Q P) : Prop := ∃ out, (s.calls i).pc = .finished out

theorem Unnested.inFn (hs : Unnested s) {inner : Option Nat} (h : (s.calls i).pc = .running inner) :
    s.inFn i = true := by
  unfold Sys.inFn
  rw [h]
  cases inner with
  | none => rfl
  | some j => exact hs i j h

theorem step_rollback {out : Outcome P} {tx : Tx Q} (hpc : (s.calls i).pc = .rollingBack out)
    (htx : s.db.txs i = some tx) (answer : Option DbErr) :
    step s (.rollback i answer) = some (s.closeTx i tx out (tx.rollback answer)) := by
  simp [step, hpc, htx]

theorem step_commit {tx : Tx Q} (hpc : (s.calls i).pc = .committing) (htx : s.db.txs i = some tx)
    (answer : CommitAnswer DbErr) :
    step s (.commit i answer) = some (s.closeTx i tx (.returned none) (tx.commit (s.calls i).ctxErr answer)) := by
  simp [step, hpc, htx]

theorem closeTx_ends (s : Sys Q P) (i : Nat) (tx : Tx Q) (out : Outcome P)
    (answer : Option (Refusal DbErr) × Option Ending) : Ends i (s.closeTx i tx out answer) :=
  ⟨conclusion i out (answer.1.map refusalErr), by simp [Sys.closeTx]⟩

theorem rollingBack_ends (k : Nat) (r : Outcome P) {out : Outcome P} {tx : Tx Q}
    (hpc : (s.calls i).pc = .rollingBack out) (htx : s.db.txs i = some tx) : CanReach step (Own k r) (Ends i) s :=
  .after (step_rollback hpc htx none) trivial (.now (closeTx_ends ..))

theorem committing_ends (k : Nat) (r : Outcome P) {tx : Tx Q} (hpc : (s.calls i).pc = .committing)
    (htx : s.db.txs i = some tx) : CanReach step (Own k r) (Ends i) s :=
  .after (step_commit hpc htx .done) trivial (.now (closeTx_ends ..))

theorem running_ends (out : Outcome P) {tx : Tx Q} (hfn : s.inFn i = true) (htx : s.db.txs i = some tx) :
    CanReach step (Own i out) (Ends i) s := by
  have hreturns : step s (.returns i out) =
      some (s.setCall i { s.calls i with pc := afterFn out, result := some out }) := if_pos hfn
  refine .after hreturns (fun _ => rfl) ?_
  generalize hu : s.setCall i { s.calls i with pc := afterFn out, result := some out } = u
  have hpc : (u.calls i).pc = afterFn out := by rw [← hu, s.setCall_self]
  have htx : u.db.txs i = some tx := by rw [← hu]; exact htx
  rcases out with (_ | err) | p
  · exact committing_ends _ _ hpc htx
  · exact rollingBack_ends _ _ hpc htx
  · exact rollingBack_ends _ _ hpc htx

theorem beginning_ends (out : Outcome P) (hpc : (s.calls i).pc = .beginning) (hroom : s.db.room = true) :
    CanReach step (Own i out) (Ends i) s := by
  have hbegin : step s (.beginTx i none) = some
      { s.setCall i { s.calls i with pc := .running none, begun := some none } with db := s.db.begin i } := by
    simp [step, hpc, hroom, Pc.isBeginning]
  have htx : (s.db.begin i).txs i = some .fresh := Function.update_self ..
  refine .after hbegin trivial (running_ends out ?_ htx)
  simp [Sys.inFn, Sys.setCall]

/- The end of one call's transaction, seen from another call. -/
def Freed (i : Nat) (c : Call P) (s : Sys Q P) : Prop := s.calls i = c ∧ s.db.room = true

theorem closeTx_freed {k : Nat} (hs : Inv s) (hki : k ≠ i) (hmem : k ∈ s.db.inUse) (tx : Tx Q) (out : Outcome P)
    (refusal : Option (Refusal DbErr)) (e : Ending) :
    Freed i (s.calls i) (s.closeTx k tx out (refusal, some e)) :=
  ⟨Function.update_of_ne hki.symm .., Database.conclude_room hs.wellFormed hmem tx e⟩

theorem frees {k : Nat} (out : Outcome P) (hs : Inv s) (hflat : Unnested s) (hki : k ≠ i) (hmem : k ∈ s.db.inUse) :
    CanReach step (Own i out) (Freed i (s.calls i)) s := by
  obtain ⟨tx, htx, hopen, hpc⟩ := hs.holder hmem
  have hback : tx.rollback none = ((none : Option (Refusal DbErr)), some .rolledBack) := by simp [Tx.rollback, hopen]
  cases hctx : (s.calls k).ctxErr with
  | some err =>
    have hawait : step s (.awaitDone k) = some { s with db := s.db.conclude k tx (some .rolledBack) } := by
      simp [step, hctx, htx, hopen]
    exact .after hawait trivial (.now ⟨rfl, Database.conclude_room hs.wellFormed hmem tx .rolledBack⟩)
  | none =>
    cases hat : (s.calls k).pc with
    | idle | beginning | finished out => simp [hat, hctx, Pc.inTx] at hpc
    | running inner =>
      -- `fn` gives up, and its transaction is rolled back
      let failed : Outcome P := .returned (some errTxDone)
      let u := s.setCall k { s.calls k with pc := .rollingBack failed, result := some failed }
      have hreturns : step s (.returns k failed) = some u := if_pos (hflat.inFn hat)
      have hu : Inv u := inv_step hs (step_cases hreturns)
      have hrollback := step_rollback (s := u) (i := k) (by rw [s.setCall_self]) htx none
      rw [hback] at hrollback
      have hfreed := closeTx_freed hu hki hmem tx failed none .rolledBack
      rw [s.setCall_other _ hki.symm] at hfreed
      exact .after hreturns (fun h => absurd h hki) (.after hrollback trivial (.now hfreed))
    | rollingBack r =>
      have hrollback := step_rollback hat htx none
      rw [hback] at hrollback
      exact .after hrollback trivial (.now (closeTx_freed hs hki hmem ..))
    | committing =>
      have hcommit := step_commit hat htx (.lost errTxDone false)
      obtain ⟨refusal, e, hends⟩ : ∃ refusal e, tx.commit (s.calls k).ctxErr (.lost errTxDone false) = (refusal, some e) := by
        cases hfailed : tx.failed <;> simp [Tx.commit, hopen, hctx, hfailed]
      rw [hends] at hcommit
      exact .after hcommit trivial (.now (closeTx_freed hs hki hmem ..))

/-- As long as no `fn` waits for another call, every call can come to its end, with any
outcome of its `fn`, by steps of the calls in progress alone: no context has to end
and whatever limit the pool has. -/
theorem unnested_returns (client : PostgresClient) (as : List (Action Q P)) (s : Sys Q P)
    (hrun : exec step (.start client) as = some s) (hflat : Unnested s) (i : Nat) (hcalled : (s.calls i).pc ≠ .idle)
    (out : Outcome P) :
    ∃ bs t, exec step s bs = some t ∧ (∀ a ∈ bs, Own i out a) ∧ ∃ ret, (t.calls i).pc = .finished ret := by
  have hs := inv_run hrun
  have hfits := hs.fits i
  have hreach : CanReach step (Own i out) (Ends i) s := by
    cases hpc : (s.calls i).pc with
    | idle => exact absurd hpc hcalled
    | finished ret => exact .now ⟨ret, hpc⟩
    | running inner =>
      rw [Fits, hpc] at hfits
      obtain ⟨-, tx, htx, -⟩ := hfits
      exact running_ends out (hflat.inFn hpc) htx
    | rollingBack r =>
      rw [Fits, hpc] at hfits
      obtain ⟨-, -, -, tx, htx, -⟩ := hfits
      exact rollingBack_ends _ _ hpc htx
    | committing =>
      rw [Fits, hpc] at hfits
      obtain ⟨-, -, tx, htx, -⟩ := hfits
      exact committing_ends _ _ hpc htx
    | beginning =>
      by_cases hroom : s.db.room = true
      · exact beginning_ends out hpc hroom
      · -- the pool is full: one of the transactions in it ends first
        have hfull : ¬ (s.db.maxOpen = 0 ∨ s.db.inUse.length < s.db.maxOpen) := fun h => hroom (Database.room_iff.mpr h)
        obtain ⟨k, hk⟩ := List.exists_mem_of_length_pos (l := s.db.inUse) (by omega)
        have hki : k ≠ i := by
          rintro rfl
          obtain ⟨tx, htx, -⟩ := hs.holder hk
          rw [Fits, hpc, htx] at hfits
          cases hfits
        refine (frees out hs hflat hki hk).then ?_
        rintro t ⟨hcall, hroom⟩
        exact beginning_ends out (by rw [hcall]; exact hpc) hroom
  exact hreach

-- both calls wait for the one connection
def twoWaiting : List (Action String String) :=
  [.call 0 .default none, .call 1 .default none, .beginTx 0 none]

theorem unnested_returns_twoWaiting :
    ∃ s, exec step (.start oneConnection) twoWaiting = some s ∧ s.db.room = false ∧
      ∃ bs t, exec step s bs = some t ∧ (∀ a ∈ bs, Own 1 (.returned none) a) ∧ ∃ ret, (t.calls 1).pc = .finished ret := by
  obtain ⟨s, hrun, hroom, h0, h1, hrest⟩ : ∃ s, exec step (.start oneConnection) twoWaiting = some s ∧
      s.db.room = false ∧ (s.calls 0).pc = .running none ∧ (s.calls 1).pc = .beginning ∧
        ∀ x, x ≠ 0 → x ≠ 1 → (s.calls x).pc = .idle := by
    refine ⟨_, rfl, rfl, rfl, rfl, ?_⟩
    intro x h0 h1
    simp [Sys.setCall, Sys.start, Function.update_of_ne, h0, h1, Call.new]
  refine ⟨s, hrun, hroom, unnested_returns oneConnection twoWaiting s hrun ?_ 1 (by simp [h1]) (.returned none)⟩
  intro x j hx
  by_cases hx0 : x = 0
  · subst hx0
    simp [h0] at hx
  · by_cases hx1 : x = 1
    · subst hx1
      simp [h1] at hx
    · simp [hrest x hx0 hx1] at hx

/-! ### With nesting -/

def KeepsCtx : Action Q P → Prop
  | .endCtx .. => False
  | _ => True

/-- Every connection is held by a call whose `fn` waits for a call that waits for a
connection, and no context has ended. -/
structure Exhausted (s : Sys Q P) : Prop where
  limited : s.db.maxOpen ≠ 0
  full : s.db.inUse.length = s.db.maxOpen
  waits : ∀ i ∈ s.db.inUse, ∃ j, (s.calls i).pc = .running (some j) ∧ (s.calls j).pc = .beginning
  ctx : ∀ i, (s.calls i).ctxErr = none

section Exhausted

variable (hs : Inv s) (hex : Exhausted s)

include hex in
theorem Exhausted.room : s.db.room = false := by
  have hnot : ¬ s.db.room = true := by
    rw [Database.room_iff, hex.full]
    exact fun h => h.elim hex.limited (Nat.lt_irrefl _)
  simpa using hnot

include hs hex in
theorem Exhausted.waits_of_inTx (h : (s.calls i).pc.inTx = true) :
    ∃ j, (s.calls i).pc = .running (some j) ∧ (s.calls j).pc = .beginning := by
  have hfits := hs.fits i
  have hopen {tx : Tx Q} (htx : s.db.txs i = some tx) (hlive : Live (s.calls i) tx) : i ∈ s.db.inUse := by
    refine (hs.wellFormed.holds i).mpr ⟨tx, htx, hlive.resolve_right ?_⟩
    exact fun ⟨_, hctx⟩ => hctx (hex.ctx i)
  refine hex.waits i ?_
  cases hpc : (s.calls i).pc with
  | idle | beginning | finished => simp [hpc, Pc.inTx] at h
  | running inner =>
    rw [Fits, hpc] at hfits
    obtain ⟨-, tx, htx, hlive⟩ := hfits
    exact hopen htx hlive
  | rollingBack r =>
    rw [Fits, hpc] at hfits
    obtain ⟨-, -, -, tx, htx, hlive⟩ := hfits
    exact hopen htx hlive
  | committing =>
    rw [Fits, hpc] at hfits
    obtain ⟨-, -, tx, htx, hlive⟩ := hfits
    exact hopen htx hlive

include hs hex in
theorem Exhausted.inFn (i : Nat) : s.inFn i = false := by
  cases hfn : s.inFn i with
  | false => rfl
  | true =>
    obtain ⟨inner, hpc⟩ := s.inFn_running hfn
    obtain ⟨j, hrun, hj⟩ := hex.waits_of_inTx hs (by rw [hpc]; rfl)
    simp [Sys.inFn, hrun, hj, Pc.isFinished] at hfn

include hs hex in
/-- All that can still happen is that new calls come and wait as well. -/
theorem Exhausted.step_call (ha : KeepsCtx a) (h : Step s a t) :
    ∃ x level, (s.calls x).pc = .idle ∧ t = s.setCall x (.new level .beginning) := by
  have hfn := hex.inFn hs
  have hroom := hex.room
  have hat {x : Nat} {A : Prop} (h : (s.calls x).pc.inTx = true) (hnot : ∀ j, (s.calls x).pc ≠ .running (some j)) : A := by
    obtain ⟨j, hj, -⟩ := hex.waits_of_inTx hs h
    exact absurd hj (hnot j)
  cases h with
  | call x level hidle => exact ⟨x, level, hidle, rfl⟩
  | nested i p inner level hidle hp hrun => simp [hfn p] at hrun
  | endCtx => exact absurd ha id
  | began x hpc h => simp [hroom] at h
  | refused x err hpc hwhy => simp [hroom, hex.ctx x] at hwhy
  | exec x inner q answer tx hpc hrun => simp [hfn x] at hrun
  | awaitDone x err tx hctx => simp [hex.ctx x] at hctx
  | returns x inner out hpc hrun => simp [hfn x] at hrun
  | rollback x answer out tx hpc => exact hat (by rw [hpc]; rfl) (by simp [hpc])
  | commit x answer tx hpc => exact hat (by rw [hpc]; rfl) (by simp [hpc])

include hex in
theorem Exhausted.call {x : Nat} (level : IsolationLevel) (hidle : (s.calls x).pc = .idle) :
    Exhausted (s.setCall x (.new level .beginning)) := by
  refine ⟨hex.limited, hex.full, ?_, ?_⟩
  · intro i hi
    obtain ⟨j, hrun, hj⟩ := hex.waits i hi
    have hix : i ≠ x := by
      rintro rfl
      simp [hidle] at hrun
    have hjx : j ≠ x := by
      rintro rfl
      simp [hidle] at hj
    refine ⟨j, ?_, ?_⟩
    · rw [s.setCall_other _ hix]
      exact hrun
    · rw [s.setCall_other _ hjx]
      exact hj
  · intro i
    by_cases hi : i = x
    · subst hi
      rw [s.setCall_self]
      rfl
    · rw [s.setCall_other _ hi]
      exact hex.ctx i

end Exhausted

theorem Exhausted.run {bs : List (Action Q P)} (hs : Inv s) (hex : Exhausted s) (hrun : exec step s bs = some t)
    (hok : ∀ a ∈ bs, KeepsCtx a) : t.db = s.db ∧ ∀ i out, (t.calls i).pc = .finished out → (s.calls i).pc = .finished out := by
  let I (u : Sys Q P) : Prop :=
    Inv u ∧ Exhausted u ∧ u.db = s.db ∧ ∀ i out, (u.calls i).pc = .finished out → (s.calls i).pc = .finished out
  have hstep : ∀ u a v, I u → KeepsCtx a → step u a = some v → I v := by
    rintro u a v ⟨hu, hex, hdb, hends⟩ ha h
    obtain ⟨x, level, hidle, rfl⟩ := hex.step_call hu ha (step_cases h)
    refine ⟨inv_step hu (step_cases h), hex.call level hidle, hdb, ?_⟩
    intro i out hi
    by_cases hix : i = x
    · subst hix
      rw [u.setCall_self] at hi
      cases hi
    · rw [u.setCall_other _ hix] at hi
      exact hends i out hi
  have hmeets : Meets step (fun _ a => KeepsCtx a) s bs := meets_of_forall fun a ha _ => hok a ha
  obtain ⟨-, -, hdb, hends⟩ := exec_invariant_meets hstep ⟨hs, hex, rfl, fun _ _ h => h⟩ hmeets hrun
  exact ⟨hdb, hends⟩

/- `n` calls hold a connection each and wait for a call of their own; the calls from
`2 * n` on have not been made. -/
structure Filled (limit n : Nat) (s : Sys Q P) : Prop where
  maxOpen : s.db.maxOpen = limit
  used : s.db.inUse.length = n
  waits : ∀ i ∈ s.db.inUse, ∃ j, (s.calls i).pc = .running (some j) ∧ (s.calls j).pc = .beginning
  ctx : ∀ i, (s.calls i).ctxErr = none
  free : ∀ x, 2 * n ≤ x → (s.calls x).pc = .idle
  unfinished : ∀ i out, (s.calls i).pc ≠ .finished out

theorem start_filled (client : PostgresClient) : Filled client.db.maxOpen.toNat 0 (.start client : Sys Q P) :=
  ⟨rfl, rfl, fun _ h => (by cases h), fun _ => rfl, fun _ _ => rfl, fun _ _ h => by cases h⟩

theorem Filled.next {limit n : Nat} (hs : Filled limit n s) (hn : n < limit) :
    CanReach step KeepsCtx (Filled limit (n + 1)) s := by
  have hidle : (s.calls (2 * n)).pc = .idle := hs.free (2 * n) (Nat.le_refl _)
  have hidle' : (s.calls (2 * n + 1)).pc = .idle := hs.free (2 * n + 1) (by omega)
  have hroom : s.db.room = true := Database.room_iff.mpr (.inr (by rw [hs.used, hs.maxOpen]; exact hn))
  let outer : Call P := { Call.new .default .beginning with pc := .running none, begun := some none }
  let u : Sys Q P := s.setCall (2 * n) (.new .default .beginning)
  let v : Sys Q P := { u.setCall (2 * n) outer with db := s.db.begin (2 * n) }
  let w : Sys Q P := (v.setCall (2 * n) { outer with pc := .running (some (2 * n + 1)) }).setCall (2 * n + 1)
    (.new .default .beginning)
  have hcall : step s (.call (2 * n) .default none) = some u := by simp [step, hidle, Pc.isIdle, u]
  have hbegin : step u (.beginTx (2 * n) none) = some v := by
    have hu : u.calls (2 * n) = .new .default .beginning := s.setCall_self ..
    have hroom' : u.db.room = true := hroom
    simp only [step, hu, hroom', Call.new, Pc.isBeginning, Bool.and_self, if_true]
    rfl
  have hnested : step v (.call (2 * n + 1) .default (some (2 * n))) = some w := by
    have hv : v.calls (2 * n) = outer := u.setCall_self ..
    have hv' : (v.calls (2 * n + 1)).pc = .idle := by
      have heq : v.calls (2 * n + 1) = s.calls (2 * n + 1) := by
        show (u.setCall (2 * n) outer).calls (2 * n + 1) = _
        rw [u.setCall_other _ (by omega), s.setCall_other _ (by omega)]
      rw [heq]
      exact hidle'
    simp only [step, hv', Pc.isIdle, if_true, Sys.inFn, hv]
    rfl
  have houter : (w.calls (2 * n)).pc = .running (some (2 * n + 1)) := by
    show ((Sys.setCall _ (2 * n + 1) _).calls (2 * n)).pc = _
    rw [Sys.setCall_other _ _ (by omega), Sys.setCall_self]
  have hinner : w.calls (2 * n + 1) = .new .default .beginning := Sys.setCall_self ..
  have hother (x : Nat) (h : x ≠ 2 * n) (h' : x ≠ 2 * n + 1) : w.calls x = s.calls x := by
    show (Sys.setCall _ (2 * n + 1) _).calls x = _
    rw [Sys.setCall_other _ _ h', Sys.setCall_other _ _ h]
    show (u.setCall (2 * n) outer).calls x = _
    rw [Sys.setCall_other _ _ h, Sys.setCall_other _ _ h]
  have hactive (x : Nat) (h : (s.calls x).pc ≠ .idle) : w.calls x = s.calls x :=
    hother x (fun hx => h (by rw [hx]; exact hidle)) (fun hx => h (by rw [hx]; exact hidle'))
  refine .after hcall trivial (.after hbegin trivial (.after hnested trivial (.now ⟨hs.maxOpen, ?_, ?_, ?_, ?_, ?_⟩)))
  · exact congrArg (· + 1) hs.used
  · intro i hi
    rcases List.mem_cons.mp hi with rfl | hi
    · exact ⟨2 * n + 1, houter, by rw [hinner]; rfl⟩
    · obtain ⟨j, hrun, hj⟩ := hs.waits i hi
      exact ⟨j, by rw [hactive i (by simp [hrun])]; exact hrun, by rw [hactive j (by simp [hj])]; exact hj⟩
  · intro x
    by_cases hx : x = 2 * n
    · subst hx
      show ((Sys.setCall _ (2 * n + 1) _).calls (2 * n)).ctxErr = none
      rw [Sys.setCall_other _ _ (by omega), Sys.setCall_self]
      rfl
    · by_cases hx' : x = 2 * n + 1
      · rw [hx', hinner]
        rfl
      · rw [hother x hx hx']
        exact hs.ctx x
  · intro x hx
    rw [hother x (by omega) (by omega)]
    exact hs.free x (by omega)
  · intro x out
    by_cases hx : x = 2 * n
    · simp [hx, houter]
    · by_cases hx' : x = 2 * n + 1
      · rw [hx', hinner]
        simp [Call.new]
      · rw [hother x hx hx']
        exact hs.unfinished x out

theorem fills {limit : Nat} (hs : Filled limit 0 s) (n : Nat) (hn : n ≤ limit) :
    CanReach step KeepsCtx (Filled limit n) s := by
  induction n with
  | zero => exact .now hs
  | succ n ih => exact (ih (by omega)).then fun _ h => h.next (by omega)

/-- Nested calls can use up every limited pool for good. A reachable state in which
each connection is held by an `fn` that waits for another `WithTransaction` on the
client stays as it is until a context ends or the client is closed: no call begins
and none returns. And whatever `MaxOpenConns` is, such a state is reached before any
call has returned. -/
theorem nested_exhausts (n : Nat) (openErr pingErr : Option DbErr) (config : PoolConfig) (client : PostgresClient)
    (hclient : (newPostgresClient n openErr pingErr config).1 = .ok client) (hlimit : 0 < config.maxOpenConns) :
    (∀ (as : List (Action Q P)) (s : Sys Q P), exec step (.start client) as = some s → Exhausted s →
      ∀ bs t, exec step s bs = some t → (∀ a ∈ bs, KeepsCtx a) →
        t.db = s.db ∧ ∀ i out, (t.calls i).pc = .finished out → (s.calls i).pc = .finished out) ∧
      ∃ (as : List (Action Q P)) (s : Sys Q P), exec step (.start client) as = some s ∧ (∀ a ∈ as, KeepsCtx a) ∧
        Exhausted s ∧ ∀ i out, (s.calls i).pc ≠ .finished out := by
  refine ⟨fun as s hrun hex bs t hmore hok => hex.run (inv_run hrun) hmore hok, ?_⟩
  have hmax : 0 < client.db.maxOpen.toNat := by
    rw [newPostgresClient_maxOpen hclient, if_pos hlimit]
    omega
  obtain ⟨as, s, hrun, hok, hfilled⟩ := fills (Q := Q) (P := P) (start_filled client) _ (Nat.le_refl _)
  refine ⟨as, s, hrun, hok, ⟨?_, ?_, hfilled.waits, hfilled.ctx⟩, hfilled.unfinished⟩
  · rw [hfilled.maxOpen]
    omega
  · rw [hfilled.used, hfilled.maxOpen]

theorem nested_exhausts_oneConnection :
    ∃ (as : List (Action String String)) (s : Sys String String), exec step (.start oneConnection) as = some s ∧
      (∀ a ∈ as, KeepsCtx a) ∧ Exhausted s ∧ ∀ i out, (s.calls i).pc ≠ .finished out :=
  (nested_exhausts 0 none none ⟨⟨0⟩, 1, 0, 0, 0⟩ oneConnection rfl (by decide)).2

end Ghost.Db.Atomicity
