import Ghost.Db.Client
import Ghost.Sql.Database
import Ghost.Transition.Run

/-!
# Transactions in progress (db/postgres.go)

Any number of `WithTransaction` calls on one client, over the pool and the server
they share. A call waits for a connection, runs `fn`, and ends the transaction by
what `fn` did. `fn` executes statements on the transaction, may call
`WithTransaction` of the same client and wait for it, and returns an error, nil or
panics. A context may end at any time; `database/sql` then rolls the transaction
of its call back on its own. Queries outside a transaction, which take a connection
of the pool as well, and `Close` of the client are not part of these runs.
-/

namespace Ghost.Db.Atomicity
open Go Sql Transition

variable {Q P : Type}

/- `running` holds the call that `fn` waits for, if there is one. -/
inductive Pc (P : Type) where
  | idle
  | beginning
  | running (inner : Option Nat)
  | rollingBack (out : Outcome P)
  | committing
  | finished (out : Outcome P)

structure Call (P : Type) where
  isolationLevel : IsolationLevel
  ctxErr : Option DbErr
  pc : Pc P
  -- what `BeginTx`, `fn` and then `Rollback` or `Commit` have returned
  begun : Option (Option DbErr)
  result : Option (Outcome P)
  closed : Option (Option DbErr)

def Call.new (isolationLevel : IsolationLevel) (pc : Pc P) : Call P := ⟨isolationLevel, none, pc, none, none, none⟩

structure Sys (Q P : Type) where
  db : Database Q
  calls : Nat → Call P

inductive Action (Q P : Type) where
  | call (i : Nat) (isolationLevel : IsolationLevel) (inside : Option Nat)
  | endCtx (i : Nat) (err : DbErr)
  | beginTx (i : Nat) (err : Option DbErr)
  | exec (i : Nat) (q : Q) (answer : StmtAnswer DbErr)
  | awaitDone (i : Nat)
  | returns (i : Nat) (out : Outcome P)
  | rollback (i : Nat) (answer : Option DbErr)
  | commit (i : Nat) (answer : CommitAnswer DbErr)

def Pc.isIdle : Pc P → Bool
  | .idle => true
  | _ => false

def Pc.isFinished : Pc P → Bool
  | .finished _ => true
  | _ => false

def Pc.isBeginning : Pc P → Bool
  | .beginning => true
  | _ => false

/- From the return of `BeginTx` to that of `Rollback` or `Commit`. -/
def Pc.inTx : Pc P → Bool
  | .running _ | .rollingBack _ | .committing => true
  | _ => false

/-! ### The code around `fn` -/

def errInFailedTransaction : DbErr :=
  .node ⟨.var "pq.ErrInFailedTransaction", "pq: Could not complete operation in a failed transaction",
    fun _ => false, none⟩ []

def refusalErr : Refusal DbErr → DbErr
  | .txDone => errTxDone
  | .failedTx => errInFailedTransaction
  | .err e => e

def beginFailed (n : Nat) (err : DbErr) : Outcome P :=
  .returned (some (.errorf n ("failed to begin transaction: " ++ err.error) [err]))

def commitFailed (n : Nat) (err : DbErr) : Outcome P :=
  .returned (some (.errorf n ("failed to commit transaction: " ++ err.error) [err]))

/- Where the code goes on after `fn`. -/
def afterFn : Outcome P → Pc P
  | .returned none => .committing
  | out => .rollingBack out

/- What the call ends with, by what `fn` did and what `Rollback` or `Commit` returned. -/
def conclusion (n : Nat) : Outcome P → Option DbErr → Outcome P
  | .panicked p, _ => .panicked p
  | .returned (some err), some rbErr => .returned (some (rollbackFailed n err rbErr))
  | .returned (some err), none => .returned (some err)
  | .returned none, some err => commitFailed n err
  | .returned none, none => .returned none

/- A database that gives the answers of one call. -/
def answering (begun closed : Option DbErr) : TxDB Unit Unit where
  beginTx _ s := (match begun with | some err => .error err | none => .ok (), s)
  rollback _ s := (closed, s)
  commit _ s := (closed, s)

theorem withTransaction_begun (n : Nat) (level : IsolationLevel) (out : Outcome P) (closed : Option DbErr) :
    (withTransaction (answering none closed) n level (fun _ s => (out, s)) ()).1 = conclusion n out closed := by
  rcases out with (_ | err) | p <;> cases closed <;> rfl

theorem withTransaction_refused (n : Nat) (level : IsolationLevel) (err : DbErr) (out : Outcome P)
    (closed : Option DbErr) :
    (withTransaction (answering (some err) closed) n level (fun _ s => (out, s)) ()).1 = beginFailed n err := rfl

/-! ### Steps -/

namespace Sys

def start (client : PostgresClient) : Sys Q P := ⟨.empty client.db.maxOpen.toNat, fun _ => .new .default .idle⟩

def setCall (s : Sys Q P) (i : Nat) (c : Call P) : Sys Q P := { s with calls := Function.update s.calls i c }

@[simp] theorem setCall_self (s : Sys Q P) (i : Nat) (c : Call P) : (s.setCall i c).calls i = c :=
  Function.update_self ..

theorem setCall_other (s : Sys Q P) {i x : Nat} (c : Call P) (h : x ≠ i) : (s.setCall i c).calls x = s.calls x :=
  Function.update_of_ne h ..

/- The code of `fn` can go on. -/
def inFn (s : Sys Q P) (i : Nat) : Bool :=
  match (s.calls i).pc with
  | .running none => true
  | .running (some j) => (s.calls j).pc.isFinished
  | _ => false

/- `closeTx` is the return of `Rollback` or `Commit`, with which the call ends. -/
def closeTx (s : Sys Q P) (i : Nat) (tx : Tx Q) (out : Outcome P) (answer : Option (Refusal DbErr) × Option Ending) :
    Sys Q P :=
  { db := s.db.conclude i tx answer.2
    calls := Function.update s.calls i
      { s.calls i with pc := .finished (conclusion i out (answer.1.map refusalErr)), closed := some (answer.1.map refusalErr) } }

end Sys

def step (s : Sys Q P) : Action Q P → Option (Sys Q P)
  | .call i level inside =>
    if (s.calls i).pc.isIdle then
      match inside with
      | none => some (s.setCall i (.new level .beginning))
      | some p =>
        if s.inFn p then
          some ((s.setCall p { s.calls p with pc := .running (some i) }).setCall i (.new level .beginning))
        else none
    else none
  | .endCtx i err =>
    if (s.calls i).ctxErr.isNone then some (s.setCall i { s.calls i with ctxErr := some err }) else none
  | .beginTx i none =>
    if (s.calls i).pc.isBeginning && s.db.room then
      some { s.setCall i { s.calls i with pc := .running none, begun := some none } with db := s.db.begin i }
    else none
  | .beginTx i (some err) =>
    -- the wait for a connection ends with the context only
    if (s.calls i).pc.isBeginning && (s.db.room || (s.calls i).ctxErr.isSome) then
      some (s.setCall i { s.calls i with pc := .finished (beginFailed i err), begun := some (some err) })
    else none
  | .exec i q answer =>
    match s.inFn i, s.db.txs i with
    | true, some tx => some { s with db := s.db.setTx i (tx.exec q answer).2 }
    | _, _ => none
  | .awaitDone i =>
    match (s.calls i).ctxErr, s.db.txs i with
    | some _, some tx =>
      if tx.ended.isNone then some { s with db := s.db.conclude i tx (some .rolledBack) } else none
    | _, _ => none
  | .returns i out =>
    if s.inFn i then some (s.setCall i { s.calls i with pc := afterFn out, result := some out }) else none
  | .rollback i answer =>
    match (s.calls i).pc, s.db.txs i with
    | .rollingBack out, some tx => some (s.closeTx i tx out (tx.rollback answer))
    | _, _ => none
  | .commit i answer =>
    match (s.calls i).pc, s.db.txs i with
    | .committing, some tx => some (s.closeTx i tx (.returned none) (tx.commit (s.calls i).ctxErr answer))
    | _, _ => none

variable {s t : Sys Q P} {a : Action Q P} {as : List (Action Q P)} {i : Nat}

inductive Step (s : Sys Q P) : Action Q P → Sys Q P → Prop where
  | call (i : Nat) (level : IsolationLevel) (h : (s.calls i).pc = .idle) :
    Step s (.call i level none) (s.setCall i (.new level .beginning))
  | nested (i p : Nat) (inner : Option Nat) (level : IsolationLevel) (h : (s.calls i).pc = .idle)
    (hp : (s.calls p).pc = .running inner) (hfn : s.inFn p = true) :
    Step s (.call i level (some p))
      ((s.setCall p { s.calls p with pc := .running (some i) }).setCall i (.new level .beginning))
  | endCtx (i : Nat) (err : DbErr) (h : (s.calls i).ctxErr = none) :
    Step s (.endCtx i err) (s.setCall i { s.calls i with ctxErr := some err })
  | began (i : Nat) (h : (s.calls i).pc = .beginning) (hroom : s.db.room = true) :
    Step s (.beginTx i none)
      { s.setCall i { s.calls i with pc := .running none, begun := some none } with db := s.db.begin i }
  | refused (i : Nat) (err : DbErr) (h : (s.calls i).pc = .beginning)
    (hwhy : s.db.room = true ∨ (s.calls i).ctxErr ≠ none) :
    Step s (.beginTx i (some err))
      (s.setCall i { s.calls i with pc := .finished (beginFailed i err), begun := some (some err) })
  | exec (i : Nat) (inner : Option Nat) (q : Q) (answer : StmtAnswer DbErr) (tx : Tx Q)
    (h : (s.calls i).pc = .running inner) (hfn : s.inFn i = true) (htx : s.db.txs i = some tx) :
    Step s (.exec i q answer) { s with db := s.db.setTx i (tx.exec q answer).2 }
  | awaitDone (i : Nat) (err : DbErr) (tx : Tx Q) (hctx : (s.calls i).ctxErr = some err)
    (htx : s.db.txs i = some tx) (hopen : tx.ended = none) :
    Step s (.awaitDone i) { s with db := s.db.conclude i tx (some .rolledBack) }
  | returns (i : Nat) (inner : Option Nat) (out : Outcome P) (h : (s.calls i).pc = .running inner)
    (hfn : s.inFn i = true) :
    Step s (.returns i out) (s.setCall i { s.calls i with pc := afterFn out, result := some out })
  | rollback (i : Nat) (answer : Option DbErr) (out : Outcome P) (tx : Tx Q) (h : (s.calls i).pc = .rollingBack out)
    (htx : s.db.txs i = some tx) : Step s (.rollback i answer) (s.closeTx i tx out (tx.rollback answer))
  | commit (i : Nat) (answer : CommitAnswer DbErr) (tx : Tx Q) (h : (s.calls i).pc = .committing)
    (htx : s.db.txs i = some tx) :
    Step s (.commit i answer) (s.closeTx i tx (.returned none) (tx.commit (s.calls i).ctxErr answer))

theorem Pc.isIdle_iff {pc : Pc P} : pc.isIdle = true ↔ pc = .idle := by
  cases pc <;> simp [Pc.isIdle]

theorem Pc.isBeginning_iff {pc : Pc P} : pc.isBeginning = true ↔ pc = .beginning := by
  cases pc <;> simp [Pc.isBeginning]

theorem Sys.inFn_running (h : s.inFn i = true) : ∃ inner, (s.calls i).pc = .running inner := by
  unfold Sys.inFn at h
  split at h
  · exact ⟨_, ‹_›⟩
  · exact ⟨_, ‹_›⟩
  · cases h

theorem step_cases (h : step s a = some t) : Step s a t := by
  cases a with
  | call i level inside =>
    simp only [step, Option.ite_none_right_eq_some, Pc.isIdle_iff] at h
    obtain ⟨hidle, h⟩ := h
    cases inside with
    | none =>
      cases h
      exact .call i level hidle
    | some p =>
      simp only [Option.ite_none_right_eq_some, Option.some.injEq] at h
      obtain ⟨hfn, rfl⟩ := h
      obtain ⟨inner, hp⟩ := s.inFn_running hfn
      exact .nested i p inner level hidle hp hfn
  | endCtx i err =>
    simp only [step, Option.ite_none_right_eq_some, Option.isNone_iff_eq_none, Option.some.injEq] at h
    obtain ⟨hctx, rfl⟩ := h
    exact .endCtx i err hctx
  | beginTx i err =>
    cases err with
    | none =>
      simp only [step, Option.ite_none_right_eq_some, Bool.and_eq_true, Pc.isBeginning_iff, Option.some.injEq] at h
      obtain ⟨⟨hpc, hroom⟩, rfl⟩ := h
      exact .began i hpc hroom
    | some err =>
      simp only [step, Option.ite_none_right_eq_some, Bool.and_eq_true, Bool.or_eq_true, Pc.isBeginning_iff,
        Option.isSome_iff_ne_none, Option.some.injEq] at h
      obtain ⟨⟨hpc, hwhy⟩, rfl⟩ := h
      exact .refused i err hpc hwhy
  | exec i q answer =>
    simp only [step] at h
    split at h
    · rename_i tx hfn htx
      cases h
      obtain ⟨inner, hpc⟩ := s.inFn_running hfn
      exact .exec i inner q answer tx hpc hfn htx
    · cases h
  | awaitDone i =>
    simp only [step] at h
    split at h
    · rename_i err tx hctx htx
      simp only [Option.ite_none_right_eq_some, Option.isNone_iff_eq_none, Option.some.injEq] at h
      obtain ⟨hopen, rfl⟩ := h
      exact .awaitDone i err tx hctx htx hopen
    · cases h
  | returns i out =>
    simp only [step, Option.ite_none_right_eq_some, Option.some.injEq] at h
    obtain ⟨hfn, rfl⟩ := h
    obtain ⟨inner, hpc⟩ := s.inFn_running hfn
    exact .returns i inner out hpc hfn
  | rollback i answer =>
    simp only [step] at h
    split at h
    · rename_i out tx hpc htx
      cases h
      exact .rollback i answer out tx hpc htx
    · cases h
  | commit i answer =>
    simp only [step] at h
    split at h
    · rename_i tx hpc htx
      cases h
      exact .commit i answer tx hpc htx
    · cases h

/-! ### The transaction of a call -/

/- While the call is at work its transaction is open, or has ended with the context. -/
def Live (c : Call P) (tx : Tx Q) : Prop := tx.ended = none ∨ tx.ended = some .rolledBack ∧ c.ctxErr ≠ none

/- How the transaction has ended when the call has. Only a commit after the end of the
context leaves it to the rollback that is on its way. -/
structure Closed (ctxErr : Option DbErr) (out : Outcome P) (closed : Option DbErr) (tx : Tx Q) : Prop where
  aborted : out ≠ .returned none → tx.ended = some .rolledBack
  committed : out = .returned none → closed = none → tx.ended = some .committed
  left : tx.ended = none → closed ≠ none ∧ closed = ctxErr

def Fits (i : Nat) (c : Call P) (tx : Option (Tx Q)) : Prop :=
  match c.pc with
  | .idle | .beginning => tx = none
  | .running _ => c.begun = some none ∧ ∃ t, tx = some t ∧ Live c t
  | .rollingBack out => c.begun = some none ∧ c.result = some out ∧ out ≠ .returned none ∧ ∃ t, tx = some t ∧ Live c t
  | .committing => c.begun = some none ∧ c.result = some (.returned none) ∧ ∃ t, tx = some t ∧ Live c t
  | .finished out =>
    (∃ err, c.begun = some (some err) ∧ out = beginFailed i err ∧ tx = none) ∨
      c.begun = some none ∧ ∃ r closed t, c.result = some r ∧ c.closed = some closed ∧ out = conclusion i r closed ∧
        tx = some t ∧ Closed c.ctxErr r closed t

structure Inv (s : Sys Q P) : Prop where
  wellFormed : s.db.WellFormed
  fits : ∀ i, Fits i (s.calls i) (s.db.txs i)

theorem inv_start (client : PostgresClient) : Inv (.start client : Sys Q P) :=
  ⟨Database.empty_wellFormed _, fun _ => rfl⟩

theorem Inv.moved (hs : Inv s) (hwf : t.db.WellFormed) (hself : Fits i (t.calls i) (t.db.txs i))
    (hother : ∀ x, x ≠ i → t.calls x = s.calls x ∧ t.db.txs x = s.db.txs x) : Inv t := by
  refine ⟨hwf, fun x => ?_⟩
  by_cases hx : x = i
  · subst hx
    exact hself
  · rw [(hother x hx).1, (hother x hx).2]
    exact hs.fits x

/- The step of one call, its transaction aside. -/
theorem Inv.setCall (hs : Inv s) (c : Call P) (h : Fits i c (s.db.txs i)) : Inv (s.setCall i c) := by
  refine hs.moved hs.wellFormed ?_ (fun x hx => ⟨s.setCall_other c hx, rfl⟩)
  rw [s.setCall_self]
  exact h

theorem Fits.ctx {c : Call P} {tx : Option (Tx Q)} (err : DbErr) (h : Fits i c tx) (hctx : c.ctxErr = none) :
    Fits i { c with ctxErr := some err } tx := by
  have hlive (t : Tx Q) (ht : Live c t) : Live { c with ctxErr := some err } t :=
    ht.imp_right fun ⟨hended, _⟩ => ⟨hended, by simp⟩
  unfold Fits at h ⊢
  cases hpc : c.pc with
  | idle | beginning =>
    rw [hpc] at h
    exact h
  | running inner =>
    rw [hpc] at h
    obtain ⟨hbegun, t, htx, ht⟩ := h
    exact ⟨hbegun, t, htx, hlive t ht⟩
  | rollingBack out =>
    rw [hpc] at h
    obtain ⟨hbegun, hresult, hout, t, htx, ht⟩ := h
    exact ⟨hbegun, hresult, hout, t, htx, hlive t ht⟩
  | committing =>
    rw [hpc] at h
    obtain ⟨hbegun, hresult, t, htx, ht⟩ := h
    exact ⟨hbegun, hresult, t, htx, hlive t ht⟩
  | finished out =>
    rw [hpc] at h
    refine h.imp_right ?_
    rintro ⟨hbegun, r, closed, t, hresult, hclosed, hout, htx, ht⟩
    refine ⟨hbegun, r, closed, t, hresult, hclosed, hout, htx, ht.aborted, ht.committed, fun hopen => ?_⟩
    -- an open transaction of a finished call means that the context has ended before
    obtain ⟨hne, heq⟩ := ht.left hopen
    exact absurd (heq.trans hctx) hne

/- The rollback that follows the end of a context, wherever the call stands. -/
theorem Fits.rolledBack {c : Call P} {tx : Tx Q} (h : Fits i c (some tx)) (hctx : c.ctxErr ≠ none)
    (hopen : tx.ended = none) : Fits i c (some { tx with ended := some .rolledBack }) := by
  have hlive : Live c { tx with ended := some .rolledBack } := .inr ⟨rfl, hctx⟩
  unfold Fits at h ⊢
  split at h
  · cases h
  · cases h
  · exact ⟨h.1, _, rfl, hlive⟩
  · exact ⟨h.1, h.2.1, h.2.2.1, _, rfl, hlive⟩
  · exact ⟨h.1, h.2.1, _, rfl, hlive⟩
  · rcases h with ⟨_, _, _, h⟩ | ⟨hbegun, r, closed, t, hresult, hclosed, hout, htx, ht⟩
    · cases h
    · cases htx
      refine .inr ⟨hbegun, r, closed, _, hresult, hclosed, hout, rfl, fun _ => rfl, ?_, fun h => by cases h⟩
      intro hr hnone
      rw [ht.committed hr hnone] at hopen
      cases hopen

theorem afterFn_fits {c : Call P} {tx : Option (Tx Q)} {inner : Option Nat} (hpc : c.pc = .running inner)
    (h : Fits i c tx) (out : Outcome P) : Fits i { c with pc := afterFn out, result := some out } tx := by
  rw [Fits, hpc] at h
  obtain ⟨hbegun, t, htx, ht⟩ := h
  rcases out with (_ | err) | p
  · exact ⟨hbegun, rfl, t, htx, ht⟩
  · exact ⟨hbegun, rfl, by simp, t, htx, ht⟩
  · exact ⟨hbegun, rfl, by simp, t, htx, ht⟩

/- `Rollback` and `Commit` on the transaction of a call in progress. -/
theorem Inv.closeTx (hs : Inv s) {tx : Tx Q} {out : Outcome P} {refusal : Option (Refusal DbErr)}
    {ending : Option Ending} (htx : s.db.txs i = some tx) (hbegun : (s.calls i).begun = some none)
    (hresult : (s.calls i).result = some out) (hopen : ∀ e, ending = some e → tx.ended = none)
    (hfailed : ending = some .committed → tx.failed = false)
    (hclosed : Closed (s.calls i).ctxErr out (refusal.map refusalErr) { tx with ended := ending.or tx.ended }) :
    Inv (s.closeTx i tx out (refusal, ending)) := by
  refine hs.moved (i := i) ?_ ?_ ?_
  · cases ending with
    | none => exact hs.wellFormed
    | some e =>
      exact Database.conclude_wellFormed hs.wellFormed htx (hopen e rfl) e fun he => hfailed (congrArg some he)
  · have hcall : (s.closeTx i tx out (refusal, ending)).calls i = { s.calls i with
        pc := .finished (conclusion i out (refusal.map refusalErr)), closed := some (refusal.map refusalErr) } :=
      Function.update_self ..
    rw [hcall]
    refine .inr ⟨hbegun, out, _, _, hresult, rfl, rfl, ?_, hclosed⟩
    cases ending with
    | none => simpa [Sys.closeTx, Database.conclude] using htx
    | some e => simp [Sys.closeTx, Database.conclude]
  · intro x hx
    refine ⟨Function.update_of_ne hx .., ?_⟩
    cases ending with
    | none => rfl
    | some e => exact Function.update_of_ne hx ..

theorem Inv.rollback (hs : Inv s) {tx : Tx Q} {out : Outcome P} (hpc : (s.calls i).pc = .rollingBack out)
    (htx : s.db.txs i = some tx) (answer : Option DbErr) : Inv (s.closeTx i tx out (tx.rollback answer)) := by
  have hfits := hs.fits i
  rw [Fits, hpc, htx] at hfits
  obtain ⟨hbegun, hresult, hout, t, heq, hlive⟩ := hfits
  cases heq
  rcases tx.rollback_cases answer with ⟨hended, h⟩ | ⟨hopen, h⟩
  · rw [h]
    have hback : tx.ended = some .rolledBack := (hlive.resolve_left hended).1
    refine hs.closeTx htx hbegun hresult (fun _ h => by cases h) (fun h => by cases h) ⟨fun _ => hback, ?_, ?_⟩
    · exact fun hnil => absurd hnil hout
    · exact fun h => absurd (hback.symm.trans h) (by simp)
  · rw [h]
    exact hs.closeTx htx hbegun hresult (fun _ _ => hopen) (fun h => by cases h)
      ⟨fun _ => rfl, fun hnil => absurd hnil hout, fun h => (by cases h)⟩

theorem Inv.commit (hs : Inv s) {tx : Tx Q} (hpc : (s.calls i).pc = .committing) (htx : s.db.txs i = some tx)
    (answer : CommitAnswer DbErr) :
    Inv (s.closeTx i tx (.returned none) (tx.commit (s.calls i).ctxErr answer)) := by
  have hfits := hs.fits i
  rw [Fits, hpc, htx] at hfits
  obtain ⟨hbegun, hresult, t, heq, hlive⟩ := hfits
  cases heq
  have hcommits := tx.commits (s.calls i).ctxErr answer
  generalize tx.commit (s.calls i).ctxErr answer = r at hcommits ⊢
  obtain ⟨refusal, ending⟩ := r
  dsimp only at hcommits
  have hnil {A : Prop} (h : (.returned none : Outcome P) ≠ .returned none) : A := absurd rfl h
  cases hcommits with
  | ended hended =>
    exact hs.closeTx htx hbegun hresult (fun _ h => by cases h) (fun h => by cases h)
      ⟨hnil, fun _ h => (by cases h), fun h => absurd h hended⟩
  | ctx e hopen hctx =>
    exact hs.closeTx htx hbegun hresult (fun _ h => by cases h) (fun h => by cases h)
      ⟨hnil, fun _ h => (by cases h), fun _ => ⟨by simp, by rw [hctx]; rfl⟩⟩
  | failed hopen =>
    exact hs.closeTx htx hbegun hresult (fun _ _ => hopen) (fun h => by cases h)
      ⟨hnil, fun _ h => (by cases h), fun h => by cases h⟩
  | done hopen hfailed =>
    exact hs.closeTx htx hbegun hresult (fun _ _ => hopen) (fun _ => hfailed) ⟨hnil, fun _ _ => rfl, fun h => by cases h⟩
  | lost e how hopen hfailed =>
    exact hs.closeTx htx hbegun hresult (fun _ _ => hopen) (fun _ => hfailed)
      ⟨hnil, fun _ h => (by cases h), fun h => by cases h⟩

theorem inv_step (hs : Inv s) (h : Step s a t) : Inv t := by
  cases h with
  | call i level hidle =>
    have hfits := hs.fits i
    rw [Fits, hidle] at hfits
    exact hs.setCall _ hfits
  | nested i p inner level hidle hp hfn =>
    have hfits := hs.fits p
    rw [Fits, hp] at hfits
    have hnext : Inv (s.setCall p { s.calls p with pc := .running (some i) }) := hs.setCall _ hfits
    have hidle' := hs.fits i
    rw [Fits, hidle] at hidle'
    exact hnext.setCall _ hidle'
  | endCtx i err hctx => exact hs.setCall _ ((hs.fits i).ctx err hctx)
  | began i hpc hroom =>
    have hfits := hs.fits i
    rw [Fits, hpc] at hfits
    refine hs.moved (Database.begin_wellFormed hs.wellFormed hfits hroom) ?_
      (fun x hx => ⟨Function.update_of_ne hx .., Function.update_of_ne hx ..⟩)
    simp [Sys.setCall, Database.begin, Fits, Live, Tx.fresh]
  | refused i err hpc hwhy =>
    have hfits := hs.fits i
    rw [Fits, hpc] at hfits
    exact hs.setCall _ (.inl ⟨err, rfl, rfl, hfits⟩)
  | exec i inner q answer tx hpc hfn htx =>
    have hcases := tx.exec_cases q answer
    refine hs.moved (Database.setTx_wellFormed hs.wellFormed htx hcases) ?_
      (fun x hx => ⟨rfl, Function.update_of_ne hx ..⟩)
    have hfits := hs.fits i
    rw [Fits, hpc, htx] at hfits
    obtain ⟨hbegun, t, heq, hlive⟩ := hfits
    cases heq
    have hlive' : Live (s.calls i) (tx.exec q answer).2 := by
      rcases hcases with h | ⟨-, h⟩
      · rw [h]
        exact hlive
      · exact .inl h
    rw [Fits, hpc]
    exact ⟨hbegun, _, Function.update_self .., hlive'⟩
  | awaitDone i err tx hctx htx hopen =>
    refine hs.moved (Database.conclude_wellFormed hs.wellFormed htx hopen _ (fun h => by cases h)) ?_
      (fun x hx => ⟨rfl, Function.update_of_ne hx ..⟩)
    have hfits := hs.fits i
    rw [htx] at hfits
    have hnew := hfits.rolledBack (by simp [hctx]) hopen
    simpa [Database.conclude] using hnew
  | returns i inner out hpc hfn => exact hs.setCall _ (afterFn_fits hpc (hs.fits i) out)
  | rollback i answer out tx hpc htx => exact hs.rollback hpc htx answer
  | commit i answer tx hpc htx => exact hs.commit hpc htx answer

theorem inv_run {client : PostgresClient} (hrun : exec step (.start client) as = some s) : Inv s :=
  exec_invariant (fun _ _ _ hs h => inv_step hs (step_cases h)) (inv_start client) hrun

/-! ### All or nothing -/

/-- A call ends as `WithTransaction` does over a database with the answers it got. -/
theorem finished_withTransaction {client : PostgresClient} (hrun : exec step (.start client) as = some s)
    {out : Outcome P} (hpc : (s.calls i).pc = .finished out) :
    ∃ begun closed r, (s.calls i).begun = some begun ∧ (begun = none → (s.calls i).result = some r) ∧
      out = (withTransaction (answering begun closed) i (s.calls i).isolationLevel (fun _ u => (r, u)) ()).1 := by
  have hfits := (inv_run hrun).fits i
  rw [Fits, hpc] at hfits
  rcases hfits with ⟨err, hbegun, hout, -⟩ | ⟨hbegun, r, closed, -, hresult, -, hout, -⟩
  · exact ⟨some err, none, .returned none, hbegun, fun h => (by cases h), hout⟩
  · exact ⟨none, closed, r, hbegun, fun _ => hresult, by rw [withTransaction_begun, hout]⟩

theorem conclusion_nil {n : Nat} {r : Outcome P} {closed : Option DbErr} (h : conclusion n r closed = .returned none) :
    r = .returned none ∧ closed = none := by
  rcases r with (_ | err) | p <;> cases closed <;> simp_all [conclusion, commitFailed]

theorem Fits.committed {c : Call P} {tx : Tx Q} (h : Fits i c (some tx)) (hended : tx.ended = some .committed) :
    c.result = some (.returned none) ∧
      (c.pc = .finished (.returned none) ∨ ∃ err, c.pc = .finished (commitFailed i err)) := by
  have hnot (hlive : Live c tx) {A : Prop} : A := by
    rcases hlive with h | ⟨h, -⟩ <;> simp [hended] at h
  unfold Fits at h
  split at h
  · cases h
  · cases h
  · obtain ⟨-, t, heq, hlive⟩ := h
    cases heq
    exact hnot hlive
  · obtain ⟨-, -, -, t, heq, hlive⟩ := h
    cases heq
    exact hnot hlive
  · obtain ⟨-, -, t, heq, hlive⟩ := h
    cases heq
    exact hnot hlive
  · rename_i out hpc
    rcases h with ⟨_, _, _, h⟩ | ⟨-, r, closed, t, hresult, -, hout, heq, hclosed⟩
    · cases h
    · cases heq
      have hr : r = .returned none := by
        by_contra hne
        have hback := hclosed.aborted hne
        rw [hended] at hback
        cases hback
      subst hr
      refine ⟨hresult, ?_⟩
      rw [hpc, hout]
      cases closed with
      | none => exact .inl rfl
      | some err => exact .inr ⟨err, rfl⟩

/-- In every run in which `fn` sends no transaction control (`COMMIT`, `ROLLBACK`,
`SAVEPOINT`), whatever else statements, contexts and connections do: each transaction
the server has kept is that of one call, kept once and with every statement that
succeeded in it and none that failed; `fn` has returned nil there, and the call has
ended with nil or with a failed commit. And every call that has ended with nil has
its transaction kept. So an error or a panic of `fn` leaves nothing behind, and
neither does an `fn` that returns nil after a statement the server refused. -/
theorem withTransaction_atomic (client : PostgresClient) (as : List (Action Q P)) (s : Sys Q P)
    (hrun : exec step (.start client) as = some s) :
    (s.db.history.map Prod.fst).Nodup ∧
      (∀ i stmts, (i, stmts) ∈ s.db.history →
        (∃ tx, s.db.txs i = some tx ∧ tx.stmts = stmts ∧ tx.failed = false) ∧
        (s.calls i).result = some (.returned none) ∧
        ((s.calls i).pc = .finished (.returned none) ∨ ∃ err, (s.calls i).pc = .finished (commitFailed i err))) ∧
      ∀ i, (s.calls i).pc = .finished (.returned none) → ∃ stmts, (i, stmts) ∈ s.db.history := by
  have hs := inv_run hrun
  refine ⟨hs.wellFormed.once, ?_, ?_⟩
  · intro i stmts hmem
    obtain ⟨tx, htx, hended, hstmts⟩ := (hs.wellFormed.keeps i stmts).mp hmem
    have hfits := hs.fits i
    rw [htx] at hfits
    exact ⟨⟨tx, htx, hstmts, hs.wellFormed.sound i tx htx hended⟩, hfits.committed hended⟩
  · intro i hpc
    have hfits := hs.fits i
    rw [Fits, hpc] at hfits
    rcases hfits with ⟨err, -, hout, -⟩ | ⟨-, r, closed, tx, -, -, hout, htx, hclosed⟩
    · simp [beginFailed] at hout
    · obtain ⟨hr, hnone⟩ := conclusion_nil hout.symm
      exact ⟨tx.stmts, (hs.wellFormed.keeps i tx.stmts).mpr ⟨tx, htx, hclosed.committed hr hnone, rfl⟩⟩

def oneConnection : PostgresClient where
  db := configure ⟨⟨0⟩, 1, 0, 0, 0⟩ .opened
  config := ⟨⟨0⟩, 1, 0, 0, 0⟩

-- the second call gets the connection when the first has committed, and panics
def transfers : List (Action String String) :=
  [.call 0 .serializable none, .call 1 .default none, .beginTx 0 none, .exec 0 "debit" .done, .exec 0 "credit" .done,
   .returns 0 (.returned none), .commit 0 .done, .beginTx 1 none, .exec 1 "audit" .done, .returns 1 (.panicked "nil map"),
   .rollback 1 none]

theorem withTransaction_atomic_transfers :
    ∃ s, exec step (.start oneConnection) transfers = some s ∧
      (s.calls 0).pc = .finished (.returned none) ∧ (s.calls 1).pc = .finished (.panicked "nil map") ∧
      s.db.history = [(0, ["debit", "credit"])] ∧ (∃ stmts, (0, stmts) ∈ s.db.history) :=
  ⟨_, rfl, rfl, rfl, rfl, (withTransaction_atomic oneConnection transfers _ rfl).2.2 0 rfl⟩

/-! ### Connections -/

theorem Inv.holder (hs : Inv s) (hmem : i ∈ s.db.inUse) : ∃ tx, s.db.txs i = some tx ∧ tx.ended = none ∧
    ((s.calls i).pc.inTx = true ∨ ∃ err, (s.calls i).ctxErr = some err ∧ (s.calls i).pc = .finished (commitFailed i err)) := by
  obtain ⟨tx, htx, hopen⟩ := (hs.wellFormed.holds i).mp hmem
  refine ⟨tx, htx, hopen, ?_⟩
  have hfits := hs.fits i
  rw [Fits, htx] at hfits
  cases hpc : (s.calls i).pc with
  | idle | beginning =>
    rw [hpc] at hfits
    cases hfits
  | running | rollingBack | committing => exact .inl rfl
  | finished out =>
    rw [hpc] at hfits
    rcases hfits with ⟨_, _, _, h⟩ | ⟨-, r, closed, t, -, -, hout, heq, hclosed⟩
    · cases h
    · cases heq
      obtain ⟨hne, hctx⟩ := hclosed.left hopen
      obtain ⟨err, herr⟩ := Option.ne_none_iff_exists'.mp hne
      have hr : r = .returned none := by
        by_contra hr
        rw [hclosed.aborted hr] at hopen
        cases hopen
      rw [hr, herr] at hout
      exact .inr ⟨err, hctx.symm.trans herr, congrArg Pc.finished hout⟩

theorem step_maxOpen (h : Step s a t) : t.db.maxOpen = s.db.maxOpen := by
  cases h with
  | rollback | commit => exact Database.conclude_maxOpen ..
  | _ => rfl

/-- In every run of `WithTransaction` calls, with no query outside of them, no more
connections are in use than `MaxOpenConns` allows, none twice, and each by a call
between `BeginTx` and the end of its transaction. The one exception is a commit that
came after the end of the context: there the rollback that `database/sql` has due
gives the connection back. -/
theorem connections_released (n : Nat) (openErr pingErr : Option DbErr) (config : PoolConfig) (client : PostgresClient)
    (hclient : (newPostgresClient n openErr pingErr config).1 = .ok client) (as : List (Action Q P)) (s : Sys Q P)
    (hrun : exec step (.start client) as = some s) :
    s.db.inUse.Nodup ∧ (config.maxOpenConns ≤ 0 ∨ s.db.inUse.length ≤ config.maxOpenConns) ∧
      ∀ i ∈ s.db.inUse, (s.calls i).pc.inTx = true ∨
        ∃ err, (s.calls i).ctxErr = some err ∧ (s.calls i).pc = .finished (commitFailed i err) ∧
          ∃ t, step s (.awaitDone i) = some t ∧ i ∉ t.db.inUse := by
  have hs := inv_run hrun
  refine ⟨hs.wellFormed.distinct, ?_, ?_⟩
  · have hlimit : s.db.maxOpen = client.db.maxOpen.toNat :=
      exec_invariant (I := fun u => u.db.maxOpen = client.db.maxOpen.toNat)
        (fun _ _ _ hu h => (step_maxOpen (step_cases h)).trans hu) rfl hrun
    rw [newPostgresClient_maxOpen hclient] at hlimit
    have hle := hs.wellFormed.limit
    split at hlimit <;> omega
  · intro i hmem
    obtain ⟨tx, htx, hopen, hpc | ⟨err, hctx, hpc⟩⟩ := hs.holder hmem
    · exact .inl hpc
    · refine .inr ⟨err, hctx, hpc, { s with db := s.db.conclude i tx (some .rolledBack) }, ?_, ?_⟩
      · simp [step, hctx, htx, hopen]
      · exact hs.wellFormed.distinct.not_mem_erase

-- the context ends before the commit, and the rollback has not run
def lateCommit : List (Action String String) :=
  [.call 0 .default none, .beginTx 0 none, .returns 0 (.returned none), .endCtx 0 serializationFailure, .commit 0 .done]

theorem connections_released_lateCommit :
    ∃ s, exec step (.start oneConnection) lateCommit = some s ∧ s.db.inUse = [0] ∧
      ∃ t, step s (.awaitDone 0) = some t ∧ 0 ∉ t.db.inUse := by
  obtain ⟨s, hrun, hmem, hpc⟩ : ∃ s, exec step (.start oneConnection) lateCommit = some s ∧ s.db.inUse = [0] ∧
      (s.calls 0).pc.inTx = false := ⟨_, rfl, rfl, rfl⟩
  refine ⟨s, hrun, hmem, ?_⟩
  have hall := (connections_released 0 none none ⟨⟨0⟩, 1, 0, 0, 0⟩ oneConnection rfl lateCommit s hrun).2.2
  rcases hall 0 (by simp [hmem]) with h | ⟨-, -, -, h⟩
  · simp [hpc] at h
  · exact h

end Ghost.Db.Atomicity
