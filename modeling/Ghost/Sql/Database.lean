import Mathlib.Data.List.Nodup
import Mathlib.Logic.Function.Basic

/-!
# Transactions over a connection pool

`database/sql` over a server, as far as transactions go. A transaction holds a
connection of the pool from its begin to its end and collects the statements that
the server has executed for it. It ends once: by a commit, by a rollback, or by the
rollback that follows the end of its context. The server keeps the statements of a
committed transaction and of no other. What the server and the network answer is a
parameter of each call. The statements are queries and updates: with `COMMIT`,
`ROLLBACK` or `SAVEPOINT` sent as a statement the server would end the transaction, or
take up a failed one again, without `database/sql` knowing of it.
-/

namespace Sql

variable {Q E : Type*}

inductive Ending where
  | committed
  | rolledBack
  deriving DecidableEq, Repr

structure Tx (Q : Type*) where
  stmts : List Q
  -- the server has refused a statement, and refuses all that follow
  failed : Bool
  ended : Option Ending

/- Why a call on a transaction fails: it has ended, it is in a failed state, or
with an error of the context, the network or the server. -/
inductive Refusal (E : Type*) where
  | txDone
  | failedTx
  | err (e : E)

/- `unsent` is an error that the server has not seen. -/
inductive StmtAnswer (E : Type*) where
  | done
  | refused (e : E)
  | unsent (e : E)

/- The connection may be lost before or after the server commits. -/
inductive CommitAnswer (E : Type*) where
  | done
  | lost (e : E) (applied : Bool)

namespace Tx

def fresh : Tx Q := ⟨[], false, none⟩

def exec (tx : Tx Q) (q : Q) (answer : StmtAnswer E) : Option (Refusal E) × Tx Q :=
  if tx.ended.isSome then (some .txDone, tx)
  else if tx.failed then (some .failedTx, tx)
  else match answer with
    | .done => (none, { tx with stmts := tx.stmts ++ [q] })
    | .refused e => (some (.err e), { tx with failed := true })
    | .unsent e => (some (.err e), tx)

/- What `Commit` returns and how it ends the transaction, if it does: after the end of
the context it leaves that to the rollback on its way. -/
def commit (tx : Tx Q) (ctxErr : Option E) (answer : CommitAnswer E) : Option (Refusal E) × Option Ending :=
  if tx.ended.isSome then (some .txDone, none)
  else match ctxErr with
    | some e => (some (.err e), none)
    | none =>
      if tx.failed then (some .failedTx, some .rolledBack)
      else match answer with
        | .done => (none, some .committed)
        | .lost e applied => (some (.err e), some (if applied then .committed else .rolledBack))

/- Whatever `Rollback` returns, the server does not keep the transaction. -/
def rollback (tx : Tx Q) (answer : Option E) : Option (Refusal E) × Option Ending :=
  if tx.ended.isSome then (some .txDone, none) else (answer.map .err, some .rolledBack)

end Tx

structure Database (Q : Type*) where
  -- zero is no limit
  maxOpen : Nat
  txs : Nat → Option (Tx Q)
  -- the transactions that hold a connection
  inUse : List Nat
  -- what the server has kept, in the order of the commits
  history : List (Nat × List Q)

namespace Database

def empty (maxOpen : Nat) : Database Q := ⟨maxOpen, fun _ => none, [], []⟩

def room (db : Database Q) : Bool := db.maxOpen == 0 || decide (db.inUse.length < db.maxOpen)

def begin (db : Database Q) (id : Nat) : Database Q :=
  { db with txs := Function.update db.txs id (some .fresh), inUse := id :: db.inUse }

def setTx (db : Database Q) (id : Nat) (tx : Tx Q) : Database Q :=
  { db with txs := Function.update db.txs id (some tx) }

def kept (id : Nat) (tx : Tx Q) : Ending → List (Nat × List Q)
  | .committed => [(id, tx.stmts)]
  | .rolledBack => []

/- The end of a transaction gives its connection back. -/
def conclude (db : Database Q) (id : Nat) (tx : Tx Q) : Option Ending → Database Q
  | none => db
  | some e =>
    { db with
      txs := Function.update db.txs id (some { tx with ended := some e })
      inUse := db.inUse.erase id
      history := db.history ++ kept id tx e }

@[simp] theorem conclude_maxOpen (db : Database Q) (id : Nat) (tx : Tx Q) (e : Option Ending) :
    (db.conclude id tx e).maxOpen = db.maxOpen := by
  cases e <;> rfl

/-- Connections are held by the transactions that have not ended, and the server has
kept those that were committed, each once and with all its statements. -/
structure WellFormed (db : Database Q) : Prop where
  distinct : db.inUse.Nodup
  limit : db.maxOpen = 0 ∨ db.inUse.length ≤ db.maxOpen
  holds : ∀ id, id ∈ db.inUse ↔ ∃ tx, db.txs id = some tx ∧ tx.ended = none
  once : (db.history.map Prod.fst).Nodup
  keeps : ∀ id stmts, (id, stmts) ∈ db.history ↔
    ∃ tx, db.txs id = some tx ∧ tx.ended = some .committed ∧ tx.stmts = stmts
  sound : ∀ id tx, db.txs id = some tx → tx.ended = some .committed → tx.failed = false

variable {db : Database Q} {id : Nat} {tx : Tx Q}

theorem room_iff : db.room = true ↔ db.maxOpen = 0 ∨ db.inUse.length < db.maxOpen := by
  simp [room]

theorem empty_wellFormed (maxOpen : Nat) : (empty maxOpen : Database Q).WellFormed := by
  constructor <;> simp [empty]

section Changed

variable {d : Database Q}

/- The transaction `id` has become `tx`; the two lists have to follow for `id` only. -/
theorem WellFormed.changed (hdb : db.WellFormed) (htxs : d.txs = Function.update db.txs id (some tx))
    (hdistinct : d.inUse.Nodup) (hlimit : d.maxOpen = 0 ∨ d.inUse.length ≤ d.maxOpen)
    (hself : id ∈ d.inUse ↔ tx.ended = none) (hothers : ∀ x, x ≠ id → (x ∈ d.inUse ↔ x ∈ db.inUse))
    (honce : (d.history.map Prod.fst).Nodup)
    (hkept : ∀ stmts, (id, stmts) ∈ d.history ↔ tx.ended = some .committed ∧ tx.stmts = stmts)
    (hhistory : ∀ x stmts, x ≠ id → ((x, stmts) ∈ d.history ↔ (x, stmts) ∈ db.history))
    (hsound : tx.ended = some .committed → tx.failed = false) : d.WellFormed := by
  have hat : d.txs id = some tx := by rw [htxs, Function.update_self]
  have hother : ∀ x, x ≠ id → d.txs x = db.txs x := fun x hx => by rw [htxs, Function.update_of_ne hx]
  refine ⟨hdistinct, hlimit, ?_, honce, ?_, ?_⟩
  · intro x
    by_cases hx : x = id
    · subst hx
      simp only [hat, Option.some.injEq, exists_eq_left']
      exact hself
    · rw [hothers x hx, hother x hx]
      exact hdb.holds x
  · intro x stmts
    by_cases hx : x = id
    · subst hx
      simp only [hat, Option.some.injEq, exists_eq_left']
      exact hkept stmts
    · rw [hhistory x stmts hx, hother x hx]
      exact hdb.keeps x stmts
  · intro x tx' h hended
    by_cases hx : x = id
    · subst hx
      cases hat.symm.trans h
      exact hsound hended
    · exact hdb.sound x tx' ((hother x hx).symm.trans h) hended

end Changed

theorem WellFormed.not_kept (hdb : db.WellFormed) (h : ∀ tx, db.txs id = some tx → tx.ended ≠ some .committed)
    (stmts : List Q) : (id, stmts) ∉ db.history := by
  intro hmem
  obtain ⟨tx, htx, hended, -⟩ := (hdb.keeps id stmts).mp hmem
  exact h tx htx hended

theorem begin_wellFormed (hdb : db.WellFormed) (hnew : db.txs id = none) (hroom : db.room = true) :
    (db.begin id).WellFormed := by
  have hfree : id ∉ db.inUse := by
    intro hmem
    obtain ⟨tx, htx, -⟩ := (hdb.holds id).mp hmem
    rw [hnew] at htx
    cases htx
  refine hdb.changed rfl (List.nodup_cons.mpr ⟨hfree, hdb.distinct⟩) ?_ ?_ ?_ hdb.once ?_ (fun _ _ _ => Iff.rfl) ?_
  · rcases room_iff.mp hroom with h | h
    · exact .inl h
    · exact .inr h
  · simp [begin, Tx.fresh]
  · intro x hx
    exact List.mem_cons.trans (or_iff_right hx)
  · intro stmts
    have hnot : (id, stmts) ∉ db.history := hdb.not_kept (fun tx htx => by rw [hnew] at htx; cases htx) stmts
    simp [begin, Tx.fresh, hnot]
  · intro h
    cases h

/- A statement: the transaction is open before and after, or nothing changes. -/
theorem setTx_wellFormed (hdb : db.WellFormed) (htx : db.txs id = some tx) {tx' : Tx Q}
    (hsame : tx' = tx ∨ tx.ended = none ∧ tx'.ended = none) : (db.setTx id tx').WellFormed := by
  rcases hsame with rfl | ⟨hopen, hopen'⟩
  · have hupdate : db.setTx id tx' = db := by
      rw [setTx, ← htx, Function.update_eq_self]
    rw [hupdate]
    exact hdb
  · have hmem : id ∈ db.inUse := (hdb.holds id).mpr ⟨tx, htx, hopen⟩
    refine hdb.changed rfl hdb.distinct hdb.limit ⟨fun _ => hopen', fun _ => hmem⟩ (fun _ _ => Iff.rfl) hdb.once ?_
      (fun _ _ _ => Iff.rfl) ?_
    · intro stmts
      have hnot : (id, stmts) ∉ db.history :=
        hdb.not_kept (fun t ht => by rw [htx] at ht; cases ht; simp [hopen]) stmts
      simp [setTx, hopen', hnot]
    · intro h
      rw [hopen'] at h
      cases h

theorem conclude_wellFormed (hdb : db.WellFormed) (htx : db.txs id = some tx) (hopen : tx.ended = none) (e : Ending)
    (hfailed : e = .committed → tx.failed = false) : (db.conclude id tx (some e)).WellFormed := by
  have hnot (stmts : List Q) : (id, stmts) ∉ db.history :=
    hdb.not_kept (fun t ht => by rw [htx] at ht; cases ht; simp [hopen]) stmts
  refine hdb.changed rfl (hdb.distinct.erase id) ?_ ?_ ?_ ?_ ?_ ?_ ?_
  · exact hdb.limit.imp_right fun h => Nat.le_trans List.length_erase_le h
  · simp [conclude, hdb.distinct.not_mem_erase]
  · intro x hx
    exact List.mem_erase_of_ne hx
  · cases e with
    | rolledBack =>
      simp only [conclude, kept, List.append_nil]
      exact hdb.once
    | committed =>
      simp only [conclude, kept, List.map_append, List.map_cons, List.map_nil]
      refine hdb.once.append (List.nodup_singleton _) ?_
      intro x hx hid
      obtain ⟨⟨y, stmts⟩, hmem, rfl⟩ := List.mem_map.mp hx
      rw [List.mem_singleton] at hid
      subst hid
      exact hnot stmts hmem
  · intro stmts
    cases e with
    | rolledBack => simp [conclude, kept, hnot]
    | committed =>
      simp only [conclude, kept, List.mem_append, hnot, false_or, List.mem_singleton, Prod.mk.injEq, true_and]
      exact eq_comm
  · intro x stmts hx
    cases e with
    | rolledBack => simp [conclude, kept]
    | committed => simp [conclude, kept, hx]
  · intro h
    exact hfailed (Option.some.inj h)

/- The end of a transaction leaves room for another. -/
theorem conclude_room (hdb : db.WellFormed) (hmem : id ∈ db.inUse) (tx : Tx Q) (e : Ending) :
    (db.conclude id tx (some e)).room = true := by
  have hlen : (db.inUse.erase id).length = db.inUse.length - 1 := List.length_erase_of_mem hmem
  have hpos : 0 < db.inUse.length := List.length_pos_of_mem hmem
  refine room_iff.mpr (hdb.limit.imp_right fun hle => ?_)
  show (db.inUse.erase id).length < db.maxOpen
  omega

end Database

namespace Tx

variable {tx : Tx Q} {ctxErr : Option E}

theorem exec_cases (tx : Tx Q) (q : Q) (answer : StmtAnswer E) :
    (tx.exec q answer).2 = tx ∨ tx.ended = none ∧ (tx.exec q answer).2.ended = none := by
  unfold exec
  split
  · exact .inl rfl
  · rename_i hopen
    have hopen : tx.ended = none := by simpa using hopen
    split
    · exact .inl rfl
    · cases answer with
      | done => exact .inr ⟨hopen, hopen⟩
      | refused e => exact .inr ⟨hopen, hopen⟩
      | unsent e => exact .inl rfl

/-- `Commit` ends an open transaction as the server decides, or leaves it. -/
inductive Commits (tx : Tx Q) (ctxErr : Option E) : Option (Refusal E) → Option Ending → Prop where
  | ended (h : tx.ended ≠ none) : Commits tx ctxErr (some .txDone) none
  | ctx (e : E) (hopen : tx.ended = none) (h : ctxErr = some e) : Commits tx ctxErr (some (.err e)) none
  | failed (hopen : tx.ended = none) : Commits tx ctxErr (some .failedTx) (some .rolledBack)
  | done (hopen : tx.ended = none) (h : tx.failed = false) : Commits tx ctxErr none (some .committed)
  | lost (e : E) (how : Ending) (hopen : tx.ended = none) (h : tx.failed = false) :
    Commits tx ctxErr (some (.err e)) (some how)

theorem commits (tx : Tx Q) (ctxErr : Option E) (answer : CommitAnswer E) :
    Commits tx ctxErr (tx.commit ctxErr answer).1 (tx.commit ctxErr answer).2 := by
  unfold commit
  split
  · rename_i h
    exact .ended (Option.isSome_iff_ne_none.mp h)
  · rename_i hopen
    have hopen : tx.ended = none := by simpa using hopen
    cases ctxErr with
    | some e => exact .ctx e hopen rfl
    | none =>
      dsimp only
      split
      · exact .failed hopen
      · rename_i hfailed
        have hfailed : tx.failed = false := by simpa using hfailed
        cases answer with
        | done => exact .done hopen hfailed
        | lost e applied => exact .lost e _ hopen hfailed

theorem rollback_cases (tx : Tx Q) (answer : Option E) :
    tx.ended ≠ none ∧ tx.rollback answer = (some .txDone, none) ∨
      tx.ended = none ∧ tx.rollback answer = (answer.map .err, some .rolledBack) := by
  unfold rollback
  split
  · rename_i h
    exact .inl ⟨Option.isSome_iff_ne_none.mp h, rfl⟩
  · rename_i h
    exact .inr ⟨by simpa using h, rfl⟩

end Tx

end Sql
