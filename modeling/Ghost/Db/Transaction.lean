import Ghost.Db.Classify

/-!
# Transactions (db/postgres.go)

`WithTransaction` over a database whose `BeginTx`, `Rollback` and `Commit` are
functions of an arbitrary state, and an arbitrary `fn`. When `Rollback` fails, the
error of `fn` goes into the text of the returned error and the error of `Rollback`
into its tree.
-/

namespace Ghost.Db
open Go

inductive IsolationLevel where
  | default
  | readUncommitted
  | readCommitted
  | writeCommitted
  | repeatableRead
  | snapshot
  | serializable
  | linearizable
  deriving DecidableEq, Repr

/- How a call ends: it returns an error or nil, or it panics. -/
inductive Outcome (P : Type) where
  | returned (err : Option DbErr)
  | panicked (p : P)

structure TxDB (σ Tx : Type) where
  beginTx : IsolationLevel → σ → Except DbErr Tx × σ
  rollback : Tx → σ → Option DbErr × σ
  commit : Tx → σ → Option DbErr × σ

def rollbackFailed (n : Nat) (err rbErr : DbErr) : DbErr :=
  .errorf n ("transaction failed: " ++ err.error ++ ", rollback also failed: " ++ rbErr.error) [rbErr]

/- `n` is what the one `fmt.Errorf` on the path allocates. -/
def withTransaction {σ Tx P : Type} (db : TxDB σ Tx) (n : Nat) (isolationLevel : IsolationLevel)
    (fn : Tx → σ → Outcome P × σ) (s : σ) : Outcome P × σ :=
  match db.beginTx isolationLevel s with
  | (.error err, s) => (.returned (some (.errorf n ("failed to begin transaction: " ++ err.error) [err])), s)
  | (.ok tx, s) =>
    match fn tx s with
    | (.panicked p, s) => (.panicked p, (db.rollback tx s).2)
    | (.returned (some err), s) =>
      match db.rollback tx s with
      | (some rbErr, s) => (.returned (some (rollbackFailed n err rbErr)), s)
      | (none, s) => (.returned (some err), s)
    | (.returned none, s) =>
      match db.commit tx s with
      | (some err, s) => (.returned (some (.errorf n ("failed to commit transaction: " ++ err.error) [err])), s)
      | (none, s) => (.returned none, s)

/-! ### The text of a failed rollback -/

-- Where the keyword may be in the text is decided by the colons and the comma.
def Apart (kw : String) : Prop :=
  ':' ∉ kw.toList ∧ ',' ∉ kw.toList ∧ kw.toList.head? ≠ some ' ' ∧
    ¬ kw.toList <:+: "transaction failed".toList ∧ ¬ kw.toList <:+: " rollback also failed".toList

instance (kw : String) : Decidable (Apart kw) := inferInstanceAs (Decidable (_ ∧ _ ∧ _ ∧ _ ∧ _))

theorem mentions_iff {keywords : List String} {text : String} :
    mentions keywords text = true ↔ ∃ kw ∈ keywords, kw.toList <:+: text.toList.map Strings.lowerRune := by
  simp [mentions, Strings.contains, Strings.toLower]

theorem infix_rollbackFailed {kw : String} (h : Apart kw) (n : Nat) (err rbErr : DbErr) :
    kw.toList <:+: (rollbackFailed n err rbErr).error.toList.map Strings.lowerRune ↔
      kw.toList <:+: err.error.toList.map Strings.lowerRune ∨ kw.toList <:+: rbErr.error.toList.map Strings.lowerRune := by
  obtain ⟨hcolon, hcomma, hhead, hfailed, hrollback⟩ := h
  have htext : (rollbackFailed n err rbErr).error.toList.map Strings.lowerRune =
      "transaction failed".toList ++ ':' :: ' ' :: (err.error.toList.map Strings.lowerRune ++
        ',' :: (" rollback also failed".toList ++ ':' :: ' ' :: rbErr.error.toList.map Strings.lowerRune)) := by
    simp only [rollbackFailed, Err.error_errorf, String.toList_append, List.map_append, List.append_assoc]
    rfl
  rw [htext, Strings.infix_append_cons_iff hcolon, Strings.infix_cons_iff_of_head_ne hhead,
    Strings.infix_append_cons_iff hcomma, Strings.infix_append_cons_iff hcolon,
    Strings.infix_cons_iff_of_head_ne hhead]
  simp only [hfailed, hrollback, false_or]

theorem mentions_rollbackFailed {keywords : List String} (h : ∀ kw ∈ keywords, Apart kw) (n : Nat) (err rbErr : DbErr) :
    mentions keywords (rollbackFailed n err rbErr).error = (mentions keywords err.error || mentions keywords rbErr.error) := by
  rw [Bool.eq_iff_iff, Bool.or_eq_true, mentions_iff, mentions_iff, mentions_iff]
  constructor
  · rintro ⟨kw, hkw, hinfix⟩
    rcases (infix_rollbackFailed (h kw hkw) n err rbErr).mp hinfix with hinfix | hinfix
    · exact .inl ⟨kw, hkw, hinfix⟩
    · exact .inr ⟨kw, hkw, hinfix⟩
  · rintro (⟨kw, hkw, hinfix⟩ | ⟨kw, hkw, hinfix⟩)
    · exact ⟨kw, hkw, (infix_rollbackFailed (h kw hkw) n err rbErr).mpr (.inl hinfix)⟩
    · exact ⟨kw, hkw, (infix_rollbackFailed (h kw hkw) n err rbErr).mpr (.inr hinfix)⟩

theorem timeoutKeywords_apart : ∀ kw ∈ timeoutKeywords, Apart kw := by decide +kernel

theorem duplicateKeywords_apart : ∀ kw ∈ duplicateKeywords, Apart kw := by decide +kernel

/-! ### The classes of a failed rollback -/

section RollbackFailed

variable (n : Nat) (err rbErr : DbErr)

theorem is_rollbackFailed (target : ErrId) :
    (rollbackFailed n err rbErr).is target = (decide (ErrId.ptr n = target) || rbErr.is target) :=
  Err.is_errorf_single

theorem as_rollbackFailed : (rollbackFailed n err rbErr).as = rbErr.as := Err.as_errorf_single

theorem isTimeoutError_rollbackFailed :
    isTimeoutError (some (rollbackFailed n err rbErr)) =
      (isTimeoutError (some rbErr) || mentions timeoutKeywords err.error) := by
  have hptr : decide (ErrId.ptr n = deadlineExceeded) = false := rfl
  rw [isTimeoutError_eq, isTimeoutError_eq, is_rollbackFailed, as_rollbackFailed,
    mentions_rollbackFailed timeoutKeywords_apart, hptr, Bool.false_or, Bool.or_comm (mentions _ err.error),
    ← Bool.or_assoc]

def duplicateAfterRollback : Bool :=
  match rbErr.as with
  | some pqErr => pqErr.code = "23505"
  | none => mentions duplicateKeywords err.error || mentions duplicateKeywords rbErr.error

theorem isDuplicateKeyError_rollbackFailed :
    isDuplicateKeyError (some (rollbackFailed n err rbErr)) = duplicateAfterRollback err rbErr := by
  unfold duplicateAfterRollback
  have has := as_rollbackFailed n err rbErr
  cases hrb : rbErr.as with
  | some pqErr => exact isDuplicateKeyError_as (has.trans hrb)
  | none => rw [isDuplicateKeyError_text (has.trans hrb), mentions_rollbackFailed duplicateKeywords_apart]

end RollbackFailed

/-! ### What the caller gets of its error -/

structure Propagates (err e : DbErr) : Prop where
  is : ∀ target, err.is target = true → e.is target = true
  duplicateKey : isDuplicateKeyError (some e) = isDuplicateKeyError (some err)
  timeout : isTimeoutError (some e) = isTimeoutError (some err)

/- `Rollback` succeeds, or its error stands in for that of `fn` in all three respects. -/
def Kept (n : Nat) (err : DbErr) : Option DbErr → Prop
  | none => True
  | some rbErr =>
    (∀ target, target ≠ .ptr n → err.is target = true → rbErr.is target = true) ∧
      duplicateAfterRollback err rbErr = isDuplicateKeyError (some err) ∧
      (isTimeoutError (some rbErr) || mentions timeoutKeywords err.error) = isTimeoutError (some err)

theorem propagates_rollbackFailed_iff (n : Nat) (err rbErr : DbErr) :
    Propagates err (rollbackFailed n err rbErr) ↔ Kept n err (some rbErr) := by
  constructor
  · rintro ⟨his, hdup, htimeout⟩
    rw [isDuplicateKeyError_rollbackFailed] at hdup
    rw [isTimeoutError_rollbackFailed] at htimeout
    refine ⟨fun target hne htarget => ?_, hdup, htimeout⟩
    have hor := his target htarget
    rw [is_rollbackFailed, decide_eq_false (Ne.symm hne), Bool.false_or] at hor
    exact hor
  · rintro ⟨his, hdup, htimeout⟩
    refine ⟨fun target htarget => ?_, ?_, ?_⟩
    · rw [is_rollbackFailed]
      by_cases hptr : ErrId.ptr n = target
      · rw [decide_eq_true hptr, Bool.true_or]
      · rw [his target (Ne.symm hptr) htarget, Bool.or_true]
    · rw [isDuplicateKeyError_rollbackFailed, hdup]
    · rw [isTimeoutError_rollbackFailed, htimeout]

theorem withTransaction_propagates_iff {σ Tx P : Type} (db : TxDB σ Tx) (n : Nat) (isolationLevel : IsolationLevel)
    (fn : Tx → σ → Outcome P × σ) (s s₁ s₂ : σ) (tx : Tx) (err : DbErr)
    (hbegin : db.beginTx isolationLevel s = (.ok tx, s₁)) (hfn : fn tx s₁ = (.returned (some err), s₂)) :
    ∃ e, withTransaction db n isolationLevel fn s = (.returned (some e), (db.rollback tx s₂).2) ∧
      (Propagates err e ↔ Kept n err (db.rollback tx s₂).1) := by
  unfold withTransaction
  simp only [hbegin, hfn]
  obtain ⟨rb, s₃⟩ := db.rollback tx s₂
  cases rb with
  | none => exact ⟨err, rfl, fun _ => trivial, fun _ => ⟨fun _ => id, rfl, rfl⟩⟩
  | some rbErr => exact ⟨rollbackFailed n err rbErr, rfl, propagates_rollbackFailed_iff n err rbErr⟩

/- A database on which only `Rollback` may fail. -/
def txDB (rbErr : Option DbErr) : TxDB Unit Unit where
  beginTx _ s := (.ok (), s)
  rollback _ s := (rbErr, s)
  commit _ s := (none, s)

def fails (err : DbErr) (_ : Unit) (s : Unit) : Outcome Unit × Unit := (.returned (some err), s)

def errTxDone : DbErr :=
  .node ⟨.var "sql.ErrTxDone", "sql: transaction has already been committed or rolled back", fun _ => false, none⟩ []

def serializationFailure : DbErr :=
  .node ⟨.ptr 0, "pq: could not serialize access due to concurrent update", fun _ => false, some ⟨"40001"⟩⟩ []

theorem withTransaction_propagates_iff_rolledBack :
    ∃ e, withTransaction (txDB none) 1 .serializable (fails serializationFailure) () = (.returned (some e), ()) ∧
      Propagates serializationFailure e := by
  obtain ⟨e, heq, hiff⟩ := withTransaction_propagates_iff (txDB none) 1 .serializable (fails serializationFailure)
    () () () () serializationFailure rfl rfl
  exact ⟨e, heq, hiff.mpr trivial⟩

/- The context has ended the transaction before: neither the error nor its class is left. -/
theorem rollback_hides_error :
    ∃ e, withTransaction (txDB (some errTxDone)) 1 .serializable (fails serializationFailure) () = (.returned (some e), ()) ∧
      (serializationFailure.is (.ptr 0) = true ∧ e.is (.ptr 0) = false) ∧
      (isTimeoutError (some serializationFailure) = true ∧ isTimeoutError (some e) = false) := by
  refine ⟨rollbackFailed 1 serializationFailure errTxDone, rfl, by decide +kernel, by decide +kernel, ?_⟩
  rw [isTimeoutError_rollbackFailed]
  decide +kernel

end Ghost.Db
