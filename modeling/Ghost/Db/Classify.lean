import Ghost.Go.ErrorTree
import Ghost.Go.Strings

/-!
# Classes of database errors (db/postgres.go)

`IsTimeoutError` and `IsDuplicateKeyError` look for a `*pq.Error` in the tree of
the error, the first by its code among other signs, the second by its code only,
and search the text for keywords otherwise. How the driver renders a `*pq.Error`
is open: the text of an error is independent of its code.
-/

namespace Ghost.Db
open Go

/- What `errors.As` with a `*pq.Error` yields, by its `Code`. -/
structure PqError where
  code : String
  deriving DecidableEq, Repr

abbrev DbErr := Err PqError

def deadlineExceeded : ErrId := .var "context.DeadlineExceeded"

def timeoutCodes : List String := ["57014", "57013", "57012", "40001"]

def timeoutKeywords : List String :=
  ["timeout", "deadline exceeded", "context deadline", "connection timed out", "i/o timeout", "query_canceled"]

def duplicateKeywords : List String :=
  ["duplicate key", "unique constraint", "unique violation", "already exists", "23505"]

def mentions (keywords : List String) (text : String) : Bool :=
  keywords.any fun kw => Strings.contains (Strings.toLower text) kw

def isTimeoutError : Option DbErr → Bool
  | none => false
  | some err =>
    if err.is deadlineExceeded then true
    else if err.as.any fun pqErr => pqErr.code ∈ timeoutCodes then true
    else mentions timeoutKeywords err.error

def isDuplicateKeyError : Option DbErr → Bool
  | none => false
  | some err =>
    match err.as with
    | some pqErr => pqErr.code = "23505"
    | none => mentions duplicateKeywords err.error

theorem isTimeoutError_eq (err : DbErr) :
    isTimeoutError (some err) = (err.is deadlineExceeded || (err.as.any fun pqErr => pqErr.code ∈ timeoutCodes) ||
      mentions timeoutKeywords err.error) := by
  unfold isTimeoutError
  by_cases his : err.is deadlineExceeded = true
  · simp [his]
  · by_cases hcode : (err.as.any fun pqErr => decide (pqErr.code ∈ timeoutCodes)) = true
    · simp [his, hcode]
    · simp [his, hcode]

theorem isDuplicateKeyError_as {err : DbErr} {pqErr : PqError} (h : err.as = some pqErr) :
    isDuplicateKeyError (some err) = decide (pqErr.code = "23505") := by
  simp [isDuplicateKeyError, h]

theorem isDuplicateKeyError_text {err : DbErr} (h : err.as = none) :
    isDuplicateKeyError (some err) = mentions duplicateKeywords err.error := by
  simp [isDuplicateKeyError, h]

theorem unique_violation_not_timeout : "23505" ∉ timeoutCodes := by decide

/-! ### The two classes on one error -/

theorem classes_disjoint_iff (err : DbErr) (pqErr : PqError) (h : err.as = some pqErr) :
    ¬ (isTimeoutError (some err) = true ∧ isDuplicateKeyError (some err) = true) ↔
      (pqErr.code = "23505" → err.is deadlineExceeded = false ∧ mentions timeoutKeywords err.error = false) := by
  rw [isDuplicateKeyError_as h, isTimeoutError_eq, h]
  by_cases hcode : pqErr.code = "23505"
  · have hpq : ((some pqErr).any fun pqErr => decide (pqErr.code ∈ timeoutCodes)) = false := by
      simp [hcode, unique_violation_not_timeout]
    simp [hpq, hcode]
  · simp [hcode]

def uniqueViolation (constraint : String) : DbErr :=
  .node ⟨.ptr 0, "pq: duplicate key value violates unique constraint \"" ++ constraint ++ "\"", fun _ => false,
    some ⟨"23505"⟩⟩ []

theorem classes_disjoint_iff_email :
    (uniqueViolation "users_email_key").as = some ⟨"23505"⟩ ∧
      ¬ (isTimeoutError (some (uniqueViolation "users_email_key")) = true ∧
        isDuplicateKeyError (some (uniqueViolation "users_email_key")) = true) :=
  ⟨rfl, (classes_disjoint_iff (uniqueViolation "users_email_key") ⟨"23505"⟩ rfl).mpr
    fun _ => ⟨by decide +kernel, by decide +kernel⟩⟩

/- The name of a constraint or the text of a wrapper is enough. -/
theorem unique_violation_is_timeout :
    (isTimeoutError (some (uniqueViolation "sessions_timeout_key")) = true ∧
      isDuplicateKeyError (some (uniqueViolation "sessions_timeout_key")) = true) ∧
    (isTimeoutError (some (.errorf 1 "saving timeout settings: pq: duplicate key" [uniqueViolation "users_email_key"])) = true ∧
      isDuplicateKeyError (some (.errorf 1 "saving timeout settings: pq: duplicate key"
        [uniqueViolation "users_email_key"])) = true) := by
  decide +kernel

end Ghost.Db
