import Ghost.Db.QueryTimeout
import Ghost.Db.Transaction

/-!
# Opening a client (db/postgres.go)

`NewPostgresClient` opens a pool, hands it the positive settings of the
configuration, and returns the client only after a ping. A pool that does not
answer is closed before the error is returned.
-/

namespace Ghost.Db
open Go

/-! ### The settings of `sql.DB` -/

/- `maxOpen` zero is no limit; `maxIdleCount` zero is the default and a negative one none. -/
structure Pool where
  maxOpen : Int
  maxIdleCount : Int
  maxLifetime : Int
  maxIdleTime : Int
  closed : Bool
  deriving DecidableEq, Repr

namespace Pool

def opened : Pool := ⟨0, 0, 0, 0, false⟩

def maxIdleConns (p : Pool) : Int :=
  if p.maxIdleCount = 0 then 2 else if p.maxIdleCount < 0 then 0 else p.maxIdleCount

def exceeds (p : Pool) : Bool := p.maxOpen > 0 && p.maxIdleConns > p.maxOpen

def setMaxIdleConns (n : Int) (p : Pool) : Pool :=
  let q := { p with maxIdleCount := if n > 0 then n else -1 }
  if q.exceeds then { q with maxIdleCount := q.maxOpen } else q

def setMaxOpenConns (n : Int) (p : Pool) : Pool :=
  let q := { p with maxOpen := if n < 0 then 0 else n }
  if q.exceeds then q.setMaxIdleConns n else q

def setConnMaxLifetime (d : Int) (p : Pool) : Pool := { p with maxLifetime := if d < 0 then 0 else d }

def setConnMaxIdleTime (d : Int) (p : Pool) : Pool := { p with maxIdleTime := if d < 0 then 0 else d }

end Pool

/-! ### The client -/

/- The fields of the configuration that the pool is given, beside the query timeout. -/
structure PoolConfig extends ConnectionConfig where
  maxOpenConns : Int
  maxIdleConns : Int
  connMaxLifetime : Int
  connMaxIdleTime : Int

structure PostgresClient where
  db : Pool
  config : PoolConfig

def errConnectionFailed : DbErr :=
  .node ⟨.var "db.ErrConnectionFailed", "database connection failed", fun _ => false, none⟩ []

def connectionFailed (n : Nat) (err : DbErr) : DbErr :=
  .errorf n (errConnectionFailed.error ++ ": " ++ err.error) [errConnectionFailed]

/- A setting that is not positive is left at the default. -/
def setting (n : Int) (set : Int → Pool → Pool) (p : Pool) : Pool := if n > 0 then set n p else p

def configure (config : PoolConfig) (p : Pool) : Pool :=
  setting config.connMaxIdleTime .setConnMaxIdleTime <| setting config.connMaxLifetime .setConnMaxLifetime <|
    setting config.maxIdleConns .setMaxIdleConns <| setting config.maxOpenConns .setMaxOpenConns p

/- The client or the error, and the pool if one was opened. -/
def newPostgresClient (n : Nat) (openErr pingErr : Option DbErr) (config : PoolConfig) :
    Except DbErr PostgresClient × Option Pool :=
  match openErr with
  | some err => (.error (connectionFailed n err), none)
  | none =>
    let db := configure config .opened
    match pingErr with
    | some err => (.error (connectionFailed n err), some { db with closed := true })
    | none => (.ok ⟨db, config⟩, some db)

/-! ### What the client starts with -/

/-- An open pool with limits that fit together: no more idle connections than open ones. -/
structure Pool.Ready (p : Pool) : Prop where
  isOpen : p.closed = false
  nonneg : 0 ≤ p.maxOpen
  idle : 0 < p.maxOpen → p.maxIdleConns ≤ p.maxOpen

theorem Pool.ready_of_not_exceeds {p : Pool} (hopen : p.closed = false) (hnonneg : 0 ≤ p.maxOpen)
    (h : ¬ p.exceeds = true) : p.Ready := by
  refine ⟨hopen, hnonneg, fun hpos => ?_⟩
  simp only [Pool.exceeds, Bool.and_eq_true, decide_eq_true_eq, not_and] at h
  exact Int.not_lt.mp (h hpos)

theorem Pool.setMaxIdleConns_ready {p : Pool} (n : Int) (hopen : p.closed = false) (hnonneg : 0 ≤ p.maxOpen) :
    (p.setMaxIdleConns n).Ready := by
  unfold Pool.setMaxIdleConns
  generalize hq : { p with maxIdleCount := if n > 0 then n else -1 } = q
  have hopen : q.closed = false := by rw [← hq]; exact hopen
  have hnonneg : 0 ≤ q.maxOpen := by rw [← hq]; exact hnonneg
  dsimp only
  split
  · refine ⟨hopen, hnonneg, fun hpos => ?_⟩
    change 0 < q.maxOpen at hpos
    have hcount : (if q.maxOpen = 0 then 2 else if q.maxOpen < 0 then 0 else q.maxOpen) = q.maxOpen := by
      rw [if_neg (by omega), if_neg (by omega)]
    exact Int.le_of_eq hcount
  · rename_i hnot
    exact ready_of_not_exceeds hopen hnonneg hnot

theorem Pool.setMaxOpenConns_ready {p : Pool} (n : Int) (hopen : p.closed = false) : (p.setMaxOpenConns n).Ready := by
  unfold Pool.setMaxOpenConns
  generalize hq : { p with maxOpen := if n < 0 then 0 else n } = q
  have hopen : q.closed = false := by rw [← hq]; exact hopen
  have hnonneg : 0 ≤ q.maxOpen := by
    rw [← hq]
    show 0 ≤ if n < 0 then 0 else n
    split <;> omega
  dsimp only
  split
  · exact setMaxIdleConns_ready n hopen hnonneg
  · rename_i hnot
    exact ready_of_not_exceeds hopen hnonneg hnot

theorem setting_ready {p : Pool} {set : Int → Pool → Pool} (hp : p.Ready) (hset : ∀ n, (set n p).Ready) (n : Int) :
    (setting n set p).Ready := by
  unfold setting
  split
  · exact hset n
  · exact hp

theorem configure_ready (config : PoolConfig) : (configure config .opened).Ready := by
  have hstart : Pool.opened.Ready := ⟨rfl, by decide, by decide⟩
  have hopen := setting_ready hstart (fun n => Pool.setMaxOpenConns_ready n hstart.isOpen) config.maxOpenConns
  have hidle := setting_ready hopen (fun n => Pool.setMaxIdleConns_ready n hopen.isOpen hopen.nonneg) config.maxIdleConns
  have hlifetime : (setting config.connMaxLifetime Pool.setConnMaxLifetime _).Ready :=
    setting_ready hidle (fun n => ⟨hidle.isOpen, hidle.nonneg, hidle.idle⟩) _
  exact setting_ready hlifetime (fun n => ⟨hlifetime.isOpen, hlifetime.nonneg, hlifetime.idle⟩) config.connMaxIdleTime

theorem configure_maxOpen (config : PoolConfig) :
    (configure config .opened).maxOpen = if config.maxOpenConns > 0 then config.maxOpenConns else 0 := by
  have hsame (n : Int) (set : Int → Pool → Pool) (p : Pool) (hset : ∀ n p, (set n p).maxOpen = p.maxOpen) :
      (setting n set p).maxOpen = p.maxOpen := by
    unfold setting
    split
    · exact hset n p
    · rfl
  have hidle (n : Int) (p : Pool) : (p.setMaxIdleConns n).maxOpen = p.maxOpen := by
    unfold Pool.setMaxIdleConns
    generalize hq : { p with maxIdleCount := if n > 0 then n else -1 } = q
    dsimp only
    split <;> rw [← hq]
  have hopen (n : Int) (p : Pool) : (p.setMaxOpenConns n).maxOpen = if n < 0 then 0 else n := by
    unfold Pool.setMaxOpenConns
    generalize hq : { p with maxOpen := if n < 0 then 0 else n } = q
    dsimp only
    split
    · rw [hidle, ← hq]
    · rw [← hq]
  rw [configure, hsame _ .setConnMaxIdleTime _ fun _ _ => rfl, hsame _ .setConnMaxLifetime _ fun _ _ => rfl,
    hsame _ _ _ hidle]
  unfold setting
  split
  · rename_i hpos
    rw [hopen, if_neg (by omega)]
  · rfl

/-- A client has an open pool whose limits fit; without a client the pool is closed and
the error is `ErrConnectionFailed`. -/
theorem newPostgresClient_cases (n : Nat) (openErr pingErr : Option DbErr) (config : PoolConfig) :
    match newPostgresClient n openErr pingErr config with
    | (.ok client, pool) => pool = some client.db ∧ client.db.Ready ∧ client.config = config
    | (.error err, pool) => err.is errConnectionFailed.value.id = true ∧ ∀ p, pool = some p → p.closed = true := by
  have his (err : DbErr) : (connectionFailed n err).is errConnectionFailed.value.id = true := by
    rw [connectionFailed, Err.is_errorf_single]
    simp [Err.is, errConnectionFailed, Err.walk, Err.value, Err.walkAll]
  unfold newPostgresClient
  cases openErr with
  | some err => exact ⟨his err, fun _ h => by cases h⟩
  | none =>
    cases pingErr with
    | some err => exact ⟨his err, fun _ h => by cases h; rfl⟩
    | none => exact ⟨rfl, configure_ready config, rfl⟩

theorem newPostgresClient_maxOpen {n : Nat} {openErr pingErr : Option DbErr} {config : PoolConfig}
    {client : PostgresClient} (h : (newPostgresClient n openErr pingErr config).1 = .ok client) :
    client.db.maxOpen = if config.maxOpenConns > 0 then config.maxOpenConns else 0 := by
  unfold newPostgresClient at h
  cases openErr with
  | some err => cases h
  | none =>
    cases pingErr with
    | some err => cases h
    | none =>
      cases h
      exact configure_maxOpen config

end Ghost.Db
