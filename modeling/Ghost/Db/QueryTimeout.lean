import Ghost.Go.Context

/-!
# Query timeout (db/postgres.go)

The four query methods of `postgresClient` run their counterpart of `sql.DB`
under a context that may be a derived one, and cancel that one when they return.
A result or a prepared statement does not need the context any more; a `Rows` or
a `Row` is read through it. What the database answers is a parameter.
-/

namespace Ghost.Db
open Go

/-! ### database/sql -/

/- An open result set: what the driver gives for the `i`-th `Next`, and the context
it was created with. -/
structure Rows (R : Type) where
  ctx : Ctx
  fetch : Nat → Except Error (Option R)

/-- The `i`-th `Next`, `Scan` and, at the end, `Err` at a time. -/
def Rows.next {R : Type} (rows : Rows R) (i : Nat) (t : Int) : Except Error (Option R) :=
  match rows.ctx.err t with
  | some e => .error e
  | none => rows.fetch i

def errNoRows : Error := .new "sql.ErrNoRows" "sql: no rows in result set"

-- An error of the query is kept until `Scan`.
def Row (R : Type) : Type := Except Error (Rows R)

def Row.scan {R : Type} (row : Row R) (t : Int) : Except Error R :=
  match row with
  | .error e => .error e
  | .ok rows =>
    match rows.next 0 t with
    | .error e => .error e
    | .ok none => .error errNoRows
    | .ok (some r) => .ok r

/- The methods of `sql.DB`: what is called when, and what comes back when. -/
structure SqlDB (Arg Result Stmt R : Type) where
  execContext : Ctx → String → List Arg → Int → Except Error Result × Int
  prepareContext : Ctx → String → Int → Except Error Stmt × Int
  query : Ctx → String → List Arg → Int → Except Error (Nat → Except Error (Option R)) × Int
  query_later : ∀ ctx q args now, now ≤ (query ctx q args now).2

namespace SqlDB

variable {Arg Result Stmt R : Type} (db : SqlDB Arg Result Stmt R)

def queryContext (ctx : Ctx) (q : String) (args : List Arg) (now : Int) : Except Error (Rows R) × Int :=
  ((db.query ctx q args now).1.map fun fetch => ⟨ctx, fetch⟩, (db.query ctx q args now).2)

def queryRowContext (ctx : Ctx) (q : String) (args : List Arg) (now : Int) : Row R × Int :=
  db.queryContext ctx q args now

end SqlDB

/-! ### The client -/

structure ConnectionConfig where
  queryTimeout : Int

/- The clock is read twice: for `time.Until` and in `context.WithTimeout`. The cancel
function acts on the derived context, and does nothing if there is none. -/
def withQueryTimeout (config : ConnectionConfig) (ctx : Ctx) (now later : Int) : Ctx × (Int → Ctx → Ctx) :=
  if config.queryTimeout ≤ 0 then (ctx, fun _ c => c)
  else match ctx.deadline with
    | some deadline =>
      if deadline - now ≤ config.queryTimeout then (ctx, fun _ c => c)
      else (ctx.withTimeout config.queryTimeout later, fun t c => c.cancel t)
    | none => (ctx.withTimeout config.queryTimeout later, fun t c => c.cancel t)

section Client

variable {Arg Result Stmt R : Type} (db : SqlDB Arg Result Stmt R) (config : ConnectionConfig) (ctx : Ctx) (q : String)
  (args : List Arg) (now later : Int)

def execContext : Except Error Result × Int :=
  db.execContext (withQueryTimeout config ctx now later).1 q args later

def prepareContext : Except Error Stmt × Int :=
  db.prepareContext (withQueryTimeout config ctx now later).1 q later

-- `defer cancel()` runs before the caller has the rows.
def queryContext : Except Error (Rows R) × Int :=
  let (ctx, cancel) := withQueryTimeout config ctx now later
  let (result, t) := db.queryContext ctx q args later
  (result.map fun rows => { rows with ctx := cancel t rows.ctx }, t)

def queryRowContext : Row R × Int :=
  let (ctx, cancel) := withQueryTimeout config ctx now later
  let (row, t) := db.queryRowContext ctx q args later
  (Except.map (fun rows => { rows with ctx := cancel t rows.ctx }) row, t)

end Client

/-! ### The database called with the earlier deadline -/

def deadlineCtx (config : ConnectionConfig) (ctx : Ctx) (now : Int) : Ctx :=
  if config.queryTimeout ≤ 0 then ctx
  else { ctx with deadline := some (Ctx.earlier ctx.deadline (now + config.queryTimeout)) }

/- Both fail alike, or every later read through the rows gives the same. -/
def RowsAgree {R : Type} (a b : Except Error (Rows R) × Int) : Prop :=
  a.2 = b.2 ∧ match a.1, b.1 with
    | .error e, .error f => e = f
    | .ok rows, .ok rows' => ∀ i t, a.2 ≤ t → rows.next i t = rows'.next i t
    | _, _ => False

def RowAgree {R : Type} (a b : Row R × Int) : Prop :=
  a.2 = b.2 ∧ ∀ t, a.2 ≤ t → a.1.scan t = b.1.scan t

theorem RowsAgree.scan {R : Type} {a b : Except Error (Rows R) × Int} (h : RowsAgree a b) : RowAgree a b := by
  obtain ⟨a, t⟩ := a
  obtain ⟨b, u⟩ := b
  obtain ⟨htime, hread⟩ := h
  refine ⟨htime, fun s hs => ?_⟩
  cases a with
  | error e =>
    cases b with
    | error f => rw [show e = f from hread]
    | ok rows => exact hread.elim
  | ok rows =>
    cases b with
    | error f => exact hread.elim
    | ok rows' =>
      have hnext : rows.next 0 s = rows'.next 0 s := hread 0 s hs
      simp only [Row.scan, hnext]

theorem RowsAgree.of_err {R : Type} {result : Except Error (Nat → Except Error (Option R))} {c d : Ctx} {t : Int}
    (h : ∀ u, t ≤ u → c.err u = d.err u) :
    RowsAgree (result.map (Rows.mk c), t) (result.map (Rows.mk d), t) := by
  refine ⟨rfl, ?_⟩
  cases result with
  | error e => rfl
  | ok fetch =>
    intro i u hu
    simp only [Rows.next, h u hu]

/-! ### When the client keeps the caller's context -/

def KeepsCtx (config : ConnectionConfig) (ctx : Ctx) (now : Int) : Prop :=
  config.queryTimeout ≤ 0 ∨ ∃ deadline, ctx.deadline = some deadline ∧ deadline - now ≤ config.queryTimeout

section Timeout

variable {Arg Result Stmt R : Type} {config : ConnectionConfig} {ctx : Ctx} {now later : Int}

theorem withQueryTimeout_keeps (h : KeepsCtx config ctx now) :
    withQueryTimeout config ctx now later = (ctx, fun _ c => c) := by
  unfold withQueryTimeout
  by_cases hpos : config.queryTimeout ≤ 0
  · rw [if_pos hpos]
  · obtain ⟨deadline, hdeadline, htight⟩ := h.resolve_left hpos
    simp only [if_neg hpos, hdeadline, if_pos htight]

theorem withQueryTimeout_derives (h : ¬ KeepsCtx config ctx now) :
    withQueryTimeout config ctx now later =
      (ctx.withTimeout config.queryTimeout later, fun t c => c.cancel t) := by
  have hpos : ¬ config.queryTimeout ≤ 0 := fun hpos => h (.inl hpos)
  unfold withQueryTimeout
  rw [if_neg hpos]
  cases hdeadline : ctx.deadline with
  | none => rfl
  | some deadline =>
    have hloose : ¬ deadline - now ≤ config.queryTimeout := fun htight => h (.inr ⟨deadline, hdeadline, htight⟩)
    exact if_neg hloose

theorem deadlineCtx_keeps (hclock : now ≤ later) (h : KeepsCtx config ctx now) : deadlineCtx config ctx later = ctx := by
  unfold deadlineCtx
  by_cases hpos : config.queryTimeout ≤ 0
  · rw [if_pos hpos]
  · obtain ⟨deadline, hdeadline, htight⟩ := h.resolve_left hpos
    have hle : deadline ≤ later + config.queryTimeout := by omega
    rw [if_neg hpos, hdeadline, Ctx.earlier, if_pos hle, ← hdeadline]

theorem deadlineCtx_derives (h : ¬ KeepsCtx config ctx now) :
    deadlineCtx config ctx later = ctx.withTimeout config.queryTimeout later := by
  have hpos : ¬ config.queryTimeout ≤ 0 := fun hpos => h (.inl hpos)
  rw [deadlineCtx, if_neg hpos]
  rfl

theorem withQueryTimeout_ctx (hclock : now ≤ later) :
    (withQueryTimeout config ctx now later).1 = deadlineCtx config ctx later := by
  by_cases h : KeepsCtx config ctx now
  · rw [withQueryTimeout_keeps h, deadlineCtx_keeps hclock h]
  · rw [withQueryTimeout_derives h, deadlineCtx_derives h]

/-! ### Reads after the return -/

theorem queryContext_eq (db : SqlDB Arg Result Stmt R) (q : String) (args : List Arg) (hclock : now ≤ later) :
    queryContext db config ctx q args now later =
      ((db.query (deadlineCtx config ctx later) q args later).1.map
        (Rows.mk ((withQueryTimeout config ctx now later).2
          (db.query (deadlineCtx config ctx later) q args later).2 (deadlineCtx config ctx later))),
        (db.query (deadlineCtx config ctx later) q args later).2) := by
  rw [← withQueryTimeout_ctx hclock]
  unfold queryContext SqlDB.queryContext
  obtain ⟨derived, cancel⟩ := withQueryTimeout config ctx now later
  simp only
  cases (db.query derived q args later).1 <;> rfl

def Untouched (config : ConnectionConfig) (ctx : Ctx) (now later : Int) : Prop :=
  KeepsCtx config ctx now ∨ ctx.err later ≠ none

theorem queryTimeout_pos (h : ¬ KeepsCtx config ctx now) : 0 < config.queryTimeout := by
  by_contra hpos
  exact h (.inl (by omega))

/- A cancel at the return shows in no later `Err()`. -/
theorem Untouched.err_eq (h : Untouched config ctx now later) {t u : Int} (ht : later ≤ t) (hu : t ≤ u) :
    ((withQueryTimeout config ctx now later).2 t (deadlineCtx config ctx later)).err u =
      (deadlineCtx config ctx later).err u := by
  by_cases hkeeps : KeepsCtx config ctx now
  · rw [withQueryTimeout_keeps hkeeps]
  · obtain ⟨e, he⟩ := Option.ne_none_iff_exists'.mp (h.resolve_left hkeeps)
    rw [withQueryTimeout_derives hkeeps, deadlineCtx_derives hkeeps]
    have hdone : (ctx.withTimeout config.queryTimeout later).err later = some e := by
      rw [Ctx.err_withTimeout (queryTimeout_pos hkeeps), he]
    have hreturn : (ctx.withTimeout config.queryTimeout later).err t = some e := Ctx.err_sticky hdone ht
    rw [Ctx.err_cancel_of_done hreturn hu, Ctx.err_sticky hreturn hu]

theorem Untouched.rowsAgree (hclock : now ≤ later) (h : Untouched config ctx now later) (db : SqlDB Arg Result Stmt R)
    (q : String) (args : List Arg) :
    RowsAgree (queryContext db config ctx q args now later)
      (db.queryContext (deadlineCtx config ctx later) q args later) := by
  rw [queryContext_eq db q args hclock]
  have hlater := db.query_later (deadlineCtx config ctx later) q args later
  exact RowsAgree.of_err fun u hu => h.err_eq hlater hu

/- A database that answers every query at once, with no rows. -/
def SqlDB.noRows : SqlDB Arg Result Stmt R where
  execContext _ _ _ now := (.error errNoRows, now)
  prepareContext _ _ now := (.error errNoRows, now)
  query _ _ _ now := (.ok fun _ => .ok none, now)
  query_later _ _ _ _ := le_rfl

theorem Untouched.of_rowAgree (hclock : now ≤ later)
    (h : ∀ (db : SqlDB Arg Result Stmt R) q args,
      RowAgree (queryRowContext db config ctx q args now later)
        (db.queryRowContext (deadlineCtx config ctx later) q args later)) :
    Untouched config ctx now later := by
  by_contra hnot
  obtain ⟨hkeeps, hlive⟩ := not_or.mp hnot
  have hctx : (deadlineCtx config ctx later).err later = none := by
    rw [deadlineCtx_derives hkeeps, Ctx.err_withTimeout (queryTimeout_pos hkeeps), not_not.mp hlive]
  have hcanceled : ((withQueryTimeout config ctx now later).2 later (deadlineCtx config ctx later)).err later =
      some Ctx.canceled := by
    rw [withQueryTimeout_derives hkeeps]
    exact Ctx.err_cancel_of_live hctx le_rfl
  -- Read at the moment of the return: cancelled through the client, "no rows" without it.
  have hagree : RowAgree (queryContext SqlDB.noRows config ctx "" [] now later)
      (SqlDB.noRows.queryContext (deadlineCtx config ctx later) "" [] later) := h SqlDB.noRows "" []
  rw [queryContext_eq SqlDB.noRows "" [] hclock] at hagree
  have hscan := hagree.2 later le_rfl
  simp only [SqlDB.noRows, SqlDB.queryContext, Except.map, Row.scan, Rows.next, hcanceled, hctx] at hscan
  exact absurd (Except.error.inj hscan) (by decide)

end Timeout

theorem queryTimeout_transparent_iff {Arg Result Stmt R : Type} (config : ConnectionConfig) (ctx : Ctx) (now later : Int)
    (hclock : now ≤ later) :
    (∀ (db : SqlDB Arg Result Stmt R) q args,
      execContext db config ctx q args now later = db.execContext (deadlineCtx config ctx later) q args later ∧
      prepareContext db config ctx q now later = db.prepareContext (deadlineCtx config ctx later) q later) ∧
    ((∀ (db : SqlDB Arg Result Stmt R) q args,
      RowsAgree (queryContext db config ctx q args now later)
        (db.queryContext (deadlineCtx config ctx later) q args later)) ↔ Untouched config ctx now later) ∧
    ((∀ (db : SqlDB Arg Result Stmt R) q args,
      RowAgree (queryRowContext db config ctx q args now later)
        (db.queryRowContext (deadlineCtx config ctx later) q args later)) ↔ Untouched config ctx now later) := by
  refine ⟨fun db q args => ?_, ⟨fun h => ?_, fun h => h.rowsAgree hclock⟩, ⟨fun h => ?_, fun h db q args => ?_⟩⟩
  · unfold execContext prepareContext
    rw [withQueryTimeout_ctx hclock]
    exact ⟨rfl, rfl⟩
  · exact Untouched.of_rowAgree hclock fun db q args => (h db q args).scan
  · exact Untouched.of_rowAgree hclock h
  · exact (h.rowsAgree hclock db q args).scan

/- A table with one row, found in a millisecond. -/
def SqlDB.oneRow : SqlDB String Nat Unit String where
  execContext _ _ _ now := (.ok 1, now + 1000000)
  prepareContext _ _ now := (.ok (), now + 1000000)
  query _ _ _ now := (.ok fun i => .ok (if i = 0 then some "row" else none), now + 1000000)
  query_later _ _ _ now := by omega

-- The caller's deadline is within the query timeout: the row is read.
theorem queryTimeout_transparent_iff_tight :
    (0 : Int) ≤ 10 ∧
    RowsAgree (queryContext SqlDB.oneRow ⟨5000000000⟩ ⟨some 2000000000, none⟩ "SELECT 1" [] 0 10)
      (SqlDB.oneRow.queryContext (deadlineCtx ⟨5000000000⟩ ⟨some 2000000000, none⟩ 10) "SELECT 1" [] 10) :=
  ⟨by decide, (queryTimeout_transparent_iff ⟨5000000000⟩ ⟨some 2000000000, none⟩ 0 10 (by decide)).2.1.mpr
    (.inl (.inr ⟨2000000000, rfl, by decide⟩)) SqlDB.oneRow "SELECT 1" []⟩

/- Five seconds of query timeout, no deadline of the caller: one millisecond after the query
the row is there, but both results are cancelled. -/
theorem query_result_canceled :
    (queryContext SqlDB.oneRow ⟨5000000000⟩ Ctx.background "SELECT 1" [] 0 0).1.map (·.next 0 2000000) =
      .ok (.error Ctx.canceled) ∧
    (SqlDB.oneRow.queryContext (deadlineCtx ⟨5000000000⟩ Ctx.background 0) "SELECT 1" [] 0).1.map (·.next 0 2000000) =
      .ok (.ok (some "row")) ∧
    (queryRowContext SqlDB.oneRow ⟨5000000000⟩ Ctx.background "SELECT 1" [] 0 0).1.scan 2000000 =
      .error Ctx.canceled ∧
    (SqlDB.oneRow.queryRowContext (deadlineCtx ⟨5000000000⟩ Ctx.background 0) "SELECT 1" [] 0).1.scan 2000000 =
      .ok "row" :=
  ⟨rfl, rfl, rfl, rfl⟩

end Ghost.Db
