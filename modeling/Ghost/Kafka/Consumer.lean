import Ghost.Kafka.Producer
import Ghost.Log.Partitioned
import Ghost.Transition.Run

/-!
# Consumer (kafka/consumer.go)

`consumer.Start` as a machine that takes one step for each point where the
environment decides something: what a poll returns, whether the backoff or the
cancellation wins the select, what the handler returns, whether a commit
succeeds, when the context is cancelled and when a produce is reported.
-/

namespace Ghost.Kafka
open Go Transition PartitionedLog

structure ConsumerOptions where
  dlqProducer : Bool
  onDLQPublish : Bool
  maxRetries : Int
  retryBackoff : Int
  deriving DecidableEq, Repr

-- 100 ms in nanoseconds
def defaultOptions : ConsumerOptions := ⟨false, false, 3, 100000000⟩

def applyOption (options o : ConsumerOptions) : ConsumerOptions where
  maxRetries := if o.maxRetries > 0 then o.maxRetries else options.maxRetries
  retryBackoff := if o.retryBackoff > 0 then o.retryBackoff else options.retryBackoff
  dlqProducer := o.dlqProducer
  onDLQPublish := o.onDLQPublish

def newConsumer (opts : List ConsumerOptions) : ConsumerOptions := opts.foldl applyOption defaultOptions

theorem newConsumer_maxRetries (opts : List ConsumerOptions) : 0 < (newConsumer opts).maxRetries := by
  have hfold : ∀ (os : List ConsumerOptions) (o : ConsumerOptions), 0 < o.maxRetries →
      0 < (os.foldl applyOption o).maxRetries := by
    intro os
    induction os with
    | nil => exact fun o h => h
    | cons p os ih =>
      intro o h
      apply ih
      show 0 < (if p.maxRetries > 0 then p.maxRetries else o.maxRetries)
      split <;> omega
  exact hfold opts defaultOptions (by decide)

structure Record where
  topic : String
  partition : Nat
  offset : Nat
  key : Bytes
  value : Bytes
  deriving DecidableEq, Repr

def Record.tp (r : Record) : String × Nat := (r.topic, r.partition)

/-- The result of a poll; `EachRecord` visits `records` in this order. -/
inductive Fetches where
  | clientClosed
  | fetched (records : List Record) (errs : List Error)
  deriving DecidableEq

inductive Status where
  | pending
  | acked
  | failed
  deriving DecidableEq, Repr

-- A dead-letter produce that was started, with the record it was made from.
structure Letter where
  origin : Record
  record : Outgoing
  status : Status
  deriving DecidableEq, Repr

/- Where `Start` stands. The record in hand comes first, `rest` are the records of
the poll that the callback has still to see. -/
inductive Pc where
  | top
  | poll
  | records (rest : List Record)
  | backoff (r : Record) (attempt : Nat) (rest : List Record)
  | handler (r : Record) (attempt : Nat) (rest : List Record)
  | dlq (r : Record) (lastErr : Error) (rest : List Record)
  | commit (r : Record) (rest : List Record)
  | returned (err : Option Error)
  deriving DecidableEq

-- What the group coordinator and the client hold when `Start` is called.
structure Assignment where
  committed : String × Nat → Nat
  position : String × Nat → Nat
  behind : ∀ tp, committed tp ≤ position tp

structure St where
  pc : Pc
  ctxDone : Bool
  position : String × Nat → Nat
  committed : String × Nat → Nat
  -- every record a poll has returned
  delivered : List Record
  -- every handler call with its result, in order
  calls : List (Record × Option Error)
  letters : List Letter
  -- calls of the `OnDLQPublish` hook
  published : List (String × Error)

def St.start (a : Assignment) : St := ⟨.top, false, a.position, a.committed, [], [], [], []⟩

inductive Action where
  | go
  | poll (fetches : Fetches)
  | select (elapsed : Bool)
  | handle (err : Option Error)
  | send (now : String)
  | commit (err : Option Error)
  | cancel
  | produced (i : Nat) (err : Option Error)
  deriving DecidableEq

def canceled : Error := .new "context.Canceled" "context canceled"

-- after the attempt loop
def concluded (c : ConsumerOptions) (r : Record) (rest : List Record) : Option Error → Pc
  | none => .commit r rest
  | some e => if c.dlqProducer then .dlq r e rest else .commit r rest

-- the head of the attempt loop
def loopHead (c : ConsumerOptions) (r : Record) (attempt : Nat) (lastErr : Option Error)
    (rest : List Record) : Pc :=
  if (attempt : Int) ≤ c.maxRetries then
    if attempt > 0 then .backoff r attempt rest else .handler r attempt rest
  else concluded c r rest lastErr

/-- What the client hands out of a partition it keeps: records in order, none it has
handed out before. A partition that moves to another consumer and comes back is read
again from its committed offset; that is not part of this model of one run. -/
def ValidPoll (s : St) (records : List Record) : Prop :=
  From Record.tp Record.offset s.position records ∧ Ascending Record.tp Record.offset records

instance (s : St) (records : List Record) : Decidable (ValidPoll s records) :=
  inferInstanceAs (Decidable (_ ∧ _))

-- a poll moves the client's position whatever the caller does with the records
def St.receive (s : St) (records : List Record) : St :=
  { s with
    position := advance Record.tp Record.offset s.position records
    delivered := s.delivered ++ records }

def Letter.report (err : Option Error) (d : Letter) : Letter :=
  if d.status = .pending then { d with status := if err.isNone then .acked else .failed } else d

def step (c : ConsumerOptions) (s : St) : Action → Option St
  | .cancel => some { s with ctxDone := true }
  | .produced i err => some { s with letters := s.letters.modify i (Letter.report err) }
  | .go =>
    match s.pc with
    | .top => some { s with pc := if s.ctxDone then .returned (some canceled) else .poll }
    | .records [] => some { s with pc := .top }
    | .records (r :: rest) =>
      some { s with pc := if s.ctxDone then .records rest else loopHead c r 0 none rest }
    | _ => none
  | .poll fetches =>
    match s.pc, fetches with
    | .poll, .clientClosed => some { s with pc := .returned none }
    | .poll, .fetched records errs =>
      if ValidPoll s records then
        some { s.receive records with pc := if errs ≠ [] then .top else .records records }
      else none
    | _, _ => none
  | .select elapsed =>
    match s.pc with
    | .backoff r attempt rest =>
      if elapsed then some { s with pc := .handler r attempt rest }
      else if s.ctxDone then some { s with pc := .records rest }
      else none
    | _ => none
  | .handle err =>
    match s.pc with
    | .handler r attempt rest =>
      some { s with
        calls := s.calls ++ [(r, err)]
        pc := match err with
          | none => concluded c r rest none
          | some e => loopHead c r (attempt + 1) (some e) rest }
    | _ => none
  | .send now =>
    match s.pc with
    | .dlq r lastErr rest =>
      match sendToDLQ r.topic r.value r.key lastErr now with
      | .error _ => some { s with pc := .commit r rest }
      | .ok out =>
        some { s with
          pc := .commit r rest
          letters := s.letters ++ [⟨r, out, .pending⟩]
          published := if c.onDLQPublish then s.published ++ [(r.topic, lastErr)] else s.published }
    | _ => none
  | .commit err =>
    match s.pc with
    | .commit r rest =>
      some { s with
        pc := .records rest
        committed := if err.isNone then Function.update s.committed r.tp (r.offset + 1)
          else s.committed }
    | _ => none

/-! ### What a step can do -/

/- The transitions of `step`, one constructor each, for a consumer whose attempt
loop runs at least once. -/
inductive Step (c : ConsumerOptions) (s : St) : Action → St → Prop where
  | cancel : Step c s .cancel { s with ctxDone := true }
  | produced (i err) : Step c s (.produced i err) { s with letters := s.letters.modify i (Letter.report err) }
  | stop (hpc : s.pc = .top) (hctx : s.ctxDone = true) :
      Step c s .go { s with pc := .returned (some canceled) }
  | again (hpc : s.pc = .top) (hctx : s.ctxDone = false) : Step c s .go { s with pc := .poll }
  | closed (hpc : s.pc = .poll) : Step c s (.poll .clientClosed) { s with pc := .returned none }
  | fetchError (records errs) (hpc : s.pc = .poll) (hv : ValidPoll s records) (herr : errs ≠ []) :
      Step c s (.poll (.fetched records errs)) { s.receive records with pc := .top }
  | fetch (records) (hpc : s.pc = .poll) (hv : ValidPoll s records) :
      Step c s (.poll (.fetched records [])) { s.receive records with pc := .records records }
  | done (hpc : s.pc = .records []) : Step c s .go { s with pc := .top }
  | skip (r rest) (hpc : s.pc = .records (r :: rest)) (hctx : s.ctxDone = true) :
      Step c s .go { s with pc := .records rest }
  | begin (r rest) (hpc : s.pc = .records (r :: rest)) (hctx : s.ctxDone = false) :
      Step c s .go { s with pc := .handler r 0 rest }
  | elapsed (r n rest) (hpc : s.pc = .backoff r n rest) :
      Step c s (.select true) { s with pc := .handler r n rest }
  | cancelled (r n rest) (hpc : s.pc = .backoff r n rest) (hctx : s.ctxDone = true) :
      Step c s (.select false) { s with pc := .records rest }
  | handled (r n rest) (hpc : s.pc = .handler r n rest) :
      Step c s (.handle none) { s with calls := s.calls ++ [(r, none)], pc := .commit r rest }
  | retry (r n rest e) (hpc : s.pc = .handler r n rest) (hn : (n : Int) + 1 ≤ c.maxRetries) :
      Step c s (.handle (some e))
        { s with calls := s.calls ++ [(r, some e)], pc := .backoff r (n + 1) rest }
  | exhausted (r n rest e) (hpc : s.pc = .handler r n rest) (hn : c.maxRetries < (n : Int) + 1)
      (hdlq : c.dlqProducer = true) :
      Step c s (.handle (some e)) { s with calls := s.calls ++ [(r, some e)], pc := .dlq r e rest }
  | dropped (r n rest e) (hpc : s.pc = .handler r n rest) (hn : c.maxRetries < (n : Int) + 1)
      (hdlq : c.dlqProducer = false) :
      Step c s (.handle (some e)) { s with calls := s.calls ++ [(r, some e)], pc := .commit r rest }
  | send (r e rest now out published) (hpc : s.pc = .dlq r e rest)
      (hout : sendToDLQ r.topic r.value r.key e now = .ok out) :
      Step c s (.send now) { s with
        pc := .commit r rest
        letters := s.letters ++ [⟨r, out, .pending⟩]
        published := published }
  | commit (r rest) (hpc : s.pc = .commit r rest) :
      Step c s (.commit none) { s with
        pc := .records rest
        committed := Function.update s.committed r.tp (r.offset + 1) }
  | commitError (r rest e) (hpc : s.pc = .commit r rest) :
      Step c s (.commit (some e)) { s with pc := .records rest }

theorem step_cases {c : ConsumerOptions} (hc : 0 < c.maxRetries) {s t : St} {a : Action}
    (h : step c s a = some t) : Step c s a t := by
  cases a with
  | cancel => cases h; exact .cancel
  | produced i err => cases h; exact .produced i err
  | go =>
    cases hpc : s.pc with
    | top =>
      simp only [step, hpc, Option.some.injEq] at h
      by_cases hctx : s.ctxDone = true
      · rw [if_pos hctx] at h
        subst h
        exact .stop hpc hctx
      · rw [if_neg hctx] at h
        subst h
        exact .again hpc (Bool.eq_false_iff.mpr hctx)
    | records rest =>
      cases rest with
      | nil =>
        simp only [step, hpc] at h
        cases h
        exact .done hpc
      | cons r rest =>
        have hle : ((0 : Nat) : Int) ≤ c.maxRetries := by omega
        simp only [step, hpc, Option.some.injEq, loopHead, if_pos hle] at h
        by_cases hctx : s.ctxDone = true
        · rw [if_pos hctx] at h
          subst h
          exact .skip r rest hpc hctx
        · rw [if_neg hctx] at h
          subst h
          exact .begin r rest hpc (Bool.eq_false_iff.mpr hctx)
    | _ => simp [step, hpc] at h
  | poll fetches =>
    cases hpc : s.pc with
    | poll =>
      cases fetches with
      | clientClosed =>
        simp only [step, hpc] at h
        cases h
        exact .closed hpc
      | fetched records errs =>
        simp only [step, hpc] at h
        split at h
        · rename_i hv
          cases errs with
          | nil =>
            cases h
            exact .fetch records hpc hv
          | cons e errs =>
            cases h
            exact .fetchError records (e :: errs) hpc hv (by simp)
        · cases h
    | _ => simp [step, hpc] at h
  | select elapsed =>
    cases hpc : s.pc with
    | backoff r n rest =>
      cases elapsed with
      | true =>
        simp only [step, hpc] at h
        cases h
        exact .elapsed r n rest hpc
      | false =>
        simp only [step, hpc, Bool.false_eq_true, if_false] at h
        split at h
        · rename_i hctx
          cases h
          exact .cancelled r n rest hpc hctx
        · cases h
    | _ => simp [step, hpc] at h
  | handle err =>
    cases hpc : s.pc with
    | handler r n rest =>
      cases err with
      | none =>
        simp only [step, hpc] at h
        cases h
        exact .handled r n rest hpc
      | some e =>
        simp only [step, hpc, loopHead] at h
        by_cases hn : (n : Int) + 1 ≤ c.maxRetries
        · have hn' : ((n + 1 : Nat) : Int) ≤ c.maxRetries := by omega
          simp only [hn'] at h
          cases h
          exact .retry r n rest e hpc hn
        · have hn' : ¬ ((n + 1 : Nat) : Int) ≤ c.maxRetries := by omega
          simp only [hn'] at h
          cases hdlq : c.dlqProducer <;> simp only [concluded, hdlq] at h <;> cases h
          · exact .dropped r n rest e hpc (by omega) hdlq
          · exact .exhausted r n rest e hpc (by omega) hdlq
    | _ => simp [step, hpc] at h
  | send now =>
    cases hpc : s.pc with
    | dlq r e rest =>
      obtain ⟨out, hout, -⟩ := sendToDLQ_ok r.topic r.value r.key e now
      simp only [step, hpc, hout] at h
      cases h
      exact .send r e rest now out _ hpc hout
    | _ => simp [step, hpc] at h
  | commit err =>
    cases hpc : s.pc with
    | commit r rest =>
      simp only [step, hpc] at h
      cases err with
      | none =>
        cases h
        exact .commit r rest hpc
      | some e =>
        cases h
        exact .commitError r rest e hpc
    | _ => simp [step, hpc] at h

end Ghost.Kafka
