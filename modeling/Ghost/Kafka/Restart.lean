import Ghost.Kafka.Config
import Ghost.Kafka.Delivery

/-!
# A consumer that is started again (kafka/consumer.go, kafka/client.go)

A consumer may stop or crash anywhere and be started again. Its client then reads
on from the committed offset of each partition; a partition without one is read
from where the options say, which for a consumer group is its end at that moment.
Here one consumer of a group runs, over topics that grow, as often as it is
started. While it runs it keeps its partitions, and a poll gives the next records of
them; an error of another partition may come with them, and then `Start` drops them.
-/

namespace Ghost.Kafka.Restart
open Go Transition PartitionedLog

structure Topics where
  log : List Record
  logEnd : String × Nat → Nat
  below : ∀ r ∈ log, r.offset < logEnd r.tp
  ascending : Ascending Record.tp Record.offset log

def Topics.append (t : Topics) (topic : String) (partition : Nat) (key value : Bytes) : Topics where
  log := t.log ++ [⟨topic, partition, t.logEnd (topic, partition), key, value⟩]
  logEnd := Function.update t.logEnd (topic, partition) (t.logEnd (topic, partition) + 1)
  below := by
    intro r hr
    by_cases htp : r.tp = (topic, partition)
    · rw [htp, Function.update_self]
      rcases List.mem_append.mp hr with hr | hr
      · have hlt := t.below r hr
        rw [htp] at hlt
        omega
      · rw [List.mem_singleton.mp hr]
        exact Nat.lt_succ_self _
    · rw [Function.update_of_ne htp]
      rcases List.mem_append.mp hr with hr | hr
      · exact t.below r hr
      · rw [List.mem_singleton.mp hr] at htp
        exact absurd rfl htp
  ascending := by
    refine List.pairwise_append.mpr ⟨t.ascending, List.pairwise_singleton .., ?_⟩
    intro q hq r hr htp
    have hlt := t.below q hq
    rw [List.mem_singleton.mp hr] at htp ⊢
    rw [htp] at hlt
    exact hlt

structure Group where
  topics : Topics
  committed : String × Nat → Option Nat
  -- where the first start of the group began to read, and where the present one did
  first : String × Nat → Nat
  began : String × Nat → Nat
  st : St
  -- the handler calls of the starts before
  past : List (List (Record × Option Error))

def resume (reset : Reset) (logEnd : Nat) : Option Nat → Nat
  | some n => n
  | none => match reset with
    | .atStart => 0
    | .atEnd => logEnd

def begin (position : String × Nat → Nat) : St := .start ⟨position, position, fun _ => Nat.le_refl _⟩

def Group.position (reset : Reset) (g : Group) (tp : String × Nat) : Nat :=
  resume reset (g.topics.logEnd tp) (g.committed tp)

/-- The group's first start, on topics that may have records already. -/
def join (reset : Reset) (t : Topics) : Group where
  topics := t
  committed := fun _ => none
  first := fun tp => resume reset (t.logEnd tp) none
  began := fun tp => resume reset (t.logEnd tp) none
  st := begin fun tp => resume reset (t.logEnd tp) none
  past := []

inductive Action where
  | produce (topic : String) (partition : Nat) (key value : Bytes)
  | consumer (a : Kafka.Action)
  | restart

/-- The records are the next ones of their partitions. -/
def Next (t : Topics) (position : String × Nat → Nat) (records : List Record) : Prop :=
  (∀ r ∈ records, r ∈ t.log) ∧ ∀ r ∈ t.log, position r.tp ≤ r.offset →
    r.offset < advance Record.tp Record.offset position records r.tp → r ∈ records

instance (t : Topics) (position : String × Nat → Nat) (records : List Record) : Decidable (Next t position records) :=
  inferInstanceAs (Decidable (_ ∧ _))

-- what the client may return from a poll
def Polls (g : Group) : Kafka.Action → Prop
  | .poll (.fetched records _) => Next g.topics g.st.position records
  | _ => True

instance (g : Group) : (a : Kafka.Action) → Decidable (Polls g a)
  | .poll (.fetched records _) => inferInstanceAs (Decidable (Next g.topics g.st.position records))
  | .poll .clientClosed | .go | .select _ | .handle _ | .send _ | .commit _ | .cancel | .produced _ _ => .isTrue trivial

-- what the group coordinator makes of a commit
def commits (committed : String × Nat → Option Nat) : Kafka.Action → Pc → String × Nat → Option Nat
  | .commit none, .commit r _ => Function.update committed r.tp (some (r.offset + 1))
  | _, _ => committed

def step (c : ConsumerOptions) (reset : Reset) (g : Group) : Action → Option Group
  | .produce topic partition key value => some { g with topics := g.topics.append topic partition key value }
  | .consumer a =>
    if Polls g a then
      (Kafka.step c g.st a).map fun t => { g with st := t, committed := commits g.committed a g.st.pc }
    else none
  -- also of a consumer that still runs: it has crashed
  | .restart => some { g with
      began := g.position reset
      st := begin (g.position reset)
      past := g.past ++ [g.st.calls] }

/-! ### What is owed -/

/-- Some start of the consumer is done with the record. -/
def ConcludedEver (c : ConsumerOptions) (g : Group) (r : Record) : Prop :=
  Concluded c g.st.calls r ∨ ∃ calls ∈ g.past, Concluded c calls r

/-- A record that was appended since the group first joined, and that no start will
read again, has been concluded. -/
def NothingMissed (c : ConsumerOptions) (g : Group) : Prop :=
  ∀ r ∈ g.topics.log, g.first r.tp ≤ r.offset →
    r.offset < g.began r.tp ∨ (∃ n, g.committed r.tp = some n ∧ r.offset < n) → ConcludedEver c g r

/-- A start again finds a committed offset on every partition with a record that is
not concluded; and a poll that comes with an error has no such record, unless the
context is cancelled already. -/
def MissesNone (c : ConsumerOptions) (g : Group) : Action → Prop
  | .restart => ∀ r ∈ g.topics.log, g.first r.tp ≤ r.offset → g.committed r.tp = none → ConcludedEver c g r
  | .consumer (.poll (.fetched records errs)) =>
    errs = [] ∨ g.st.ctxDone = true ∨ ∀ r ∈ records, g.first r.tp ≤ r.offset → ConcludedEver c g r
  | _ => True

/-! ### The invariants -/

-- in every run
structure Sound (c : ConsumerOptions) (g : Group) : Prop where
  ordered : Ordered g.st
  attempts : Attempts c g.st
  began : ∀ tp, g.began tp ≤ g.st.position tp
  ends : ∀ tp, g.st.position tp ≤ g.topics.logEnd tp
  committed : ∀ tp n, g.committed tp = some n → g.st.committed tp = n

-- what only the present start can do
def Owed (c : ConsumerOptions) (g : Group) (r : Record) : Prop :=
  g.first r.tp ≤ r.offset ∧ ∀ calls ∈ g.past, ¬ Concluded c calls r

-- in a run that misses none
structure Inv (c : ConsumerOptions) (g : Group) : Prop extends Sound c g where
  covered : Covered c (Owed c g) g.st
  contiguous : ∀ r ∈ g.topics.log, g.began r.tp ≤ r.offset → r.offset < g.st.position r.tp → r ∈ g.st.delivered
  before : ∀ r ∈ g.topics.log, g.first r.tp ≤ r.offset → r.offset < g.began r.tp → ConcludedEver c g r

variable {c : ConsumerOptions} {g : Group} {t : St} {a : Kafka.Action}

/-- A record below the committed offset is concluded. -/
theorem Inv.below_committed (h : Inv c g) {r : Record} (hr : r ∈ g.topics.log) (hfirst : g.first r.tp ≤ r.offset)
    {n : Nat} (hn : g.committed r.tp = some n) (hlt : r.offset < n) : ConcludedEver c g r := by
  by_cases hbegan : r.offset < g.began r.tp
  · exact h.before r hr hfirst hbegan
  · have hsame := h.committed r.tp n hn
    have hpos := h.ordered.committed r.tp
    have hdelivered := h.contiguous r hr (Nat.not_lt.mp hbegan) (by omega)
    by_cases hpast : ∃ calls ∈ g.past, Concluded c calls r
    · exact .inr hpast
    · have howed : Owed c g r := ⟨hfirst, fun calls hcalls hdone => hpast ⟨calls, hcalls, hdone⟩⟩
      exact .inl (h.covered.below hdelivered howed (by omega))

theorem Inv.nothingMissed (h : Inv c g) : NothingMissed c g := by
  intro r hr hfirst hcase
  rcases hcase with hbegan | ⟨n, hn, hlt⟩
  · exact h.before r hr hfirst hbegan
  · exact h.below_committed hr hfirst hn hlt

theorem sound_begin {position : String × Nat → Nat} (hbegan : g.began = position) (hst : g.st = begin position)
    (hends : ∀ tp, position tp ≤ g.topics.logEnd tp)
    (hcommitted : ∀ tp n, g.committed tp = some n → position tp = n) : Sound c g := by
  refine ⟨?_, ?_, ?_, ?_, ?_⟩
  · rw [hst]
    exact start_ordered _
  · rw [hst]
    exact start_attempts c _
  · intro tp
    rw [hbegan, hst]
    exact Nat.le_refl _
  · intro tp
    rw [hst]
    exact hends tp
  · rw [hst]
    exact hcommitted

/- A fresh start at `position`, once what lies below is concluded. -/
theorem inv_begin {position : String × Nat → Nat} (hs : Sound c g) (hbegan : g.began = position)
    (hst : g.st = begin position)
    (hbefore : ∀ r ∈ g.topics.log, g.first r.tp ≤ r.offset → r.offset < position r.tp → ConcludedEver c g r) :
    Inv c g := by
  refine ⟨hs, ?_, ?_, ?_⟩
  · rw [hst]
    exact start_covered c _ _
  · intro r _ hle hlt
    rw [hbegan] at hle
    rw [hst] at hlt
    exact absurd hle (Nat.not_le.mpr hlt)
  · rw [hbegan]
    exact hbefore

theorem sound_join (c : ConsumerOptions) (ts : Topics) : Sound c (join .atEnd ts) := by
  refine sound_begin rfl rfl (fun _ => Nat.le_refl _) ?_
  intro tp n hn
  cases hn

theorem inv_join (c : ConsumerOptions) (ts : Topics) : Inv c (join .atEnd ts) := by
  refine inv_begin (sound_join c ts) rfl rfl ?_
  intro r hr hfirst _
  exact absurd hfirst (Nat.not_le.mpr (ts.below r hr))

/-! ### What each step keeps -/

/- A call undoes no conclusion. -/
theorem step_concluded {s t : St} (h : Step c s a t) (hat : Attempts c s) {r : Record}
    (hr : Concluded c s.calls r) : Concluded c t.calls r := by
  have hcur := hat.current
  cases h with
  | handled q n rest hpc | retry q n rest e hpc hn | exhausted q n rest e hpc hn hdlq
  | dropped q n rest e hpc hn hdlq =>
    rw [hpc] at hcur
    exact hr.append _ (by rw [hcur.1]; exact hcur.2.1)
  | _ => exact hr

/- What the position and the delivered records of a step have to do with the log. -/
structure Reads (g : Group) (t : St) : Prop where
  forward : ∀ tp, g.st.position tp ≤ t.position tp
  ends : ∀ tp, t.position tp ≤ g.topics.logEnd tp
  kept : ∀ r ∈ g.st.delivered, r ∈ t.delivered
  next : ∀ r ∈ g.topics.log, g.st.position r.tp ≤ r.offset → r.offset < t.position r.tp → r ∈ t.delivered

theorem reads_same (hends : ∀ tp, g.st.position tp ≤ g.topics.logEnd tp) (hposition : t.position = g.st.position)
    (hdelivered : t.delivered = g.st.delivered) : Reads g t := by
  refine ⟨?_, ?_, ?_, ?_⟩
  · intro tp
    exact Nat.le_of_eq (congrFun hposition tp).symm
  · rw [hposition]
    exact hends
  · rw [hdelivered]
    exact fun _ => id
  · intro r _ hle hlt
    rw [hposition] at hlt
    exact absurd hle (Nat.not_le.mpr hlt)

theorem reads_receive {records : List Record} {pc : Pc} (hends : ∀ tp, g.st.position tp ≤ g.topics.logEnd tp)
    (hv : ValidPoll g.st records) (hnext : Next g.topics g.st.position records) :
    Reads g { g.st.receive records with pc := pc } := by
  refine ⟨fun tp => le_advance hv.1 hv.2 tp, fun tp => ?_, fun _ => List.mem_append_left _, ?_⟩
  · exact advance_le hends (fun r hr => g.topics.below r (hnext.1 r hr)) tp
  · intro r hr hle hlt
    exact List.mem_append_right _ (hnext.2 r hr hle hlt)

theorem step_reads (h : Step c g.st a t) (hok : Polls g a)
    (hends : ∀ tp, g.st.position tp ≤ g.topics.logEnd tp) : Reads g t := by
  cases h with
  | fetchError records errs hpc hv herr => exact reads_receive hends hv hok
  | fetch records hpc hv => exact reads_receive hends hv hok
  | _ => exact reads_same hends rfl rfl

theorem not_concluded_fresh (hc : 0 < c.maxRetries) {calls : List (Record × Option Error)} {r : Record}
    (h : ∀ e, (r, e) ∉ calls) : ¬ Concluded c calls r := by
  rintro (hnil | hmax)
  · exact h none hnil
  · rw [fails_eq_zero h] at hmax
    omega

-- What a poll returns this start has not handled, so if it is concluded an earlier start did that.
theorem missesNone_drops (hc : 0 < c.maxRetries) (ho : Ordered g.st) (hok : MissesNone c g (.consumer a))
    (hstep : Step c g.st a t) : DropsNone (Owed c g) g.st a := by
  cases hstep with
  | fetchError records errs hpc hv herr =>
    rcases hok with hnil | hctx | hdone
    · exact .inl hnil
    · exact .inr (.inr hctx)
    · refine .inr (.inl fun r hr howed => ?_)
      rcases hdone r hr howed.1 with hnow | ⟨calls, hcalls, hpast⟩
      · exact not_concluded_fresh hc (receive_fresh ho hv hr) hnow
      · exact howed.2 calls hcalls hpast
  | fetch records hpc hv => exact .inl rfl
  | _ => trivial

/- The coordinator's offset and the one the consumer's model keeps. -/
theorem step_committed (h : Step c g.st a t) (hs : ∀ tp n, g.committed tp = some n → g.st.committed tp = n)
    (tp : String × Nat) (n : Nat) (hn : commits g.committed a g.st.pc tp = some n) : t.committed tp = n := by
  cases h with
  | commit r rest hpc =>
    rw [hpc] at hn
    by_cases htp : tp = r.tp
    · subst htp
      simp only [commits, Function.update_self, Option.some.injEq] at hn ⊢
      exact hn
    · simp only [commits, Function.update_of_ne htp] at hn ⊢
      exact hs tp n hn
  | _ => exact hs tp n hn

theorem Sound.consumer (hc : 0 < c.maxRetries) (h : Sound c g) (hok : Polls g a) (hstep : Step c g.st a t) :
    Sound c { g with st := t, committed := commits g.committed a g.st.pc } := by
  have hreads := step_reads hstep hok h.ends
  exact ⟨step_ordered hstep h.ordered, step_attempts hstep h.ordered h.attempts hc,
    fun tp => Nat.le_trans (h.began tp) (hreads.forward tp), hreads.ends, step_committed hstep h.committed⟩

theorem Inv.consumer (hc : 0 < c.maxRetries) (h : Inv c g) (hpolls : Polls g a) (hok : MissesNone c g (.consumer a))
    (hstep : Step c g.st a t) : Inv c { g with st := t, committed := commits g.committed a g.st.pc } := by
  have hreads := step_reads hstep hpolls h.ends
  refine ⟨h.toSound.consumer hc hpolls hstep,
    step_covered hstep h.ordered h.attempts (missesNone_drops hc h.ordered hok hstep) h.covered, ?_, ?_⟩
  · intro r hr hle hlt
    by_cases hold : r.offset < g.st.position r.tp
    · exact hreads.kept r (h.contiguous r hr hle hold)
    · exact hreads.next r hr (Nat.not_lt.mp hold) hlt
  · intro r hr hfirst hlt
    rcases h.before r hr hfirst hlt with hnow | hpast
    · exact .inl (step_concluded hstep h.attempts hnow)
    · exact .inr hpast

theorem Topics.logEnd_le_append (ts : Topics) (topic : String) (partition : Nat) (key value : Bytes) (tp : String × Nat) :
    ts.logEnd tp ≤ (ts.append topic partition key value).logEnd tp := by
  by_cases htp : tp = (topic, partition)
  · subst htp
    simp only [Topics.append, Function.update_self]
    omega
  · simp only [Topics.append, Function.update_of_ne htp]
    exact Nat.le_refl _

theorem Sound.produce (h : Sound c g) (topic : String) (partition : Nat) (key value : Bytes) :
    Sound c { g with topics := g.topics.append topic partition key value } :=
  ⟨h.ordered, h.attempts, h.began,
    fun tp => Nat.le_trans (h.ends tp) (g.topics.logEnd_le_append topic partition key value tp), h.committed⟩

theorem Inv.produce (h : Inv c g) (topic : String) (partition : Nat) (key value : Bytes) :
    Inv c { g with topics := g.topics.append topic partition key value } := by
  -- the new record lies at the old end, where no position is beyond it
  have hnew : ∀ r ∈ (g.topics.append topic partition key value).log, r ∉ g.topics.log →
      ¬ r.offset < g.st.position r.tp := by
    intro r hr hold
    rcases List.mem_append.mp hr with hr | hr
    · exact absurd hr hold
    · rw [List.mem_singleton.mp hr]
      exact Nat.not_lt.mpr (h.ends (topic, partition))
  refine ⟨h.toSound.produce topic partition key value, h.covered, ?_, ?_⟩
  · intro r hr hle hlt
    by_cases hold : r ∈ g.topics.log
    · exact h.contiguous r hold hle hlt
    · exact absurd hlt (hnew r hr hold)
  · intro r hr hfirst hlt
    by_cases hold : r ∈ g.topics.log
    · exact h.before r hold hfirst hlt
    · exact absurd (Nat.lt_of_lt_of_le hlt (h.began r.tp)) (hnew r hr hold)

/-- A group as it is started again. -/
abbrev Group.restarted (g : Group) : Group :=
  { g with began := g.position .atEnd, st := begin (g.position .atEnd), past := g.past ++ [g.st.calls] }

/- The conclusions of all starts so far are those of the past after the next one. -/
theorem concludedEver_restarted (hc : 0 < c.maxRetries) (r : Record) :
    ConcludedEver c g.restarted r ↔ ConcludedEver c g r := by
  constructor
  · rintro (hnow | ⟨calls, hcalls, hpast⟩)
    · exact absurd hnow (not_concluded_fresh hc fun _ => List.not_mem_nil)
    · rcases List.mem_append.mp hcalls with hcalls | hcalls
      · exact .inr ⟨calls, hcalls, hpast⟩
      · rw [List.mem_singleton.mp hcalls] at hpast
        exact .inl hpast
  · rintro (hnow | ⟨calls, hcalls, hpast⟩)
    · exact .inr ⟨g.st.calls, List.mem_append_right _ (List.mem_singleton.mpr rfl), hnow⟩
    · exact .inr ⟨calls, List.mem_append_left _ hcalls, hpast⟩

theorem position_committed {tp : String × Nat} {n : Nat} (reset : Reset) (hn : g.committed tp = some n) :
    g.position reset tp = n := by
  rw [Group.position, hn]
  rfl

theorem position_atEnd {tp : String × Nat} (hn : g.committed tp = none) :
    g.position .atEnd tp = g.topics.logEnd tp := by
  rw [Group.position, hn]
  rfl

theorem Sound.restart (h : Sound c g) : Sound c g.restarted := by
  refine sound_begin rfl rfl ?_ fun tp n hn => position_committed .atEnd hn
  intro tp
  show g.position .atEnd tp ≤ g.topics.logEnd tp
  cases hn : g.committed tp with
  | none => exact Nat.le_of_eq (position_atEnd hn)
  | some n =>
    rw [position_committed .atEnd hn, ← h.committed tp n hn]
    exact Nat.le_trans (h.ordered.committed tp) (h.ends tp)

theorem Inv.restart (hc : 0 < c.maxRetries) (h : Inv c g) (hok : MissesNone c g .restart) : Inv c g.restarted := by
  refine inv_begin h.toSound.restart rfl rfl ?_
  intro r hr hfirst hlt
  have hlt : r.offset < g.position .atEnd r.tp := hlt
  refine (concludedEver_restarted hc r).mpr ?_
  cases hn : g.committed r.tp with
  | none => exact hok r hr hfirst hn
  | some n =>
    rw [position_committed .atEnd hn] at hlt
    exact h.below_committed hr hfirst hn hlt

theorem step_consumer {g' : Group} {reset : Reset} (hc : 0 < c.maxRetries) (h : step c reset g (.consumer a) = some g') :
    Polls g a ∧ ∃ t, Step c g.st a t ∧ g' = { g with st := t, committed := commits g.committed a g.st.pc } := by
  simp only [step] at h
  split at h
  · rename_i hpolls
    obtain ⟨t, ht, rfl⟩ := Option.map_eq_some_iff.mp h
    exact ⟨hpolls, t, step_cases hc ht, rfl⟩
  · cases h

theorem sound_step (hc : 0 < c.maxRetries) {g' : Group} {b : Action} (h : Sound c g)
    (hstep : step c .atEnd g b = some g') : Sound c g' := by
  cases b with
  | produce topic partition key value =>
    cases hstep
    exact h.produce topic partition key value
  | consumer a =>
    obtain ⟨hpolls, t, ht, rfl⟩ := step_consumer hc hstep
    exact h.consumer hc hpolls ht
  | restart =>
    cases hstep
    exact h.restart

theorem inv_step (hc : 0 < c.maxRetries) {g' : Group} {b : Action} (h : Inv c g) (hok : MissesNone c g b)
    (hstep : step c .atEnd g b = some g') : Inv c g' := by
  cases b with
  | produce topic partition key value =>
    cases hstep
    exact h.produce topic partition key value
  | consumer a =>
    obtain ⟨hpolls, t, ht, rfl⟩ := step_consumer hc hstep
    exact h.consumer hc hpolls hok ht
  | restart =>
    cases hstep
    exact h.restart hc hok

/-! ### A record that is missed

A start without a committed offset begins behind the record. After a poll that was
dropped one more record is appended to the partition, the rest of the partition is
polled without an error, handled and committed; the commit is beyond the dropped record. -/

theorem restarted_missed (hc : 0 < c.maxRetries) {r : Record} (hr : r ∈ g.topics.log) (hfirst : g.first r.tp ≤ r.offset)
    (hnone : g.committed r.tp = none) (hnot : ¬ ConcludedEver c g r) : ¬ NothingMissed c g.restarted := by
  intro hall
  have hlt : r.offset < g.position .atEnd r.tp := by
    rw [position_atEnd hnone]
    exact g.topics.below r hr
  exact hnot ((concludedEver_restarted hc r).mp (hall r hr hfirst (.inl hlt)))

-- what lies at or above the position
def Topics.unread (ts : Topics) (position : Nat) (tp : String × Nat) : List Record :=
  ts.log.filter fun r => r.tp = tp ∧ position ≤ r.offset

theorem mem_unread {ts : Topics} {position : Nat} {tp : String × Nat} {r : Record} :
    r ∈ ts.unread position tp ↔ r ∈ ts.log ∧ r.tp = tp ∧ position ≤ r.offset := by
  simp only [Topics.unread, List.mem_filter, decide_eq_true_eq]

theorem unread_valid (ts : Topics) (s : St) (tp : String × Nat) :
    ValidPoll s (ts.unread (s.position tp) tp) ∧ Next ts s.position (ts.unread (s.position tp) tp) := by
  refine ⟨⟨?_, List.Pairwise.sublist List.filter_sublist ts.ascending⟩, fun r hr => (mem_unread.mp hr).1, ?_⟩
  · intro r hr
    obtain ⟨-, htp, hle⟩ := mem_unread.mp hr
    rw [htp]
    exact hle
  · intro r hr hle hlt
    by_cases htp : r.tp = tp
    · exact mem_unread.mpr ⟨hr, htp, htp ▸ hle⟩
    · rw [advance_other fun q hq heq => htp (heq.symm.trans (mem_unread.mp hq).2.1)] at hlt
      exact absurd hle (Nat.not_le.mpr hlt)

/-- The group after the record is handled and committed. -/
abbrev Group.accept (g : Group) (r : Record) (rest : List Record) : Group :=
  { g with
    st := { g.st with
      calls := g.st.calls ++ [(r, none)]
      pc := .records rest
      committed := Function.update g.st.committed r.tp (r.offset + 1) }
    committed := Function.update g.committed r.tp (some (r.offset + 1)) }

def accepts (records : List Record) : List Action :=
  records.flatMap fun _ => [.consumer .go, .consumer (.handle none), .consumer (.commit none)]

theorem accept_exec (hc : 0 < c.maxRetries) (reset : Reset) {r : Record} {rest : List Record}
    (hpc : g.st.pc = .records (r :: rest)) (hctx : g.st.ctxDone = false) :
    exec (step c reset) g [.consumer .go, .consumer (.handle none), .consumer (.commit none)] =
      some (g.accept r rest) := by
  have hle : 0 ≤ c.maxRetries := by omega
  simp [exec, step, Kafka.step, Polls, hpc, hctx, loopHead, hle, concluded, commits]

structure Accepted (g : Group) (records : List Record) (u : Group) : Prop where
  topics : u.topics = g.topics
  first : u.first = g.first
  past : u.past = g.past
  calls : u.st.calls = g.st.calls ++ records.map fun r => (r, none)
  last : ∀ r, records.getLast? = some r → u.committed r.tp = some (r.offset + 1)
  kept : records = [] → u.committed = g.committed

theorem accepts_exec (hc : 0 < c.maxRetries) (reset : Reset) {records : List Record} (hpc : g.st.pc = .records records)
    (hctx : g.st.ctxDone = false) : ∃ u, exec (step c reset) g (accepts records) = some u ∧ Accepted g records u := by
  induction records generalizing g with
  | nil => exact ⟨g, rfl, rfl, rfl, rfl, (List.append_nil _).symm, nofun, fun _ => rfl⟩
  | cons r rest ih =>
    obtain ⟨u, hu, hrest⟩ := ih (g := g.accept r rest) rfl hctx
    refine ⟨u, exec_trans (accept_exec hc reset hpc hctx) hu, hrest.topics, hrest.first, hrest.past, ?_, ?_, nofun⟩
    · rw [hrest.calls, List.map_cons]
      exact List.append_assoc ..
    · intro q hq
      cases rest with
      | nil =>
        cases hq
        rw [hrest.kept rfl]
        exact Function.update_self ..
      | cons x rest => exact hrest.last q (by rw [← hq, List.getLast?_cons_cons])

theorem Accepted.concludedEver {u : Group} {records : List Record} {r : Record} (h : Accepted g records u)
    (hr : r ∉ records) (hdone : ConcludedEver c u r) : ConcludedEver c g r := by
  have hnew : ∀ e, (r, e) ∉ records.map fun q => (q, (none : Option Error)) := by
    intro e he
    obtain ⟨q, hq, heq⟩ := List.mem_map.mp he
    cases heq
    exact hr hq
  rcases hdone with hnow | ⟨calls, hcalls, hpast⟩
  · rw [h.calls] at hnow
    refine .inl ?_
    rcases hnow with hnil | hmax
    · exact .inl ((List.mem_append.mp hnil).resolve_right (hnew none))
    · rw [fails_append, fails_eq_zero hnew] at hmax
      exact .inr hmax
  · rw [h.past] at hcalls
    exact .inr ⟨calls, hcalls, hpast⟩

theorem unread_append (ts : Topics) {position : Nat} {topic : String} {partition : Nat} (key value : Bytes)
    (hle : position ≤ ts.logEnd (topic, partition)) :
    (ts.append topic partition key value).unread position (topic, partition) =
      ts.unread position (topic, partition) ++ [⟨topic, partition, ts.logEnd (topic, partition), key, value⟩] := by
  simp only [Topics.unread, Topics.append, List.filter_append]
  congr 1
  exact List.filter_eq_self.mpr fun q hq => by
    rw [List.mem_singleton.mp hq]
    exact decide_eq_true ⟨rfl, hle⟩

theorem step_poll {reset : Reset} {records : List Record} (hpc : g.st.pc = .poll) (hv : ValidPoll g.st records)
    (hnext : Next g.topics g.st.position records) : step c reset g (.consumer (.poll (.fetched records []))) =
      some { g with st := { g.st.receive records with pc := .records records } } := by
  have hpolls : Polls g (.poll (.fetched records [])) := hnext
  simp [step, Kafka.step, hpolls, hpc, hv, commits]

theorem poll_unread {reset : Reset} (hpc : g.st.pc = .top) (hctx : g.st.ctxDone = false) (topic : String)
    (partition : Nat) {ts : Topics} (hts : ts = g.topics.append topic partition [] []) {records : List Record}
    (hrecords : records = ts.unread (g.st.position (topic, partition)) (topic, partition)) :
    exec (step c reset) g
        [.produce topic partition [] [], .consumer .go, .consumer (.poll (.fetched records []))] =
      some { g with topics := ts, st := { g.st.receive records with pc := .records records } } := by
  obtain ⟨hvalid, hnext⟩ := unread_valid ts g.st (topic, partition)
  rw [← hrecords] at hvalid hnext
  have hgo : exec (step c reset) g [.produce topic partition [] [], .consumer .go] =
      some { g with topics := ts, st := { g.st with pc := .poll } } := by
    simp [exec, step, Kafka.step, Polls, hpc, hctx, commits, hts]
  exact exec_trans hgo (exec_single (step_poll rfl hvalid hnext))

theorem dropped_missed (hc : 0 < c.maxRetries) (reset : Reset) (hends : ∀ tp, g.st.position tp ≤ g.topics.logEnd tp)
    (hpc : g.st.pc = .top) (hctx : g.st.ctxDone = false) {r : Record} (hr : r ∈ g.topics.log)
    (hfirst : g.first r.tp ≤ r.offset) (hpos : r.offset < g.st.position r.tp) (hnot : ¬ ConcludedEver c g r) :
    ∃ more u, exec (step c reset) g more = some u ∧ ¬ NothingMissed c u := by
  have hrecords := unread_append g.topics [] [] (hends r.tp)
  obtain ⟨u, hu, hacc⟩ := accepts_exec (c := c) (g := { g with
    topics := g.topics.append r.topic r.partition [] []
    st := { g.st.receive _ with pc := .records _ } }) hc reset rfl hctx
  refine ⟨_, u, exec_trans (poll_unread hpc hctx r.topic r.partition rfl hrecords.symm) hu, fun hall => ?_⟩
  -- the record appended last is committed
  have hcommitted : u.committed r.tp = some (g.topics.logEnd r.tp + 1) :=
    hacc.last ⟨r.topic, r.partition, g.topics.logEnd r.tp, [], []⟩ List.getLast?_concat
  have hlog : r ∈ u.topics.log := by
    rw [hacc.topics]
    exact List.mem_append_left _ hr
  have hbelow := g.topics.below r hr
  refine hnot (hacc.concludedEver ?_ (hall r hlog (hacc.first ▸ hfirst) (.inr ⟨_, hcommitted, by omega⟩)))
  rw [← hrecords]
  exact fun hq => Nat.not_le.mpr hpos (mem_unread.mp hq).2.2

/-! ### The exact condition -/

end Ghost.Kafka.Restart
