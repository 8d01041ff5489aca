import Ghost.Kafka.Consumer

/-!
# No record is skipped (kafka/consumer.go)

A commit covers every smaller offset of its partition, so a record that the
callback never finished is covered by the commit of a later one. The invariants
below say where the records of a poll stand while `Start` runs; a poll that
returns records together with an error is the one place where they are lost.
-/

namespace Ghost.Kafka
open Go Transition PartitionedLog

-- The records of the last poll that are not finished, the one in hand first.
def Pc.pending : Pc → List Record
  | .top | .poll | .returned _ => []
  | .records rest => rest
  | .backoff r _ rest | .handler r _ rest | .dlq r _ rest | .commit r rest => r :: rest

-- Those the handler has not been called on.
def Pc.untouched : Pc → List Record
  | .top | .poll | .returned _ => []
  | .records rest | .backoff _ _ rest | .handler _ _ rest | .dlq _ _ rest | .commit _ rest => rest

/-! ### Order of the records in hand -/

structure Ordered (s : St) : Prop where
  sub : ∀ r ∈ s.pc.pending, r ∈ s.delivered
  asc : Ascending Record.tp Record.offset s.pc.pending
  below : ∀ r ∈ s.delivered, r.offset < s.position r.tp
  committed : ∀ tp, s.committed tp ≤ s.position tp
  called : ∀ r e, (r, e) ∈ s.calls → r ∈ s.delivered
  behind : ∀ r e, (r, e) ∈ s.calls → ∀ q ∈ s.pc.pending, r.tp = q.tp → r.offset ≤ q.offset

theorem start_ordered (a : Assignment) : Ordered (.start a) :=
  ⟨by simp [St.start, Pc.pending], List.Pairwise.nil, by simp [St.start], a.behind,
    by simp [St.start], by simp [St.start]⟩

-- Finishing records, in order, keeps the order of the rest.
theorem Ordered.shrink {s : St} (hs : Ordered s) (pc : Pc) (hpc : List.Sublist pc.pending s.pc.pending) :
    Ordered { s with pc := pc } where
  sub r hr := hs.sub r (hpc.subset hr)
  asc := List.Pairwise.sublist hpc hs.asc
  below := hs.below
  committed := hs.committed
  called := hs.called
  behind r e hc q hq := hs.behind r e hc q (hpc.subset hq)

theorem Ordered.receive {s : St} (hs : Ordered s) {records : List Record} (hv : ValidPoll s records)
    {pc : Pc} (hpc : pc.pending = [] ∨ pc.pending = records) :
    Ordered { s.receive records with pc := pc } := by
  have hin : ∀ r ∈ pc.pending, r ∈ records := by
    rcases hpc with hpc | hpc <;> rw [hpc]
    · exact fun r hr => absurd hr (List.not_mem_nil)
    · exact fun r hr => hr
  refine ⟨?_, ?_, ?_, ?_, ?_, ?_⟩
  · intro r hr
    exact List.mem_append_right _ (hin r hr)
  · rcases hpc with hpc | hpc
    · show Ascending _ _ pc.pending
      rw [hpc]
      exact List.Pairwise.nil
    · show Ascending _ _ pc.pending
      rw [hpc]
      exact hv.2
  · intro r hr
    rcases List.mem_append.mp hr with hr | hr
    · exact Nat.lt_of_lt_of_le (hs.below r hr) (le_advance hv.1 hv.2 r.tp)
    · exact lt_advance hv.1 hv.2 hr
  · intro tp
    exact Nat.le_trans (hs.committed tp) (le_advance hv.1 hv.2 tp)
  · intro r e hc
    exact List.mem_append_left _ (hs.called r e hc)
  · intro r e hc q hq htp
    have hr := hs.below r (hs.called r e hc)
    have hq := hv.1 q (hin q hq)
    rw [htp] at hr
    omega

theorem Ordered.call {s : St} (hs : Ordered s) {r : Record} {rest : List Record}
    (hpc : s.pc.pending = r :: rest) (e : Option Error) {pc : Pc} (hnext : pc.pending = r :: rest) :
    Ordered { s with calls := s.calls ++ [(r, e)], pc := pc } := by
  have hr : r ∈ s.pc.pending := by
    rw [hpc]
    exact List.mem_cons_self ..
  have hsame : pc.pending = s.pc.pending := hnext.trans hpc.symm
  have hshrunk := hs.shrink pc (by rw [hsame])
  refine ⟨hshrunk.sub, hshrunk.asc, hs.below, hs.committed, ?_, ?_⟩
  · intro q f hc
    rcases List.mem_append.mp hc with hc | hc
    · exact hs.called q f hc
    · cases List.mem_singleton.mp hc
      exact hs.sub r hr
  · intro q f hc p hp htp
    rcases List.mem_append.mp hc with hc | hc
    · exact hshrunk.behind q f hc p hp htp
    · cases List.mem_singleton.mp hc
      change p ∈ pc.pending at hp
      rw [hnext] at hp
      rcases List.mem_cons.mp hp with rfl | hp
      · exact Nat.le_refl _
      · have hasc : Ascending Record.tp Record.offset (r :: rest) := by
          rw [← hpc]
          exact hs.asc
        exact Nat.le_of_lt (List.rel_of_pairwise_cons hasc hp htp)

theorem step_ordered {c : ConsumerOptions} {s t : St} {a : Action} (h : Step c s a t)
    (hs : Ordered s) : Ordered t := by
  cases h with
  | cancel => exact ⟨hs.sub, hs.asc, hs.below, hs.committed, hs.called, hs.behind⟩
  | produced => exact ⟨hs.sub, hs.asc, hs.below, hs.committed, hs.called, hs.behind⟩
  | stop hpc | again hpc | closed hpc | done hpc =>
    apply hs.shrink
    simp [Pc.pending]
  | skip r rest hpc | begin r rest hpc | elapsed r n rest hpc | cancelled r n rest hpc
  | commitError r rest e hpc =>
    apply hs.shrink
    rw [hpc]
    simp [Pc.pending]
  | send r e rest now out published hpc =>
    have hnext := hs.shrink (.commit r rest) (by rw [hpc]; simp [Pc.pending])
    exact ⟨hnext.sub, hnext.asc, hnext.below, hnext.committed, hnext.called, hnext.behind⟩
  | fetchError records errs hpc hv => exact hs.receive hv (.inl rfl)
  | fetch records hpc hv => exact hs.receive hv (.inr rfl)
  | handled r n rest hpc => exact hs.call (by rw [hpc]; rfl) none rfl
  | retry r n rest e hpc => exact hs.call (by rw [hpc]; rfl) (some e) rfl
  | exhausted r n rest e hpc => exact hs.call (by rw [hpc]; rfl) (some e) rfl
  | dropped r n rest e hpc => exact hs.call (by rw [hpc]; rfl) (some e) rfl
  | commit r rest hpc =>
    have hnext := hs.shrink (.records rest) (by rw [hpc]; simp [Pc.pending])
    refine ⟨hnext.sub, hnext.asc, hnext.below, ?_, hnext.called, hnext.behind⟩
    intro tp
    by_cases htp : tp = r.tp
    · subst htp
      have hr := hs.below r (hs.sub r (by rw [hpc]; exact List.mem_cons_self ..))
      show Function.update s.committed r.tp (r.offset + 1) r.tp ≤ _
      rw [Function.update_self]
      exact hr
    · show Function.update s.committed r.tp (r.offset + 1) tp ≤ _
      rw [Function.update_of_ne htp]
      exact hs.committed tp

/-! ### Attempts on the record in hand -/

-- How often the handler has failed on a record.
def fails (calls : List (Record × Option Error)) (r : Record) : Nat :=
  calls.countP fun p => p.1 == r && p.2.isSome

def Concluded (c : ConsumerOptions) (calls : List (Record × Option Error)) (r : Record) : Prop :=
  (r, none) ∈ calls ∨ (fails calls r : Int) = c.maxRetries + 1

theorem fails_append (calls more : List (Record × Option Error)) (r : Record) :
    fails (calls ++ more) r = fails calls r + fails more r :=
  List.countP_append

theorem fails_append_self (calls : List (Record × Option Error)) (r : Record) (e : Error) :
    fails (calls ++ [(r, some e)]) r = fails calls r + 1 := by
  simp [fails]

theorem fails_append_nil (calls : List (Record × Option Error)) (r q : Record) :
    fails (calls ++ [(r, none)]) q = fails calls q := by
  simp [fails]

theorem fails_append_other (calls : List (Record × Option Error)) {r q : Record} (e : Option Error)
    (h : r ≠ q) : fails (calls ++ [(r, e)]) q = fails calls q := by
  simp [fails, h]

theorem fails_eq_zero {calls : List (Record × Option Error)} {r : Record}
    (h : ∀ e, (r, e) ∉ calls) : fails calls r = 0 := by
  apply List.countP_eq_zero.mpr
  rintro ⟨q, e⟩ hq
  simp only [Bool.and_eq_true, beq_iff_eq, not_and]
  rintro rfl
  exact absurd hq (h e)

-- A call on another record, or a call on a record that is not at its limit, undoes nothing.
theorem Concluded.append {c : ConsumerOptions} {calls : List (Record × Option Error)} {q : Record}
    (h : Concluded c calls q) {r : Record} (e : Option Error)
    (hr : (fails calls r : Int) ≤ c.maxRetries) : Concluded c (calls ++ [(r, e)]) q := by
  rcases h with h | h
  · exact .inl (List.mem_append_left _ h)
  · right
    have hne : r ≠ q := by
      rintro rfl
      omega
    rw [fails_append_other calls e hne]
    exact h

-- What the calls so far say about the record in hand.
def Attempted (c : ConsumerOptions) (calls : List (Record × Option Error)) : Pc → Prop
  | .backoff r n _ | .handler r n _ =>
    fails calls r = n ∧ (n : Int) ≤ c.maxRetries ∧ (r, none) ∉ calls
  | .dlq r _ _ => (fails calls r : Int) = c.maxRetries + 1 ∧ (r, none) ∉ calls
  | .commit r _ => Concluded c calls r
  | _ => True

structure Attempts (c : ConsumerOptions) (s : St) : Prop where
  fresh : ∀ r ∈ s.pc.untouched, ∀ e, (r, e) ∉ s.calls
  current : Attempted c s.calls s.pc

theorem start_attempts (c : ConsumerOptions) (a : Assignment) : Attempts c (.start a) :=
  ⟨by simp [St.start], trivial⟩

theorem receive_fresh {s : St} (hs : Ordered s) {records : List Record} (hv : ValidPoll s records)
    {r : Record} (hr : r ∈ records) (e : Option Error) : (r, e) ∉ s.calls := by
  intro hc
  have hlt := hs.below r (hs.called r e hc)
  have hle := hv.1 r hr
  omega

theorem Attempts.call {c : ConsumerOptions} {s : St} (ho : Ordered s) (hs : Attempts c s) {r : Record}
    {n : Nat} {rest : List Record} (hpc : s.pc = .handler r n rest) (e : Option Error) {pc : Pc}
    (hnext : pc.untouched = rest) (hcur : Attempted c (s.calls ++ [(r, e)]) pc) :
    Attempts c { s with calls := s.calls ++ [(r, e)], pc := pc } := by
  refine ⟨?_, hcur⟩
  intro q hq f hc
  have hq : q ∈ rest := by
    rw [← hnext]
    exact hq
  rcases List.mem_append.mp hc with hc | hc
  · exact hs.fresh q (by rw [hpc]; exact hq) f hc
  · -- the record in hand is not among the later ones
    cases List.mem_singleton.mp hc
    have hasc := ho.asc
    rw [hpc] at hasc
    exact absurd (List.rel_of_pairwise_cons hasc hq rfl) (Nat.lt_irrefl _)

theorem step_attempts {c : ConsumerOptions} {s t : St} {a : Action} (h : Step c s a t)
    (ho : Ordered s) (hs : Attempts c s) (hc : 0 < c.maxRetries) : Attempts c t := by
  cases h with
  | cancel => exact ⟨hs.fresh, hs.current⟩
  | produced => exact ⟨hs.fresh, hs.current⟩
  | stop hpc | again hpc | closed hpc | done hpc | fetchError records errs hpc hv =>
    exact ⟨fun r hr => absurd hr List.not_mem_nil, trivial⟩
  | fetch records hpc hv => exact ⟨fun r hr e => receive_fresh ho hv hr e, trivial⟩
  | skip r rest hpc =>
    exact ⟨fun q hq => hs.fresh q (by rw [hpc]; exact List.mem_cons_of_mem _ hq), trivial⟩
  | begin r rest hpc =>
    have hfresh : ∀ q ∈ r :: rest, ∀ e, (q, e) ∉ s.calls := fun q hq =>
      hs.fresh q (by rw [hpc]; exact hq)
    have hr := hfresh r (List.mem_cons_self ..)
    exact ⟨fun q hq => hfresh q (List.mem_cons_of_mem _ hq), fails_eq_zero hr, by
      show ((0 : Nat) : Int) ≤ c.maxRetries
      omega, hr none⟩
  | elapsed r n rest hpc =>
    have hcur := hs.current
    rw [hpc] at hcur
    exact ⟨fun q hq => hs.fresh q (by rw [hpc]; exact hq), hcur⟩
  | cancelled r n rest hpc => exact ⟨fun q hq => hs.fresh q (by rw [hpc]; exact hq), trivial⟩
  | handled r n rest hpc =>
    exact hs.call ho hpc none rfl (.inl (List.mem_append_right _ (List.mem_singleton.mpr rfl)))
  | retry r n rest e hpc hn =>
    have hcur := hs.current
    rw [hpc] at hcur
    refine hs.call ho hpc (some e) rfl ⟨?_, by omega, ?_⟩
    · rw [fails_append_self, hcur.1]
    · simpa using hcur.2.2
  | exhausted r n rest e hpc hn =>
    have hcur := hs.current
    rw [hpc] at hcur
    refine hs.call ho hpc (some e) rfl ⟨?_, ?_⟩
    · rw [fails_append_self, hcur.1]
      have hle := hcur.2.1
      omega
    · simpa using hcur.2.2
  | dropped r n rest e hpc hn =>
    have hcur := hs.current
    rw [hpc] at hcur
    refine hs.call ho hpc (some e) rfl (.inr ?_)
    rw [fails_append_self, hcur.1]
    have hle := hcur.2.1
    omega
  | send r e rest now out published hpc =>
    have hcur := hs.current
    rw [hpc] at hcur
    exact ⟨fun q hq => hs.fresh q (by rw [hpc]; exact hq), .inr hcur.1⟩
  | commit r rest hpc => exact ⟨fun q hq => hs.fresh q (by rw [hpc]; exact hq), trivial⟩
  | commitError r rest e hpc => exact ⟨fun q hq => hs.fresh q (by rw [hpc]; exact hq), trivial⟩

/-! ### Unfinished records are never covered by a commit -/

def NoSkip (c : ConsumerOptions) (s : St) : Prop :=
  ∀ r ∈ s.delivered, r.offset < s.committed r.tp → Concluded c s.calls r

-- A poll that returns records carries no error, unless the context is cancelled already.
def CleanPoll (s : St) : Action → Prop
  | .poll (.fetched records errs) => errs = [] ∨ records = [] ∨ s.ctxDone = true
  | _ => True

-- From here on `Start` handles and commits nothing.
def Stopped (s : St) : Prop :=
  s.ctxDone = true ∧ (s.pc = .top ∨ (∃ rest, s.pc = .records rest) ∨ ∃ e, s.pc = .returned e)

/- Of the delivered records only the `owed` ones are looked at: all of them, as long as
nobody else has handled any. -/
def Covered (c : ConsumerOptions) (owed : Record → Prop) (s : St) : Prop :=
  ∀ r ∈ s.delivered, owed r → Concluded c s.calls r ∨
    (s.committed r.tp ≤ r.offset ∧ (r ∈ s.pc.pending ∨ Stopped s))

-- A poll with an error drops no record that is owed.
def DropsNone (owed : Record → Prop) (s : St) : Action → Prop
  | .poll (.fetched records errs) => errs = [] ∨ (∀ r ∈ records, ¬ owed r) ∨ s.ctxDone = true
  | _ => True

theorem CleanPoll.dropsNone {s : St} {a : Action} (h : CleanPoll s a) (owed : Record → Prop) : DropsNone owed s a := by
  cases a with
  | poll fetches =>
    cases fetches with
    | clientClosed => trivial
    | fetched records errs =>
      rcases h with hnil | hnil | hctx
      · exact .inl hnil
      · refine .inr (.inl ?_)
        rw [hnil]
        exact fun r hr => absurd hr List.not_mem_nil
      · exact .inr (.inr hctx)
  | go | select | handle | send | commit | cancel | produced => trivial

-- in a poll, or with a record in hand
def Pc.running : Pc → Bool
  | .poll | .backoff _ _ _ | .handler _ _ _ | .dlq _ _ _ | .commit _ _ => true
  | .top | .records _ | .returned _ => false

theorem not_stopped {s : St} {pc : Pc} (hpc : s.pc = pc) (hrun : pc.running = true) : ¬ Stopped s := by
  rintro ⟨-, h | ⟨rest, h⟩ | ⟨e, h⟩⟩ <;>
  · cases hpc.symm.trans h
    cases hrun

theorem not_stopped_alive {s : St} (hctx : s.ctxDone = false) : ¬ Stopped s :=
  fun hstop => absurd (hctx.symm.trans hstop.1) Bool.false_ne_true

section Covered

variable {c : ConsumerOptions} {owed : Record → Prop} {s : St}

theorem Covered.below {r : Record} (h : Covered c owed s) (hr : r ∈ s.delivered) (howed : owed r)
    (hlt : r.offset < s.committed r.tp) : Concluded c s.calls r := by
  rcases h r hr howed with hdone | ⟨hle, -⟩
  · exact hdone
  · omega

-- While polling, nothing delivered is unfinished.
theorem Covered.polling (h : Covered c owed s) (hpc : s.pc = .poll) {r : Record} (hr : r ∈ s.delivered)
    (howed : owed r) : Concluded c s.calls r := by
  rcases h r hr howed with hdone | ⟨-, hmem | hstop⟩
  · exact hdone
  · rw [hpc] at hmem
    exact absurd hmem List.not_mem_nil
  · exact absurd hstop (not_stopped hpc rfl)

theorem Covered.call (hs : Covered c owed s) (hat : Attempts c s) {r : Record} {n : Nat} {rest : List Record}
    (hpc : s.pc = .handler r n rest) (e : Option Error) {pc : Pc} (hnext : pc.pending = r :: rest) :
    Covered c owed { s with calls := s.calls ++ [(r, e)], pc := pc } := by
  have hcur := hat.current
  rw [hpc] at hcur
  intro q hq howed
  rcases hs q hq howed with hdone | ⟨hle, hmem | hstop⟩
  · refine .inl (hdone.append e ?_)
    rw [hcur.1]
    exact hcur.2.1
  · refine .inr ⟨hle, .inl ?_⟩
    rw [hpc] at hmem
    show q ∈ pc.pending
    rw [hnext]
    exact hmem
  · exact absurd hstop (not_stopped hpc rfl)

-- A transition that moves only the program counter, and drops nothing before the context is cancelled.
theorem Covered.move (hs : Covered c owed s) (pc : Pc)
    (hkeep : ∀ q, q ∈ s.pc.pending ∨ Stopped s → Concluded c s.calls q ∨ q ∈ pc.pending ∨
      Stopped { s with pc := pc }) : Covered c owed { s with pc := pc } := by
  intro q hq howed
  rcases hs q hq howed with hdone | ⟨hle, hrest⟩
  · exact .inl hdone
  · rcases hkeep q hrest with hdone | hrest
    · exact .inl hdone
    · exact .inr ⟨hle, hrest⟩

theorem Covered.goes (hs : Covered c owed s) (pc : Pc) (hrun : ¬ Stopped s)
    (hkeep : ∀ q ∈ s.pc.pending, Concluded c s.calls q ∨ q ∈ pc.pending) : Covered c owed { s with pc := pc } := by
  apply hs.move
  rintro q (hmem | hstop)
  · exact (hkeep q hmem).imp_right .inl
  · exact absurd hstop hrun

-- The commit of a finished record stays below the later records of its partition.
theorem Covered.commit (hs : Covered c owed s) (ho : Ordered s) (hat : Attempts c s) {r : Record}
    {rest : List Record} (hpc : s.pc = .commit r rest) :
    Covered c owed { s with
      pc := .records rest
      committed := Function.update s.committed r.tp (r.offset + 1) } := by
  have hcur := hat.current
  have hasc := ho.asc
  rw [hpc] at hcur hasc
  intro q hq howed
  rcases hs q hq howed with hdone | ⟨hle, hmem | hstop⟩
  · exact .inl hdone
  · rw [hpc] at hmem
    rcases List.mem_cons.mp hmem with rfl | hmem
    · exact .inl hcur
    · refine .inr ⟨?_, .inl hmem⟩
      show Function.update s.committed r.tp (r.offset + 1) q.tp ≤ q.offset
      by_cases htp : q.tp = r.tp
      · rw [htp, Function.update_self]
        exact List.rel_of_pairwise_cons hasc hmem htp.symm
      · rw [Function.update_of_ne htp]
        exact hle
  · exact absurd hstop (not_stopped hpc rfl)

theorem step_covered {t : St} {a : Action} (h : Step c s a t) (ho : Ordered s) (hat : Attempts c s)
    (hok : DropsNone owed s a) (hs : Covered c owed s) : Covered c owed t := by
  cases h with
  | cancel =>
    intro q hq howed
    rcases hs q hq howed with hdone | ⟨hle, hmem | hstop⟩
    · exact .inl hdone
    · exact .inr ⟨hle, .inl hmem⟩
    · exact .inr ⟨hle, .inr ⟨rfl, hstop.2⟩⟩
  | produced => exact hs
  | stop hpc hctx => exact hs.move _ fun q _ => .inr (.inr ⟨hctx, .inr (.inr ⟨_, rfl⟩)⟩)
  | again hpc hctx =>
    refine hs.goes _ (not_stopped_alive hctx) fun q hmem => ?_
    rw [hpc] at hmem
    exact absurd hmem List.not_mem_nil
  | closed hpc => exact fun q hq howed => .inl (hs.polling hpc hq howed)
  | fetchError records errs hpc hv herr =>
    intro q hq howed
    rcases List.mem_append.mp hq with hq | hq
    · exact .inl (hs.polling hpc hq howed)
    · -- dropped records that are owed leave only a run that is already cancelled
      have hle : s.committed q.tp ≤ q.offset := Nat.le_trans (ho.committed q.tp) (hv.1 q hq)
      rcases hok with hnil | hnone | hctx
      · exact absurd hnil herr
      · exact absurd howed (hnone q hq)
      · exact .inr ⟨hle, .inr ⟨hctx, .inl rfl⟩⟩
  | fetch records hpc hv =>
    intro q hq howed
    rcases List.mem_append.mp hq with hq | hq
    · exact .inl (hs.polling hpc hq howed)
    · exact .inr ⟨Nat.le_trans (ho.committed q.tp) (hv.1 q hq), .inl hq⟩
  | done hpc =>
    apply hs.move
    rintro q (hmem | hstop)
    · rw [hpc] at hmem
      exact absurd hmem List.not_mem_nil
    · exact .inr (.inr ⟨hstop.1, .inl rfl⟩)
  | skip r rest hpc hctx => exact hs.move _ fun q _ => .inr (.inr ⟨hctx, .inr (.inl ⟨_, rfl⟩)⟩)
  | begin r rest hpc hctx =>
    refine hs.goes _ (not_stopped_alive hctx) fun q hmem => ?_
    rw [hpc] at hmem
    exact .inr hmem
  | elapsed r n rest hpc =>
    refine hs.goes _ (not_stopped hpc rfl) fun q hmem => ?_
    rw [hpc] at hmem
    exact .inr hmem
  | cancelled r n rest hpc hctx => exact hs.move _ fun q _ => .inr (.inr ⟨hctx, .inr (.inl ⟨_, rfl⟩)⟩)
  | handled r n rest hpc => exact hs.call hat hpc none rfl
  | retry r n rest e hpc => exact hs.call hat hpc (some e) rfl
  | exhausted r n rest e hpc => exact hs.call hat hpc (some e) rfl
  | dropped r n rest e hpc => exact hs.call hat hpc (some e) rfl
  | send r e rest now out published hpc =>
    refine hs.goes (.commit r rest) (not_stopped hpc rfl) fun q hmem => ?_
    rw [hpc] at hmem
    exact .inr hmem
  | commit r rest hpc => exact hs.commit ho hat hpc
  | commitError r rest e hpc =>
    have hcur := hat.current
    rw [hpc] at hcur
    refine hs.goes _ (not_stopped hpc rfl) fun q hmem => ?_
    rw [hpc] at hmem
    rcases List.mem_cons.mp hmem with rfl | hmem
    · exact .inl hcur
    · exact .inr hmem

theorem start_covered (c : ConsumerOptions) (owed : Record → Prop) (a : Assignment) : Covered c owed (.start a) := by
  intro r hr
  exact absurd hr List.not_mem_nil

end Covered

/-! ### Runs -/

section Runs

variable {c : ConsumerOptions} {a : Assignment} {as : List Action} {s : St}

theorem run_ordered (hc : 0 < c.maxRetries) (h : exec (step c) (.start a) as = some s) :
    Ordered s ∧ Attempts c s := by
  have hstep : ∀ s b t, Ordered s ∧ Attempts c s → step c s b = some t → Ordered t ∧ Attempts c t := by
    intro s b t hs hb
    have hcases := step_cases hc hb
    exact ⟨step_ordered hcases hs.1, step_attempts hcases hs.1 hs.2 hc⟩
  exact exec_invariant hstep ⟨start_ordered a, start_attempts c a⟩ h

theorem run_covered (hc : 0 < c.maxRetries) (h : exec (step c) (.start a) as = some s)
    (hok : Meets (step c) CleanPoll (.start a) as) : Ordered s ∧ Attempts c s ∧ Covered c (fun _ => True) s := by
  have hstep : ∀ s b t, Ordered s ∧ Attempts c s ∧ Covered c (fun _ => True) s → CleanPoll s b → step c s b = some t →
      Ordered t ∧ Attempts c t ∧ Covered c (fun _ => True) t := by
    intro s b t hs hb ht
    have hcases := step_cases hc ht
    exact ⟨step_ordered hcases hs.1, step_attempts hcases hs.1 hs.2.1 hc,
      step_covered hcases hs.1 hs.2.1 (hb.dropsNone _) hs.2.2⟩
  exact exec_invariant_meets hstep ⟨start_ordered a, start_attempts c a, start_covered c _ a⟩ hok h

end Runs

-- The next record of a partition.
def nextRecord (s : St) (tp : String × Nat) : Record := ⟨tp.1, tp.2, s.position tp, [], []⟩

-- The poll of one record that the handler accepts.
def commitNext (s : St) (tp : String × Nat) : List Action :=
  [.go, .poll (.fetched [nextRecord s tp] []), .go, .handle none, .commit none]

theorem commitNext_exec {c : ConsumerOptions} (hc : 0 < c.maxRetries) {s : St} (hpc : s.pc = .top)
    (hctx : s.ctxDone = false) (tp : String × Nat) :
    exec (step c) s (commitNext s tp) = some { s.receive [nextRecord s tp] with
      pc := .records []
      calls := s.calls ++ [(nextRecord s tp, none)]
      committed := Function.update s.committed tp (s.position tp + 1) } := by
  have hv : ValidPoll { s with pc := .poll } [nextRecord s tp] :=
    ⟨fun r hr => by rw [List.mem_singleton.mp hr]; exact Nat.le_refl _, List.pairwise_singleton ..⟩
  have hle : ((0 : Nat) : Int) ≤ c.maxRetries := by omega
  rw [hctx] at hv
  simp only [commitNext, exec, step, hpc, hctx, Option.bind_some, Bool.false_eq_true, if_false,
    if_pos hv, ne_eq, not_true_eq_false, St.receive, loopHead, if_pos hle, Nat.lt_irrefl, gt_iff_lt,
    concluded, Option.isNone_none, if_true]
  rfl

/-- A polled record that is dropped with a fetch error is covered by the next commit. -/
theorem dropped_is_skipped {c : ConsumerOptions} (hc : 0 < c.maxRetries) {s : St} (ho : Ordered s)
    {records : List Record} (hv : ValidPoll s records) {r : Record} (hr : r ∈ records)
    (hctx : s.ctxDone = false) :
    ∃ more u, exec (step c) { s.receive records with pc := .top } more = some u ∧
      r ∈ u.delivered ∧ r.offset < u.committed r.tp ∧ (∀ e, (r, e) ∉ u.calls) ∧
      u.letters = s.letters := by
  have hlt : r.offset < (s.receive records).position r.tp := lt_advance hv.1 hv.2 hr
  refine ⟨_, _, commitNext_exec (s := { s.receive records with pc := .top }) hc rfl hctx r.tp,
    ?_, ?_, ?_, rfl⟩
  · exact List.mem_append_left _ (List.mem_append_right _ hr)
  · show r.offset < Function.update s.committed r.tp ((s.receive records).position r.tp + 1) r.tp
    rw [Function.update_self]
    omega
  · intro e he
    rcases List.mem_append.mp he with he | he
    · exact receive_fresh ho hv hr e he
    · have hnext : r = nextRecord { s.receive records with pc := .top } r.tp :=
        congrArg Prod.fst (List.mem_singleton.mp he)
      have hoff := congrArg Record.offset hnext
      exact absurd hoff (Nat.ne_of_lt hlt)

/-- A record below the committed offset has been concluded in every run in which
no poll mixes records with an error before the context is cancelled; after a
poll that does, a record can be committed that the handler never saw. -/
theorem noSkip_exactGuard (opts : List ConsumerOptions) (a : Assignment) :
    ExactGuard (step (newConsumer opts)) (.start a) CleanPoll (NoSkip (newConsumer opts)) where
  holds as s h hok := fun _ hr hlt => (run_covered (newConsumer_maxRetries opts) h hok).2.2.below hr trivial hlt
  fails := by
    intro as s b t h hb hbad
    have hc := newConsumer_maxRetries opts
    obtain ⟨ho, -⟩ := run_ordered hc h
    cases step_cases hc hb with
    | fetchError records errs hpc hv herr =>
      simp only [CleanPoll, not_or] at hbad
      obtain ⟨-, hrec, hctx⟩ := hbad
      obtain ⟨r, rest, rfl⟩ := List.exists_cons_of_ne_nil hrec
      obtain ⟨more, u, hu, hdel, hlt, hcalls, -⟩ := dropped_is_skipped hc ho hv
        (List.mem_cons_self ..) (Bool.eq_false_iff.mpr hctx)
      refine ⟨more, u, hu, fun hall => ?_⟩
      rcases hall r hdel hlt with hnil | hmax
      · exact hcalls none hnil
      · rw [fails_eq_zero hcalls] at hmax
        omega
    | fetch records hpc hv => exact absurd (.inl rfl) hbad
    | _ => exact absurd trivial hbad

/-! ### A record lost to the fetch error of another partition -/

def orders5 : Record := ⟨"orders", 0, 5, [], []⟩

def assigned : Assignment := ⟨fun _ => 0, fun _ => 5, fun _ => Nat.zero_le _⟩

/- Offset 5 arrives together with an error of another partition, offset 6 in the
next poll; the handler accepts 6 and its commit covers 5. -/
def mixedPoll : List Action :=
  [.go, .poll (.fetched [orders5] [.new "" "NOT_LEADER_FOR_PARTITION"]), .go,
    .poll (.fetched [⟨"orders", 0, 6, [], []⟩] []), .go, .handle none, .commit none]

theorem mixedPoll_commits_unseen_record :
    ∃ s, exec (step (newConsumer [])) (.start assigned) mixedPoll = some s ∧
      orders5 ∈ s.delivered ∧ orders5.offset < s.committed orders5.tp ∧
      s.calls = [(⟨"orders", 0, 6, [], []⟩, none)] := by
  exact ⟨_, rfl, by decide, by decide, rfl⟩

end Ghost.Kafka
