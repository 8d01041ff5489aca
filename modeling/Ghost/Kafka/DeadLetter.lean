import Ghost.Kafka.Delivery
import Mathlib.Data.List.Nodup

/-!
# Dead letters (kafka/consumer.go with kafka/producer.go)

`SendToDLQ` returns once the produce is started, and the offset is committed
next. Whether the copy reaches the broker is known only later, when the record
it replaces may already be committed.
-/

namespace Ghost.Kafka
open Go Transition PartitionedLog

/-! ### Reports of the producer -/

@[simp] theorem report_origin (err : Option Error) (d : Letter) : (d.report err).origin = d.origin := by
  unfold Letter.report
  split <;> rfl

@[simp] theorem report_record (err : Option Error) (d : Letter) : (d.report err).record = d.record := by
  unfold Letter.report
  split <;> rfl

theorem report_acked (err : Option Error) {d : Letter} (h : d.status = .acked) : d.report err = d := by
  simp [Letter.report, h]

theorem reported_from {letters : List Letter} {i : Nat} {err : Option Error} {d : Letter}
    (h : d ∈ letters.modify i (Letter.report err)) :
    ∃ d₀ ∈ letters, d.origin = d₀.origin ∧ d.record = d₀.record := by
  obtain ⟨j, hj, rfl⟩ := List.mem_iff_getElem.mp h
  have hj' : j < letters.length := by
    rw [List.length_modify] at hj
    exact hj
  refine ⟨letters[j], List.getElem_mem hj', ?_⟩
  rw [List.getElem_modify]
  split <;> simp

theorem reported_of_acked {letters : List Letter} (i : Nat) (err : Option Error) {d : Letter}
    (h : d ∈ letters) (hd : d.status = .acked) : d ∈ letters.modify i (Letter.report err) := by
  obtain ⟨j, hj, rfl⟩ := List.mem_iff_getElem.mp h
  have hj' : j < (letters.modify i (Letter.report err)).length := by
    rw [List.length_modify]
    exact hj
  apply List.mem_iff_getElem.mpr
  refine ⟨j, hj', ?_⟩
  rw [List.getElem_modify]
  split
  · exact report_acked err hd
  · rfl

theorem reported_origins (letters : List Letter) (i : Nat) (err : Option Error) :
    (letters.modify i (Letter.report err)).map (·.origin) = letters.map (·.origin) := by
  apply List.ext_getElem
  · simp
  · intro j h₁ h₂
    simp only [List.getElem_map, List.getElem_modify]
    split <;> simp

/-! ### Every exhausted record has one letter -/

-- The record in hand, while its fate is open.
def Pc.inHand : Pc → Option Record
  | .backoff r _ _ | .handler r _ _ | .dlq r _ _ => some r
  | _ => none

structure Letter.CopyOf (d : Letter) (r : Record) : Prop where
  origin : d.origin = r
  topic : d.record.topic = dlqTopic r.topic
  value : d.record.value = r.value
  key : d.record.key = r.key

structure Letters (c : ConsumerOptions) (s : St) : Prop where
  copies : ∀ d ∈ s.letters, d.CopyOf d.origin
  failed : ∀ d ∈ s.letters, (∃ e, (d.origin, some e) ∈ s.calls) ∧ (d.origin, none) ∉ s.calls
  unsent : ∀ r, s.pc.inHand = some r → ∀ d ∈ s.letters, d.origin ≠ r
  unique : (s.letters.map (·.origin)).Nodup
  sent : ∀ r, (fails s.calls r : Int) = c.maxRetries + 1 →
    (∃ e rest, s.pc = .dlq r e rest) ∨ ∃ d ∈ s.letters, d.origin = r

theorem start_letters {c : ConsumerOptions} (hc : 0 < c.maxRetries) (a : Assignment) :
    Letters c (.start a) := by
  refine ⟨by simp [St.start], by simp [St.start], by simp [St.start], List.Pairwise.nil, ?_⟩
  intro r hr
  simp only [St.start, fails, List.countP_nil] at hr
  omega

-- A move of the program counter that takes nothing new in hand.
theorem Letters.move {c : ConsumerOptions} {s : St} (hs : Letters c s) (pc : Pc)
    (hhand : ∀ r, pc.inHand = some r → s.pc.inHand = some r)
    (hdlq : ∀ r e rest, s.pc ≠ .dlq r e rest) : Letters c { s with pc := pc } := by
  refine ⟨hs.copies, hs.failed, fun r hr => hs.unsent r (hhand r hr), hs.unique, ?_⟩
  intro r hr
  rcases hs.sent r hr with ⟨e, rest, hpc⟩ | hd
  · exact absurd hpc (hdlq r e rest)
  · exact .inr hd

theorem Letters.call {c : ConsumerOptions} {s : St} (hs : Letters c s) {r : Record} {n : Nat}
    {rest : List Record} (hpc : s.pc = .handler r n rest) (e : Option Error) {pc : Pc}
    (hhand : pc.inHand = none ∨ pc.inHand = some r)
    (hsent : (fails (s.calls ++ [(r, e)]) r : Int) = c.maxRetries + 1 → ∃ e rest, pc = .dlq r e rest) :
    Letters c { s with calls := s.calls ++ [(r, e)], pc := pc } := by
  have hunsent := hs.unsent r (by rw [hpc]; rfl)
  refine ⟨hs.copies, ?_, ?_, hs.unique, ?_⟩
  · intro d hd
    obtain ⟨⟨f, hf⟩, hnil⟩ := hs.failed d hd
    refine ⟨⟨f, List.mem_append_left _ hf⟩, ?_⟩
    intro hmem
    rcases List.mem_append.mp hmem with hmem | hmem
    · exact hnil hmem
    · exact hunsent d hd (congrArg Prod.fst (List.mem_singleton.mp hmem))
  · intro q hq d hd
    rcases hhand with hnone | hsome
    · exact absurd (hnone.symm.trans hq) (by simp)
    · have hqr : r = q := Option.some.inj (hsome.symm.trans hq)
      rw [← hqr]
      exact hunsent d hd
  · intro q hq
    by_cases hqr : r = q
    · subst hqr
      exact .inl (hsent hq)
    · change (fails (s.calls ++ [(r, e)]) q : Int) = c.maxRetries + 1 at hq
      rw [fails_append_other s.calls e hqr] at hq
      rcases hs.sent q hq with ⟨f, rest', hdlq⟩ | hd
      · rw [hpc] at hdlq
        cases hdlq
      · exact .inr hd

theorem Letters.produced {c : ConsumerOptions} {s : St} (hs : Letters c s) (i : Nat)
    (err : Option Error) : Letters c { s with letters := s.letters.modify i (Letter.report err) } := by
  refine ⟨?_, ?_, ?_, ?_, ?_⟩
  · intro d hd
    obtain ⟨d₀, hd₀, horigin, hrecord⟩ := reported_from hd
    have hcopy := hs.copies d₀ hd₀
    rw [← horigin] at hcopy
    exact ⟨rfl, by rw [hrecord]; exact hcopy.topic, by rw [hrecord]; exact hcopy.value,
      by rw [hrecord]; exact hcopy.key⟩
  · intro d hd
    obtain ⟨d₀, hd₀, horigin, -⟩ := reported_from hd
    rw [horigin]
    exact hs.failed d₀ hd₀
  · intro r hr d hd
    obtain ⟨d₀, hd₀, horigin, -⟩ := reported_from hd
    rw [horigin]
    exact hs.unsent r hr d₀ hd₀
  · rw [reported_origins]
    exact hs.unique
  · intro r hr
    rcases hs.sent r hr with hpc | ⟨d, hd, horigin⟩
    · exact .inl hpc
    · have hmem : r ∈ (s.letters.modify i (Letter.report err)).map (·.origin) := by
        rw [reported_origins]
        exact List.mem_map.mpr ⟨d, hd, horigin⟩
      exact .inr (List.mem_map.mp hmem)

theorem Letters.send {c : ConsumerOptions} {s : St} (hs : Letters c s) (hat : Attempts c s)
    {r : Record} {e : Error} {rest : List Record} {now : String} {out : Outgoing}
    (hpc : s.pc = .dlq r e rest) (hout : sendToDLQ r.topic r.value r.key e now = .ok out)
    (hmax : 0 < c.maxRetries) (published : List (String × Error)) :
    Letters c { s with
      pc := .commit r rest
      letters := s.letters ++ [⟨r, out, .pending⟩]
      published := published } := by
  have hcur := hat.current
  rw [hpc] at hcur
  obtain ⟨hfails, hnil⟩ := hcur
  have hunsent := hs.unsent r (by rw [hpc]; rfl)
  obtain ⟨out', hout', htopic, hvalue, hkey⟩ := sendToDLQ_ok r.topic r.value r.key e now
  have heq : out = out' := Except.ok.inj (hout.symm.trans hout')
  subst heq
  refine ⟨?_, ?_, ?_, ?_, ?_⟩
  · intro d hd
    rcases List.mem_append.mp hd with hd | hd
    · exact hs.copies d hd
    · rw [List.mem_singleton.mp hd]
      exact ⟨rfl, htopic, hvalue, hkey⟩
  · intro d hd
    rcases List.mem_append.mp hd with hd | hd
    · exact hs.failed d hd
    · rw [List.mem_singleton.mp hd]
      refine ⟨?_, hnil⟩
      -- the count of failures is positive
      have hpos : 0 < fails s.calls r := by omega
      obtain ⟨⟨q, f⟩, hmem, hq⟩ := List.countP_pos_iff.mp hpos
      simp only [Bool.and_eq_true, beq_iff_eq] at hq
      obtain ⟨rfl, hsome⟩ := hq
      obtain ⟨f, rfl⟩ := Option.isSome_iff_exists.mp hsome
      exact ⟨f, hmem⟩
  · intro q hq
    exact absurd hq (by simp [Pc.inHand])
  · rw [List.map_append, List.map_singleton, ← List.concat_eq_append]
    apply List.Nodup.concat _ hs.unique
    intro hmem
    obtain ⟨d, hd, horigin⟩ := List.mem_map.mp hmem
    exact hunsent d hd horigin
  · intro q hq
    rcases hs.sent q hq with ⟨f, rest', hdlq⟩ | ⟨d, hd, horigin⟩
    · rw [hpc] at hdlq
      cases hdlq
      exact .inr ⟨_, List.mem_append_right _ (List.mem_singleton.mpr rfl), rfl⟩
    · exact .inr ⟨d, List.mem_append_left _ hd, horigin⟩

theorem step_letters {c : ConsumerOptions} {s t : St} {a : Action} (h : Step c s a t)
    (hat : Attempts c s) (hmax : 0 < c.maxRetries) (hdlq : c.dlqProducer = true)
    (hs : Letters c s) : Letters c t := by
  cases h with
  | cancel => exact ⟨hs.copies, hs.failed, hs.unsent, hs.unique, hs.sent⟩
  | produced i err => exact hs.produced i err
  | stop hpc | again hpc | closed hpc | done hpc | skip r rest hpc | cancelled r n rest hpc
  | commitError r rest e hpc | elapsed r n rest hpc =>
    apply hs.move
    · simp [hpc, Pc.inHand]
    · simp [hpc]
  | fetchError records errs hpc =>
    have hnext := hs.move .top (by simp [Pc.inHand]) (by simp [hpc])
    exact ⟨hnext.copies, hnext.failed, hnext.unsent, hnext.unique, hnext.sent⟩
  | fetch records hpc =>
    have hnext := hs.move (.records records) (by simp [Pc.inHand]) (by simp [hpc])
    exact ⟨hnext.copies, hnext.failed, hnext.unsent, hnext.unique, hnext.sent⟩
  | commit r rest hpc =>
    have hnext := hs.move (.records rest) (by simp [Pc.inHand]) (by simp [hpc])
    exact ⟨hnext.copies, hnext.failed, hnext.unsent, hnext.unique, hnext.sent⟩
  | begin r rest hpc =>
    -- the handler has not been called on it, so it has no letter
    have hfresh := hat.fresh r (by rw [hpc]; exact List.mem_cons_self ..)
    refine ⟨hs.copies, hs.failed, ?_, hs.unique, ?_⟩
    · intro q hq d hd horigin
      have hrq : r = q := Option.some.inj hq
      obtain ⟨⟨e, he⟩, -⟩ := hs.failed d hd
      rw [horigin, ← hrq] at he
      exact hfresh (some e) he
    · intro q hq
      rcases hs.sent q hq with ⟨e, rest', hpc'⟩ | hd
      · rw [hpc] at hpc'
        cases hpc'
      · exact .inr hd
  | handled r n rest hpc =>
    have hcur := hat.current
    rw [hpc] at hcur
    apply hs.call hpc none (.inl rfl)
    intro hfails
    rw [fails_append_nil, hcur.1] at hfails
    have hle := hcur.2.1
    omega
  | retry r n rest e hpc hn =>
    have hcur := hat.current
    rw [hpc] at hcur
    apply hs.call hpc (some e) (.inr rfl)
    intro hfails
    rw [fails_append_self, hcur.1] at hfails
    omega
  | exhausted r n rest e hpc => exact hs.call hpc (some e) (.inr rfl) fun _ => ⟨e, rest, rfl⟩
  | dropped r n rest e hpc hn hno => exact absurd (hdlq.symm.trans hno) (by simp)
  | send r e rest now out published hpc hout => exact hs.send hat hpc hout hmax published

/-! ### A committed record was handled or copied -/

def NothingLost (s : St) : Prop :=
  ∀ r ∈ s.delivered, r.offset < s.committed r.tp →
    (r, none) ∈ s.calls ∨ ∃ d ∈ s.letters, d.CopyOf r ∧ d.status = .acked

-- A commit succeeds only when every letter started for the partition is acknowledged.
def AckedBeforeCommit (s : St) : Action → Prop
  | .commit none => ∀ r rest, s.pc = .commit r rest →
      ∀ d ∈ s.letters, d.origin.tp = r.tp → d.status = .acked
  | a => CleanPoll s a

theorem AckedBeforeCommit.cleanPoll {s : St} {a : Action} (h : AckedBeforeCommit s a) :
    CleanPoll s a := by
  cases a with
  | commit err =>
    cases err with
    | none => trivial
    | some e => exact h
  | _ => exact h

theorem NothingLost.mono {s t : St} (hs : NothingLost s) (hdel : t.delivered = s.delivered)
    (hcom : t.committed = s.committed) (hcalls : ∀ p ∈ s.calls, p ∈ t.calls)
    (hletters : ∀ d ∈ s.letters, d.status = .acked → d ∈ t.letters) : NothingLost t := by
  intro r hr hlt
  rw [hdel] at hr
  rw [hcom] at hlt
  rcases hs r hr hlt with hnil | ⟨d, hd, hcopy, hacked⟩
  · exact .inl (hcalls _ hnil)
  · exact .inr ⟨d, hletters d hd hacked, hcopy, hacked⟩

theorem NothingLost.receive {s : St} (hs : NothingLost s) (ho : Ordered s) {records : List Record}
    (hv : ValidPoll s records) (pc : Pc) : NothingLost { s.receive records with pc := pc } := by
  intro r hr hlt
  rcases List.mem_append.mp hr with hr | hr
  · exact hs r hr hlt
  · have hle := hv.1 r hr
    have hcom := ho.committed r.tp
    change r.offset < s.committed r.tp at hlt
    omega

theorem NothingLost.commit {c : ConsumerOptions} {s : St} (hs : NothingLost s) (ho : Ordered s)
    (hat : Attempts c s) (hlet : Letters c s) (hcov : Covered c (fun _ => True) s) {r : Record} {rest : List Record}
    (hpc : s.pc = .commit r rest)
    (hacked : ∀ d ∈ s.letters, d.origin.tp = r.tp → d.status = .acked) :
    NothingLost { s with
      pc := .records rest
      committed := Function.update s.committed r.tp (r.offset + 1) } := by
  intro q hq hlt
  by_cases htp : q.tp = r.tp
  · -- whatever the commit newly covers is concluded
    rcases hcov.commit ho hat hpc q hq trivial with (hnil | hmax) | ⟨hle, -⟩
    · exact .inl hnil
    · rcases hlet.sent q hmax with ⟨e, rest', hdlq⟩ | ⟨d, hd, rfl⟩
      · rw [hpc] at hdlq
        cases hdlq
      · exact .inr ⟨d, hd, hlet.copies d hd, hacked d hd htp⟩
    · omega
  · apply hs q hq
    change q.offset < Function.update s.committed r.tp (r.offset + 1) q.tp at hlt
    rw [Function.update_of_ne htp] at hlt
    exact hlt

theorem step_nothingLost {c : ConsumerOptions} {s t : St} {a : Action} (h : Step c s a t)
    (ho : Ordered s) (hat : Attempts c s) (hlet : Letters c s) (hcov : Covered c (fun _ => True) s)
    (hok : AckedBeforeCommit s a) (hs : NothingLost s) : NothingLost t := by
  cases h with
  | produced i err => exact hs.mono rfl rfl (fun _ h => h) fun d hd hacked => reported_of_acked i err hd hacked
  | fetchError records errs hpc hv => exact hs.receive ho hv _
  | fetch records hpc hv => exact hs.receive ho hv _
  | handled r n rest hpc | retry r n rest e hpc | exhausted r n rest e hpc | dropped r n rest e hpc =>
    exact hs.mono rfl rfl (fun _ h => List.mem_append_left _ h) fun _ hd _ => hd
  | send r e rest now out published hpc =>
    exact hs.mono rfl rfl (fun _ h => h) fun _ hd _ => List.mem_append_left _ hd
  | commit r rest hpc => exact hs.commit ho hat hlet hcov hpc (hok r rest hpc)
  | _ => exact hs.mono rfl rfl (fun _ h => h) fun _ hd _ => hd

/-! ### Runs -/

section Runs

variable {c : ConsumerOptions} {a : Assignment} {as : List Action} {s : St}

theorem run_letters (hmax : 0 < c.maxRetries) (hdlq : c.dlqProducer = true)
    (h : exec (step c) (.start a) as = some s) : Letters c s := by
  have hstep : ∀ s b t, (Ordered s ∧ Attempts c s) ∧ Letters c s → step c s b = some t →
      (Ordered t ∧ Attempts c t) ∧ Letters c t := by
    intro s b t ⟨⟨ho, hat⟩, hs⟩ hb
    have hcases := step_cases hmax hb
    exact ⟨⟨step_ordered hcases ho, step_attempts hcases ho hat hmax⟩,
      step_letters hcases hat hmax hdlq hs⟩
  exact (exec_invariant hstep ⟨⟨start_ordered a, start_attempts c a⟩, start_letters hmax a⟩ h).2

structure Accounted (c : ConsumerOptions) (s : St) : Prop where
  ordered : Ordered s
  attempts : Attempts c s
  letters : Letters c s
  covered : Covered c (fun _ => True) s
  nothingLost : NothingLost s

theorem run_accounted (hmax : 0 < c.maxRetries) (hdlq : c.dlqProducer = true)
    (h : exec (step c) (.start a) as = some s)
    (hok : Meets (step c) AckedBeforeCommit (.start a) as) : Accounted c s := by
  have hstep : ∀ s b t, Accounted c s → AckedBeforeCommit s b → step c s b = some t → Accounted c t := by
    intro s b t hs hb ht
    have hcases := step_cases hmax ht
    exact ⟨step_ordered hcases hs.ordered, step_attempts hcases hs.ordered hs.attempts hmax,
      step_letters hcases hs.attempts hmax hdlq hs.letters,
      step_covered hcases hs.ordered hs.attempts (hb.cleanPoll.dropsNone _) hs.covered,
      step_nothingLost hcases hs.ordered hs.attempts hs.letters hs.covered hb hs.nothingLost⟩
  have hstart : Accounted c (.start a) :=
    ⟨start_ordered a, start_attempts c a, start_letters hmax a, start_covered c _ a,
      fun r hr => absurd hr List.not_mem_nil⟩
  exact exec_invariant_meets hstep hstart hok h

end Runs

-- A commit past a letter that is not acknowledged loses its record at once.
theorem commit_loses {c : ConsumerOptions} {s : St} (ho : Ordered s) (hlet : Letters c s) {r : Record}
    {rest : List Record} (hpc : s.pc = .commit r rest) {d : Letter} (hd : d ∈ s.letters)
    (htp : d.origin.tp = r.tp) (hstatus : d.status ≠ .acked) :
    ¬ NothingLost { s with
      pc := .records rest
      committed := Function.update s.committed r.tp (r.offset + 1) } := by
  intro hall
  obtain ⟨⟨e, he⟩, hnil⟩ := hlet.failed d hd
  have hle := ho.behind d.origin (some e) he r (by rw [hpc]; exact List.mem_cons_self ..) htp
  have hlt : d.origin.offset < Function.update s.committed r.tp (r.offset + 1) d.origin.tp := by
    rw [htp, Function.update_self]
    omega
  rcases hall d.origin (ho.called d.origin (some e) he) hlt with hmem | ⟨d', hd', hcopy, hacked⟩
  · exact hnil hmem
  · have hsame : d' = d := List.inj_on_of_nodup_map hlet.unique hd' hd hcopy.origin
    rw [hsame] at hacked
    exact hstatus hacked

/-- With the package's producer as dead-letter producer, a committed record was
handled or its copy acknowledged in every run in which a commit succeeds only
once the letters of its partition are acknowledged and no poll mixes records
with an error; one step outside that leads to a lost record. -/
theorem nothingLost_exactGuard (opts : List ConsumerOptions) (a : Assignment)
    (hdlq : (newConsumer opts).dlqProducer = true) :
    ExactGuard (step (newConsumer opts)) (.start a) AckedBeforeCommit NothingLost where
  holds as s h hok := (run_accounted (newConsumer_maxRetries opts) hdlq h hok).nothingLost
  fails := by
    intro as s b t h hb hbad
    have hmax := newConsumer_maxRetries opts
    obtain ⟨ho, -⟩ := run_ordered hmax h
    have hlet := run_letters hmax hdlq h
    cases step_cases hmax hb with
    | fetchError records errs hpc hv herr =>
      simp only [AckedBeforeCommit, CleanPoll, not_or] at hbad
      obtain ⟨-, hrec, hctx⟩ := hbad
      obtain ⟨r, rest, rfl⟩ := List.exists_cons_of_ne_nil hrec
      obtain ⟨more, u, hu, hdel, hlt, hcalls, hletters⟩ := dropped_is_skipped hmax ho hv
        (List.mem_cons_self ..) (Bool.eq_false_iff.mpr hctx)
      refine ⟨more, u, hu, fun hall => ?_⟩
      rcases hall r hdel hlt with hnil | ⟨d, hd, hcopy, -⟩
      · exact hcalls none hnil
      · rw [hletters] at hd
        obtain ⟨⟨e, he⟩, -⟩ := hlet.failed d hd
        rw [hcopy.origin] at he
        exact receive_fresh ho hv (List.mem_cons_self ..) (some e) he
    | fetch records hpc hv => exact absurd (.inl rfl) hbad
    | commit r rest hpc =>
      simp only [AckedBeforeCommit, not_forall] at hbad
      obtain ⟨q, rest', hpc', d, hd, htp, hstatus⟩ := hbad
      rw [hpc] at hpc'
      cases hpc'
      exact ⟨[], _, rfl, commit_loses ho hlet hpc hd htp hstatus⟩
    | _ => exact absurd trivial hbad

/-! ### The options of `StartConsumerWithDLQ` -/

def withDLQ : List ConsumerOptions := [⟨true, false, 3, 0⟩]

theorem withDLQ_exactGuard :
    (newConsumer withDLQ).dlqProducer = true ∧
    ExactGuard (step (newConsumer withDLQ)) (.start assigned) AckedBeforeCommit NothingLost :=
  ⟨rfl, nothingLost_exactGuard withDLQ assigned rfl⟩

-- Four failing attempts, a produce that the broker refuses, and the commit.
def refusedLetter : List Action :=
  [.go, .poll (.fetched [orders5] []), .go,
    .handle (some (.new "" "boom")), .select true, .handle (some (.new "" "boom")), .select true,
    .handle (some (.new "" "boom")), .select true, .handle (some (.new "" "boom")),
    .send "2024-01-01T00:00:00Z", .commit none, .produced 0 (some (.new "" "NOT_LEADER_FOR_PARTITION"))]

theorem refusedLetter_loses_record :
    ∃ s, exec (step (newConsumer withDLQ)) (.start assigned) refusedLetter = some s ∧
      orders5 ∈ s.delivered ∧ orders5.offset < s.committed orders5.tp ∧
      (orders5, none) ∉ s.calls ∧ s.letters.map (·.status) = [.failed] :=
  ⟨_, rfl, by decide, by decide, by decide, by decide⟩

end Ghost.Kafka
