import Ghost.Kafka.Delivery

/-!
# The calls of the handler (kafka/consumer.go)

Which records the handler sees, in which order and how often, over a whole run of
`Start`: the records of a partition by their offsets, each until the first success
and no more often than the retries allow, and none that was not begun when the
context was cancelled. The order and the count hold as long as the client goes on in
each partition (`ValidPoll`): a partition that is taken away and given back is read
again from its committed offset, and a record whose commit failed is then handled again.
-/

namespace Ghost.Kafka
open Go Transition PartitionedLog

variable {c : ConsumerOptions} {s t : St} {a : Action}

/-- Of two calls on one partition the later one is on a later record, or it is a
retry. -/
def CallOrder (x y : Record × Option Error) : Prop :=
  x.1.tp = y.1.tp → x.1.offset < y.1.offset ∨ (x.1 = y.1 ∧ x.2.isSome = true)

def callsOn (calls : List (Record × Option Error)) (r : Record) : Nat := calls.countP fun p => p.1 == r

structure Called (c : ConsumerOptions) (s : St) : Prop where
  delivered : Ascending Record.tp Record.offset s.delivered
  order : s.calls.Pairwise CallOrder
  bound : ∀ r, (callsOn s.calls r : Int) ≤ c.maxRetries + 1

theorem start_called (hc : 0 < c.maxRetries) (assigned : Assignment) : Called c (.start assigned) := by
  refine ⟨List.Pairwise.nil, List.Pairwise.nil, fun r => ?_⟩
  show ((0 : Nat) : Int) ≤ c.maxRetries + 1
  omega

/- Offsets tell the delivered records of a partition apart. -/
theorem ascending_unique {rs : List Record} (h : Ascending Record.tp Record.offset rs) {q r : Record} (hq : q ∈ rs)
    (hr : r ∈ rs) (htp : q.tp = r.tp) (hoffset : q.offset = r.offset) : q = r := by
  by_contra hne
  rcases List.Pairwise.forall_of_forall_of_flip (R := fun a b => a = b ∨ (a.tp = b.tp → a.offset ≠ b.offset))
    (fun x _ => .inl rfl) (h.imp fun hlt => .inr fun hsame => Nat.ne_of_lt (hlt hsame))
    (h.imp fun hlt => .inr fun hsame => (Nat.ne_of_lt (hlt hsame.symm)).symm) hq hr with heq | hdiff
  · exact hne heq
  · exact hdiff htp hoffset

theorem Called.receive {records : List Record} {pc : Pc} (hs : Called c s) (ho : Ordered s)
    (hv : ValidPoll s records) : Called c { s.receive records with pc := pc } := by
  refine ⟨List.pairwise_append.mpr ⟨hs.delivered, hv.2, ?_⟩, hs.order, hs.bound⟩
  intro q hq r hr htp
  have hbelow := ho.below q hq
  have hfrom := hv.1 r hr
  rw [htp] at hbelow
  omega

theorem callsOn_eq_fails {calls : List (Record × Option Error)} {r : Record} (h : (r, none) ∉ calls) :
    callsOn calls r = fails calls r := by
  refine List.countP_congr ?_
  rintro ⟨q, e⟩ hmem
  cases e with
  | some e => simp
  | none =>
    have hne : q ≠ r := by
      rintro rfl
      exact h hmem
    simp [hne]

/- The handler is called on the record in hand. -/
theorem Called.call {r : Record} {n : Nat} {rest : List Record} (hs : Called c s) (ho : Ordered s) (hat : Attempts c s)
    (hpc : s.pc = .handler r n rest) (e : Option Error) (pc : Pc) :
    Called c { s with calls := s.calls ++ [(r, e)], pc := pc } := by
  have hcur := hat.current
  rw [hpc] at hcur
  obtain ⟨hfails, hle, hnone⟩ := hcur
  have hhand : r ∈ s.pc.pending := by
    rw [hpc]
    exact List.mem_cons_self
  refine ⟨hs.delivered, List.pairwise_append.mpr ⟨hs.order, List.pairwise_singleton .., ?_⟩, fun q => ?_⟩
  · rintro ⟨q, f⟩ hq y hy htp
    rw [List.mem_singleton.mp hy] at htp ⊢
    have hbehind := ho.behind q f hq r hhand htp
    by_cases hlt : q.offset < r.offset
    · exact .inl hlt
    · have hsame : q = r :=
        ascending_unique hs.delivered (ho.called q f hq) (ho.sub r hhand) htp (by omega)
      refine .inr ⟨hsame, ?_⟩
      cases f with
      | some f => rfl
      | none =>
        rw [hsame] at hq
        exact absurd hq hnone
  · have hcount : callsOn (s.calls ++ [(r, e)]) q = callsOn s.calls q + if r = q then 1 else 0 := by
      simp [callsOn, List.countP_append, List.countP_singleton]
    show (callsOn (s.calls ++ [(r, e)]) q : Int) ≤ c.maxRetries + 1
    rw [hcount]
    by_cases hq : r = q
    · subst hq
      rw [if_pos rfl, callsOn_eq_fails hnone, hfails]
      omega
    · rw [if_neg hq]
      exact hs.bound q

theorem step_called (h : Step c s a t) (ho : Ordered s) (hat : Attempts c s) (hs : Called c s) : Called c t := by
  cases h with
  | fetchError records errs hpc hv => exact hs.receive ho hv
  | fetch records hpc hv => exact hs.receive ho hv
  | handled r n rest hpc | retry r n rest e hpc | exhausted r n rest e hpc | dropped r n rest e hpc =>
    exact hs.call ho hat hpc _ _
  | _ => exact ⟨hs.delivered, hs.order, hs.bound⟩

/-- In every run of `Start` in which the client hands out the records of a partition in
order and never goes back, whatever fails: of two handler calls on one partition the
second is on a record with a larger offset, or on the same record after a failure;
and no record is handled more often than the retries allow. -/
theorem calls_inOrder (opts : List ConsumerOptions) (assigned : Assignment) (as : List Action) (s : St)
    (h : exec (step (newConsumer opts)) (.start assigned) as = some s) :
    s.calls.Pairwise CallOrder ∧ ∀ r, (callsOn s.calls r : Int) ≤ (newConsumer opts).maxRetries + 1 := by
  have hc := newConsumer_maxRetries opts
  have hstep : ∀ s b t, Ordered s ∧ Attempts (newConsumer opts) s ∧ Called (newConsumer opts) s →
      step (newConsumer opts) s b = some t →
        Ordered t ∧ Attempts (newConsumer opts) t ∧ Called (newConsumer opts) t := by
    rintro s b t ⟨ho, hat, hs⟩ hb
    have hcases := step_cases hc hb
    exact ⟨step_ordered hcases ho, step_attempts hcases ho hat hc, step_called hcases ho hat hs⟩
  obtain ⟨-, -, hcalled⟩ := exec_invariant hstep
    ⟨start_ordered assigned, start_attempts _ assigned, start_called hc assigned⟩ h
  exact ⟨hcalled.order, hcalled.bound⟩

-- three records of two partitions, the second one fails once
def threeRecords : List Action :=
  [.go, .poll (.fetched [⟨"orders", 0, 5, [], []⟩, ⟨"orders", 0, 6, [], []⟩, ⟨"orders", 1, 9, [], []⟩] []), .go,
   .handle none, .commit none, .go, .handle (some (.new "" "conflict")), .select true, .handle none, .commit none, .go,
   .handle none, .commit none]

theorem calls_inOrder_threeRecords :
    ∃ s, exec (step (newConsumer [])) (.start assigned) threeRecords = some s ∧ s.calls.length = 4 ∧
      s.calls.Pairwise CallOrder := by
  refine ⟨_, rfl, rfl, ?_⟩
  exact (calls_inOrder [] assigned threeRecords _ rfl).1

/-! ### After the context is cancelled -/

-- the record that is being handled, sent or committed
def Pc.current : Pc → Option Record
  | .backoff r _ _ | .handler r _ _ | .dlq r _ _ | .commit r _ => some r
  | .top | .poll | .records _ | .returned _ => none

/- Between a state with a cancelled context and a later one. -/
structure Winds (s t : St) : Prop where
  ctx : t.ctxDone = true
  current : t.pc.current = none ∨ t.pc.current = s.pc.current
  calls : ∃ new, t.calls = s.calls ++ new ∧ ∀ p ∈ new, s.pc.current = some p.1
  committed : ∀ tp, t.committed tp = s.committed tp ∨
    ∃ r, s.pc.current = some r ∧ tp = r.tp ∧ t.committed tp = r.offset + 1

section Winds

variable {u : St}

theorem Winds.ends {pc : Pc} (h : Winds s t) (hpc : pc.current = none ∨ pc.current = t.pc.current)
    (hcalls : u.calls = t.calls) (hcommitted : u.committed = t.committed) (hctx : u.ctxDone = t.ctxDone)
    (hu : u.pc = pc) : Winds s u := by
  refine ⟨hctx.trans h.ctx, ?_, by rw [hcalls]; exact h.calls, by rw [hcommitted]; exact h.committed⟩
  rw [hu]
  rcases hpc with hpc | hpc
  · exact .inl hpc
  · rw [hpc]
    exact h.current

/- What is in hand later was in hand at first. -/
theorem Winds.in_hand (h : Winds s t) {r : Record} (hr : t.pc.current = some r) : s.pc.current = some r := by
  rcases h.current with hnone | hsame
  · cases hnone.symm.trans hr
  · exact hsame.symm.trans hr

theorem Winds.called {r : Record} (h : Winds s t) (hr : t.pc.current = some r) (e : Option Error) {pc : Pc}
    (hpc : pc.current = some r) : Winds s { t with calls := t.calls ++ [(r, e)], pc := pc } := by
  have hhand := h.in_hand hr
  obtain ⟨new, hcalls, hnew⟩ := h.calls
  refine ⟨h.ctx, .inr (hpc.trans hhand.symm), ⟨new ++ [(r, e)], ?_, ?_⟩, h.committed⟩
  · show t.calls ++ [(r, e)] = _
    rw [hcalls, List.append_assoc]
  · intro p hp
    rcases List.mem_append.mp hp with hp | hp
    · exact hnew p hp
    · rw [List.mem_singleton.mp hp]
      exact hhand

theorem step_winds {b : Action} (hstep : Step c t b u) (h : Winds s t) : Winds s u := by
  cases hstep with
  | again hpc hctx | begin r rest hpc hctx => exact absurd (hctx.symm.trans h.ctx) (by decide)
  | cancel => exact ⟨rfl, h.current, h.calls, h.committed⟩
  | produced => exact ⟨h.ctx, h.current, h.calls, h.committed⟩
  | handled r n rest hpc | retry r n rest e hpc | exhausted r n rest e hpc | dropped r n rest e hpc =>
    exact h.called (by rw [hpc]; rfl) _ rfl
  | stop hpc | closed hpc | fetchError records errs hpc hv | fetch records hpc hv | done hpc | skip r rest hpc
  | cancelled r n rest hpc | commitError r rest e hpc => exact h.ends (.inl rfl) rfl rfl rfl rfl
  | elapsed r n rest hpc | send r e rest now out published hpc =>
    exact h.ends (.inr (by rw [hpc]; rfl)) rfl rfl rfl rfl
  | commit r rest hpc =>
    have hhand : s.pc.current = some r := h.in_hand (by rw [hpc]; rfl)
    refine ⟨h.ctx, .inl rfl, h.calls, fun tp => ?_⟩
    by_cases htp : tp = r.tp
    · subst htp
      exact .inr ⟨r, hhand, rfl, Function.update_self ..⟩
    · simp only [Function.update_of_ne htp]
      exact h.committed tp

end Winds

/-- Once the context is cancelled only the record in hand goes on: every handler call
made from then on is on it, and no other partition's offset is committed. -/
theorem cancelled_winds (opts : List ConsumerOptions) (as : List Action) (s t : St) (hctx : s.ctxDone = true)
    (hrun : exec (step (newConsumer opts)) s as = some t) :
    (∃ new, t.calls = s.calls ++ new ∧ ∀ p ∈ new, s.pc.current = some p.1) ∧
      ∀ tp, t.committed tp = s.committed tp ∨
        ∃ r, s.pc.current = some r ∧ tp = r.tp ∧ t.committed tp = r.offset + 1 := by
  have hstart : Winds s s := ⟨hctx, .inr rfl, ⟨[], (List.append_nil _).symm, List.forall_mem_nil _⟩, fun tp => .inl rfl⟩
  have hwinds : Winds s t := exec_invariant
    (fun _ _ _ h hstep => step_winds (step_cases (newConsumer_maxRetries opts) hstep) h) hstart hrun
  exact ⟨hwinds.calls, hwinds.committed⟩

-- the context is cancelled while the first of three records is handled
def cancelledEarly : List Action :=
  [.go, .poll (.fetched [⟨"orders", 0, 5, [], []⟩, ⟨"orders", 0, 6, [], []⟩, ⟨"orders", 1, 9, [], []⟩] []), .go, .cancel]

def windingUp : List Action := [.handle none, .commit none, .go, .go, .go, .go]

theorem cancelled_winds_early :
    ∃ s t, exec (step (newConsumer [])) (.start assigned) cancelledEarly = some s ∧
      exec (step (newConsumer [])) s windingUp = some t ∧ t.pc = .returned (some canceled) ∧
      s.calls = [] ∧ t.calls.length = 1 ∧
      ∃ new, t.calls = s.calls ++ new ∧ ∀ p ∈ new, s.pc.current = some p.1 := by
  refine ⟨_, _, rfl, rfl, rfl, rfl, rfl, ?_⟩
  exact (cancelled_winds [] windingUp _ _ rfl rfl).1

end Ghost.Kafka
