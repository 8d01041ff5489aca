import Ghost.Rabbitmq.Publish

/-!
# Every run of the producers (rabbitmq/producer.go, rabbitmq/pool.go)

With publisher confirms every channel that reaches a producer is in confirm mode,
over all reconnects. Each message stands on one channel at one position, and the
broker handles it once at most; a call that returned nil on a channel in confirm
mode has the verdict on that position.
-/

namespace Ghost.Rabbitmq.Publish
open Go Amqp Transition Threads

variable {P : Type} {w : Setting P} {s t : Sys P} {l : Option Nat}

/-! ### The channels -/

-- A step touches a channel only in the ways the protocol knows.
theorem Step.chans (h : Step w s l t) (ch : Nat) : t.chans ch = s.chans ch ∨ PubChan.Move (s.chans ch) (t.chans ch) := by
  have hupdate : ∀ (x : Nat) (c : PubChan Sent), PubChan.Move (s.chans x) c →
      Function.update s.chans x c ch = s.chans ch ∨ PubChan.Move (s.chans ch) (Function.update s.chans x c ch) := by
    intro x c hc
    by_cases hx : ch = x
    · right
      rw [hx, Function.update_self]
      exact hc
    · left
      rw [Function.update_of_ne hx]
  cases h with
  | environment | client | fails | acked | called | exhausted | unmarshalled | begun | finished | failed =>
    exact .inl rfl
  | producer => exact .inl rfl
  | goroutine i g choice r hg hr hother =>
    show confirmed s g choice ch = _ ∨ PubChan.Move _ (confirmed s g choice ch)
    unfold confirmed
    split
    · exact hupdate _ _ .enable
    · exact .inl rfl
  | sent i x call stage shared => exact hupdate x _ (.publish _)
  | accept x y hnext => exact hupdate x _ (.handle y _ hnext)
  | chan x c shared hmove => exact hupdate x c hmove

structure Channels (w : Setting P) (s : Sys P) : Prop where
  sound : ∀ ch, (s.chans ch).Sound
  returning : ∀ ch, (s.chans ch).Returning
  genuine : ∀ ch, (s.chans ch).Genuine
  listening : ∀ ch, (s.chans ch).listening = w.config.onReturn

theorem newProducer_channels (w : Setting P) : Channels w (newProducer w) :=
  ⟨fun _ => PubChan.sound_new _, fun _ => PubChan.returning_new _, fun _ => PubChan.genuine_new _, fun _ => rfl⟩

theorem step_channels (h : Step w s l t) (hs : Channels w s) : Channels w t := by
  refine ⟨fun ch => ?_, fun ch => ?_, fun ch => ?_, fun ch => ?_⟩
  · rcases h.chans ch with hsame | hmove
    · rw [hsame]
      exact hs.sound ch
    · exact (hs.sound ch).move hmove
  · rcases h.chans ch with hsame | hmove
    · rw [hsame]
      exact hs.returning ch
    · exact (hs.returning ch).move (hs.sound ch) hmove
  · rcases h.chans ch with hsame | hmove
    · rw [hsame]
      exact hs.genuine ch
    · exact (hs.genuine ch).move hmove
  · rcases h.chans ch with hsame | hmove
    · rw [hsame]
      exact hs.listening ch
    · rw [hmove.listening]
      exact hs.listening ch

/-! ### Confirm mode

A channel is put into the pool by `fill`, after `ch.Confirm`, or by a producer
that took it from there. -/

section ConfirmMode

open Client

variable {c : Config} {p : Shared} {g : Goroutine} {choice : Choice} {r : Result} {ch : Nat}

-- the channel a goroutine may put into the pool
def carried : Goroutine → List Nat
  | .connect _ (.send _ _ _ ch) => [ch]
  | .producer (.holding ch) | .producer (.returnOpen ch) | .producer (.returnPool ch) | .producer (.returnSend ch) => [ch]
  | _ => []

def pooled (p : Shared) (gs : List Goroutine) : List Nat := p.channels ++ gs.flatMap carried

theorem mem_pooled {gs : List Goroutine} : ch ∈ pooled p gs ↔ ch ∈ p.channels ∨ ∃ g ∈ gs, ch ∈ carried g := by
  simp only [pooled, List.mem_append, List.mem_flatMap]

def confirms (g : Goroutine) (choice : Choice) (ch : Nat) : Prop :=
  ∃ loop pub cons k, g = .connect loop (.confirm pub cons k ch) ∧ choice = .go

theorem fill_carried {loop : Option Int} {pub cons k : Nat} (hconfirms : c.publisherConfirms = true)
    (h : stepConnect c p loop (.fill pub cons k) choice = some r) : pooled r.shared (r.next :: r.spawned) = p.channels := by
  cases choice with
  | go =>
    simp only [stepConnect] at h
    split at h
    · split at h
      · cases h
        simp [pooled, carried, Shared.openCh]
      · cases h
    · cases h
      simp [pooled, carried]
  | fail =>
    simp only [stepConnect] at h
    split at h
    · cases h
      simp [pooled, carried]
    · cases h
  | quit => cases h

theorem confirm_carried {loop : Option Int} {pub cons k x : Nat}
    (h : stepConnect c p loop (.confirm pub cons k x) choice = some r) (hch : ch ∈ pooled r.shared (r.next :: r.spawned)) :
    ch ∈ p.channels ∨ (ch = x ∧ choice = .go) := by
  cases choice with
  | go =>
    simp only [stepConnect] at h
    split at h
    · cases h
      have hmem : ch ∈ p.channels ∨ ch = x := by simpa [pooled, carried] using hch
      exact hmem.imp_right fun hx => ⟨hx, rfl⟩
    · cases h
  | fail =>
    cases h
    left
    simpa [pooled, carried, Shared.closeCh] using hch
  | quit => cases h

theorem drainRound_carried {again next : Goroutine} (hagain : carried again = []) (hnext : carried next = [])
    (hch : ch ∈ pooled (drainRound p again next).shared
      ((drainRound p again next).next :: (drainRound p again next).spawned)) : ch ∈ p.channels := by
  unfold drainRound at hch
  cases hbuf : p.channels with
  | nil =>
    simp only [hbuf, pooled, List.flatMap_cons, List.flatMap_nil, List.append_nil, List.nil_append] at hch
    split at hch
    · rw [hagain] at hch
      exact hch
    · rw [hnext] at hch
      exact hch
  | cons x rest =>
    simp only [hbuf, pooled, Shared.closeCh, List.flatMap_cons, List.flatMap_nil, List.append_nil, hagain] at hch
    exact List.mem_cons_of_mem x hch

theorem connectStep_carried {loop : Option Int} {pc : ConnectPc} (h : ConnectStep c p loop pc r)
    (hfill : ∀ pub cons k, pc ≠ .fill pub cons k) (hconfirm : ∀ pub cons k x, pc ≠ .confirm pub cons k x)
    (hch : ch ∈ pooled r.shared (r.next :: r.spawned)) : ch ∈ p.channels ∨ ch ∈ carried (.connect loop pc) := by
  cases h with
  | openConfirm pub cons k => exact absurd rfl (hfill pub cons k)
  | openSend pub cons k => exact absurd rfl (hfill pub cons k)
  | filled pub cons k => exact absurd rfl (hfill pub cons k)
  | openFailed pub cons k => exact absurd rfl (hfill pub cons k)
  | confirm pub cons k x => exact absurd rfl (hconfirm pub cons k x)
  | confirmFailed pub cons k x => exact absurd rfl (hconfirm pub cons k x)
  | drain pub cons => exact .inl (drainRound_carried rfl rfl hch)
  | send pub cons k x => simpa [pooled, carried] using hch
  | sendClosed => exact .inl (by simpa [pooled, carried] using hch)
  | aborted =>
    left
    cases loop with
    | none => simpa [pooled, failed, carried] using hch
    | some b => simpa [pooled, failed, carried] using hch
  | watchCons =>
    left
    cases loop with
    | none => simpa [pooled, connected, carried] using hch
    | some b => simpa [pooled, connected, carried] using hch
  | _ => exact .inl (by simpa [pooled, carried, Shared.dial, Shared.closeConn] using hch)

theorem producerStep_carried {pc : ProducerPc} (h : ProducerStep c p pc r)
    (hch : ch ∈ pooled r.shared (r.next :: r.spawned)) : ch ∈ p.channels ∨ ch ∈ carried (.producer pc) := by
  cases h with
  | get x rest hbuf =>
    left
    have hmem : ch ∈ rest ∨ ch = x := by simpa [pooled, carried] using hch
    rw [hbuf, List.mem_cons]
    exact hmem.symm
  | getClosed x rest hbuf =>
    left
    rw [hbuf]
    exact List.mem_cons_of_mem x (by simpa [pooled, carried] using hch)
  | discard | returnClosed | sendClosed | full => exact .inl (by simpa [pooled, carried, Shared.closeCh] using hch)
  | _ => simpa [pooled, carried] using hch

theorem closeStep_carried {pc : ClosePc} (h : CloseStep p pc r) (hch : ch ∈ pooled r.shared (r.next :: r.spawned)) :
    ch ∈ p.channels := by
  cases h with
  | drain x rest hbuf =>
    rw [hbuf]
    exact List.mem_cons_of_mem x (by simpa [pooled, carried, Shared.closeCh] using hch)
  | closePub =>
    cases hconn : p.publisherConn with
    | none => simpa [pooled, carried, hconn] using hch
    | some conn => simpa [pooled, carried, hconn, Shared.closeConn] using hch
  | closeCons =>
    cases hconn : p.consumerConn with
    | none => simpa [pooled, carried, hconn] using hch
    | some conn => simpa [pooled, carried, hconn, Shared.closeConn] using hch
  | _ => simpa [pooled, carried] using hch

theorem loopStep_carried (h : LoopStep c p g r) (hch : ch ∈ pooled r.shared (r.next :: r.spawned)) : ch ∈ p.channels := by
  cases h with
  | drain => exact drainRound_carried rfl rfl hch
  | _ => simpa [pooled, carried] using hch

theorem stepGoroutine_carried (hconfirms : c.publisherConfirms = true) (hr : stepGoroutine c p g choice = some r)
    (hch : ch ∈ pooled r.shared (r.next :: r.spawned)) : ch ∈ p.channels ∨ ch ∈ carried g ∨ confirms g choice ch := by
  have hstep := stepGoroutine_cases hr
  cases g with
  | connect loop pc =>
    cases pc with
    | fill pub cons k =>
      rw [fill_carried hconfirms hr] at hch
      exact .inl hch
    | confirm pub cons k x =>
      rcases confirm_carried hr hch with hold | ⟨rfl, hgo⟩
      · exact .inl hold
      · exact .inr (.inr ⟨loop, pub, cons, k, rfl, hgo⟩)
    | _ =>
      cases hstep with
      | connect h =>
        exact (connectStep_carried h (by intros; simp) (by intros; simp) hch).imp_right .inl
      | loop h => cases h
  | producer pc =>
    cases hstep with
    | producer h => exact (producerStep_carried h hch).imp_right .inl
    | loop h => cases h
  | close pc =>
    cases hstep with
    | close h => exact .inl (closeStep_carried h hch)
    | loop h => cases h
  | _ =>
    cases hstep with
    | loop h => exact .inl (loopStep_carried h hch)

end ConfirmMode

def ConfirmMode (w : Setting P) (s : Sys P) : Prop := w.config.publisherConfirms = true →
  ∀ ch ∈ pooled s.client.shared s.client.gs, (s.chans ch).confirming = true

theorem newProducer_confirmMode (w : Setting P) : ConfirmMode w (newProducer w) :=
  fun _ _ h => (by cases h)

theorem Step.confirming (h : Step w s l t) {ch : Nat} (hch : (s.chans ch).confirming = true) :
    (t.chans ch).confirming = true := by
  rcases h.chans ch with hsame | hmove
  · rw [hsame]
    exact hch
  · exact hmove.confirming hch

-- What one goroutine leaves in the pool or carries on.
theorem moved_pooled {i : Nat} {g : Client.Goroutine} {choice : Client.Choice} {r : Client.Result} {ch : Nat}
    (hconfirms : w.config.publisherConfirms = true) (hg : s.client.gs[i]? = some g)
    (hr : Client.stepGoroutine w.config.toConfig s.client.shared g choice = some r)
    (hch : ch ∈ pooled r.shared (advance s.client.gs i r.next r.spawned)) :
    ch ∈ pooled s.client.shared s.client.gs ∨ confirms g choice ch := by
  have hback : ∀ x ∈ s.client.gs, ch ∈ carried x → ch ∈ pooled s.client.shared s.client.gs :=
    fun x hx hcarried => mem_pooled.mpr (.inr ⟨x, hx, hcarried⟩)
  have hown : ch ∈ pooled r.shared (r.next :: r.spawned) → ch ∈ pooled s.client.shared s.client.gs ∨ confirms g choice ch := by
    intro hmem
    rcases stepGoroutine_carried hconfirms hr hmem with hbuf | hcarried | hnow
    · exact .inl (mem_pooled.mpr (.inl hbuf))
    · exact .inl (hback g (List.mem_of_getElem? hg) hcarried)
    · exact .inr hnow
  rcases mem_pooled.mp hch with hbuf | ⟨x, hx, hcarried⟩
  · exact hown (mem_pooled.mpr (.inl hbuf))
  · rcases mem_advance hx with ⟨j, -, hj⟩ | rfl | hnew
    · exact .inl (hback x (List.mem_of_getElem? hj) hcarried)
    · exact hown (mem_pooled.mpr (.inr ⟨_, List.mem_cons_self, hcarried⟩))
    · exact hown (mem_pooled.mpr (.inr ⟨x, List.mem_cons_of_mem _ hnew, hcarried⟩))

theorem pooled_append {p : Client.Shared} {gs : List Client.Goroutine} {g : Client.Goroutine} {ch : Nat}
    (hg : carried g = []) (hch : ch ∈ pooled p (gs ++ [g])) : ch ∈ pooled p gs := by
  simp only [pooled, List.flatMap_append, List.flatMap_cons, List.flatMap_nil, hg, List.append_nil] at hch
  exact hch

theorem step_confirmMode (h : Step w s l t) (hs : ConfirmMode w s) : ConfirmMode w t := by
  intro hconfirms ch hch
  have hkeep : ch ∈ pooled s.client.shared s.client.gs → (t.chans ch).confirming = true :=
    fun hold => h.confirming (hs hconfirms ch hold)
  cases h with
  | environment | fails | acked | accept | called | exhausted | unmarshalled | finished | failed => exact hkeep hch
  | client a u hu hgs hbuf =>
    apply hkeep
    simp only [pooled, hbuf] at hch ⊢
    rcases hgs with hgs | hgs
    · rw [hgs] at hch
      exact hch
    · rw [hgs] at hch
      exact pooled_append rfl hch
  | goroutine i g choice r hg hr hother =>
    rcases moved_pooled hconfirms hg hr hch with hold | ⟨loop, pub, cons, k, rfl, rfl⟩
    · exact hkeep hold
    · simp [moved, confirmed]
  | producer i pc choice r call call' hg hr hcall hafter =>
    rcases moved_pooled hconfirms hg hr hch with hold | ⟨loop, pub, cons, k, hnot, -⟩
    · exact hkeep hold
    · cases hnot
  | sent i x call stage shared hg hcall hstage hshut =>
    apply hkeep
    simp only [pooled, ← hshut.channels]
    exact hch
  | chan x c shared hmove hsent hrouted hshut =>
    apply hkeep
    simp only [pooled, ← hshut.channels]
    exact hch
  | begun j caller payload carrier body u hj hidle hopen hpayload hbody hu =>
    apply hkeep
    cases Client.step_sysStep hu with
    | publish hready => exact pooled_append rfl hch

/-! ### Where the messages are -/

/- Each message stands where its call says, and the broker has handled those at the
front. -/
structure Located (w : Setting P) (s : Sys P) : Prop where
  begun : ∀ i call, s.calls i = some call → i < s.client.gs.length
  unsent : ∀ i call, s.calls i = some call → call.stage = .getting → call.sentAt = none
  placed : ∀ i call ch p, s.calls i = some call → call.sentAt = some (ch, p) →
    (s.chans ch).sent[p]? = some (call.publication w.config i)
  owned : ∀ ch p x, (s.chans ch).sent[p]? = some x →
    ∃ call, s.calls x.message.call = some call ∧ call.sentAt = some (ch, p)
  accepted : ∀ i, i ∈ s.accepted ↔ ∃ call ch p, s.calls i = some call ∧ call.sentAt = some (ch, p) ∧
    p < (s.chans ch).routed.length
  once : s.accepted.Nodup
  answered : w.config.publisherConfirms = true → ∀ i call, s.calls i = some call → call.stage = .over none →
    ∃ ch p, call.sentAt = some (ch, p) ∧ (s.chans ch).verdict (p + 1) = some true

theorem newProducer_located (w : Setting P) : Located w (newProducer w) where
  begun _ _ h := (by cases h)
  unsent _ _ h := (by cases h)
  placed _ _ _ _ h := (by cases h)
  owned _ _ _ h := (by cases h)
  accepted i := by
    constructor
    · intro h
      cases h
    · rintro ⟨call, ch, p, h, -⟩
      cases h
  once := List.nodup_nil
  answered _ _ _ h := (by cases h)

theorem Located.frame (hs : Located w s) (hlen : s.client.gs.length ≤ t.client.gs.length) (hcalls : t.calls = s.calls)
    (hsent : ∀ ch, (t.chans ch).sent = (s.chans ch).sent) (hrouted : ∀ ch, (t.chans ch).routed = (s.chans ch).routed)
    (hverdict : ∀ ch tag, (s.chans ch).verdict tag = some true → (t.chans ch).verdict tag = some true)
    (hacc : t.accepted = s.accepted) : Located w t := by
  refine ⟨?_, ?_, ?_, ?_, ?_, ?_, ?_⟩
  · intro i call hi
    rw [hcalls] at hi
    exact Nat.lt_of_lt_of_le (hs.begun i call hi) hlen
  · intro i call hi
    rw [hcalls] at hi
    exact hs.unsent i call hi
  · intro i call ch p hi
    rw [hcalls] at hi
    rw [hsent]
    exact hs.placed i call ch p hi
  · intro ch p x hx
    rw [hsent] at hx
    rw [hcalls]
    exact hs.owned ch p x hx
  · intro i
    simp only [hacc, hcalls, hrouted]
    exact hs.accepted i
  · rw [hacc]
    exact hs.once
  · intro hconfirms i call hi hstage
    rw [hcalls] at hi
    obtain ⟨ch, p, hat, hv⟩ := hs.answered hconfirms i call hi hstage
    exact ⟨ch, p, hat, hverdict ch (p + 1) hv⟩

-- A call moves on; its message stays what and where it is.
theorem Located.setCall (hs : Located w s) {i : Nat} {call call' : Call} (hcall : s.calls i = some call)
    (hsame : call'.publication w.config i = call.publication w.config i) (hat : call'.sentAt = call.sentAt)
    (hget : call'.stage = .getting → call.stage = .getting)
    (hnil : w.config.publisherConfirms = true → call'.stage = .over none →
      ∃ ch p, call.sentAt = some (ch, p) ∧ (s.chans ch).verdict (p + 1) = some true) :
    Located w (s.setCall i call') := by
  have hself : (s.setCall i call').calls i = some call' := Function.update_self ..
  have hne : ∀ k, k ≠ i → (s.setCall i call').calls k = s.calls k := fun k hk => Function.update_of_ne hk ..
  -- every call has its message where it had it
  have hfound : ∀ k ch p, (∃ x, (s.setCall i call').calls k = some x ∧ x.sentAt = some (ch, p)) ↔
      ∃ x, s.calls k = some x ∧ x.sentAt = some (ch, p) := by
    intro k ch p
    by_cases hki : k = i
    · rw [hki, hself, hcall]
      simp only [Option.some.injEq, exists_eq_left', hat]
    · rw [hne k hki]
  refine ⟨?_, ?_, ?_, ?_, ?_, hs.once, ?_⟩
  · intro k x hk
    rcases update_some_cases hk with ⟨rfl, -⟩ | ⟨-, hold⟩
    · exact hs.begun k call hcall
    · exact hs.begun k x hold
  · intro k x hk hstage
    rcases update_some_cases hk with ⟨rfl, rfl⟩ | ⟨-, hold⟩
    · rw [hat]
      exact hs.unsent k call hcall (hget hstage)
    · exact hs.unsent k x hold hstage
  · intro k x ch p hk hx
    rcases update_some_cases hk with ⟨rfl, rfl⟩ | ⟨-, hold⟩
    · rw [hat] at hx
      rw [hsame]
      exact hs.placed k call ch p hcall hx
    · exact hs.placed k x ch p hold hx
  · intro ch p x hx
    exact (hfound _ ch p).mpr (hs.owned ch p x hx)
  · intro k
    refine (hs.accepted k).trans ⟨?_, ?_⟩
    · rintro ⟨x, ch, p, hk, hx, hp⟩
      obtain ⟨y, hy, hyat⟩ := (hfound k ch p).mpr ⟨x, hk, hx⟩
      exact ⟨y, ch, p, hy, hyat, hp⟩
    · rintro ⟨x, ch, p, hk, hx, hp⟩
      obtain ⟨y, hy, hyat⟩ := (hfound k ch p).mp ⟨x, hk, hx⟩
      exact ⟨y, ch, p, hy, hyat, hp⟩
  · intro hconfirms k x hk hstage
    rcases update_some_cases hk with ⟨rfl, rfl⟩ | ⟨-, hold⟩
    · obtain ⟨ch, p, hx, hv⟩ := hnil hconfirms hstage
      exact ⟨ch, p, hat.trans hx, hv⟩
    · exact hs.answered hconfirms k x hold hstage

section Sent

variable {i ch : Nat} {call : Call} {stage : Stage} {shared : Client.Shared}

theorem sent_chans (x p : Nat) {y : Publication Sent}
    (h : (((sent w s i ch call stage).chans x).sent)[p]? = some y) :
    ((s.chans x).sent)[p]? = some y ∨
      (x = ch ∧ p = (s.chans ch).sent.length ∧ y = call.publication w.config i) := by
  by_cases hx : x = ch
  · subst hx
    have hlist : ((sent w s i x call stage).chans x).sent = (s.chans x).sent ++ [call.publication w.config i] := by
      simp [Publish.sent, Sys.setChan, PubChan.publish]
    rw [hlist] at h
    rcases Nat.lt_trichotomy p (s.chans x).sent.length with hlt | heq | hgt
    · left
      rw [List.getElem?_append_left hlt] at h
      exact h
    · right
      rw [heq, List.getElem?_concat_length] at h
      exact ⟨rfl, heq, (Option.some.inj h).symm⟩
    · rw [List.getElem?_eq_none (by simp; omega)] at h
      cases h
  · left
    have hsame : (sent w s i ch call stage).chans x = s.chans x := Function.update_of_ne hx ..
    rw [hsame] at h
    exact h

theorem sent_routed (x : Nat) : ((sent w s i ch call stage).chans x).routed = (s.chans x).routed := by
  by_cases hx : x = ch
  · subst hx
    simp [Publish.sent, Sys.setChan, PubChan.publish]
  · have hsame : (sent w s i ch call stage).chans x = s.chans x := Function.update_of_ne hx ..
    rw [hsame]

theorem sent_verdict (x : Nat) : ((sent w s i ch call stage).chans x).verdict = (s.chans x).verdict := by
  by_cases hx : x = ch
  · subst hx
    simp [Publish.sent, Sys.setChan, PubChan.publish]
  · have hsame : (sent w s i ch call stage).chans x = s.chans x := Function.update_of_ne hx ..
    rw [hsame]

theorem sent_grows (x : Nat) : (s.chans x).sent <+: ((sent w s i ch call stage).chans x).sent := by
  by_cases hx : x = ch
  · subst hx
    simp [Publish.sent, Sys.setChan, PubChan.publish]
  · have hsame : (sent w s i ch call stage).chans x = s.chans x := Function.update_of_ne hx ..
    rw [hsame]

theorem Located.sent (hs : Located w s) (hc : Channels w s) (hcall : s.calls i = some call)
    (hstage : call.stage = .getting) (hget : stage ≠ .getting)
    (hnil : w.config.publisherConfirms = true → stage ≠ .over none) :
    Located w (Publish.sent w s i ch call stage) := by
  have hself : (Publish.sent w s i ch call stage).calls i =
      some { call with sentAt := some (ch, (s.chans ch).sent.length), stage := stage } := Function.update_self ..
  have hne : ∀ k, k ≠ i → (Publish.sent w s i ch call stage).calls k = s.calls k :=
    fun k hk => Function.update_of_ne hk ..
  have hnone : call.sentAt = none := hs.unsent i call hcall hstage
  -- no message of this call is out, none is handled
  have hnot : i ∉ s.accepted := by
    intro hmem
    obtain ⟨x, c, p, hx, hat, -⟩ := (hs.accepted i).mp hmem
    rw [hcall] at hx
    cases hx
    rw [hnone] at hat
    cases hat
  refine ⟨?_, ?_, ?_, ?_, ?_, hs.once, ?_⟩
  · intro k x hk
    rcases update_some_cases hk with ⟨rfl, -⟩ | ⟨-, hold⟩
    · exact hs.begun k call hcall
    · exact hs.begun k x hold
  · intro k x hk hx
    rcases update_some_cases hk with ⟨-, rfl⟩ | ⟨-, hold⟩
    · exact absurd hx hget
    · exact hs.unsent k x hold hx
  · intro k x c p hk hx
    rcases update_some_cases hk with ⟨rfl, rfl⟩ | ⟨-, hold⟩
    · cases hx
      simp [Publish.sent, Sys.setChan, PubChan.publish, Call.publication]
    · have hfront : (s.chans c).sent <+: ((Publish.sent w s i ch call stage).chans c).sent := sent_grows c
      obtain ⟨more, hmore⟩ := hfront
      have hplaced := hs.placed k x c p hold hx
      rw [← hmore, List.getElem?_append_left (List.getElem?_eq_some_iff.mp hplaced).1]
      exact hplaced
  · intro c p y hy
    rcases sent_chans c p hy with hold | ⟨rfl, rfl, rfl⟩
    · obtain ⟨x, hx, hat⟩ := hs.owned c p y hold
      refine ⟨x, ?_, hat⟩
      rw [hne]
      · exact hx
      · intro hki
        rw [hki, hcall] at hx
        cases hx
        rw [hnone] at hat
        cases hat
    · exact ⟨_, hself, rfl⟩
  · intro k
    constructor
    · intro hmem
      obtain ⟨x, c, p, hx, hat, hp⟩ := (hs.accepted k).mp hmem
      have hki : k ≠ i := by
        rintro rfl
        exact hnot hmem
      refine ⟨x, c, p, ?_, hat, ?_⟩
      · rw [hne k hki]
        exact hx
      · rw [sent_routed]
        exact hp
    · rintro ⟨x, c, p, hx, hat, hp⟩
      rw [sent_routed] at hp
      rcases update_some_cases hx with ⟨-, rfl⟩ | ⟨-, hold⟩
      · cases hat
        have hle := (hc.sound ch).handled
        omega
      · exact (hs.accepted k).mpr ⟨x, c, p, hold, hat, hp⟩
  · intro hconfirms k x hk hx
    rcases update_some_cases hk with ⟨-, rfl⟩ | ⟨-, hold⟩
    · exact absurd hx (hnil hconfirms)
    · obtain ⟨c, p, hat, hv⟩ := hs.answered hconfirms k x hold hx
      refine ⟨c, p, hat, ?_⟩
      rw [sent_verdict]
      exact hv

end Sent

theorem Located.accept (hs : Located w s) {ch : Nat} {x : Publication Sent} (hnext : (s.chans ch).next = some x)
    (queues : List String) :
    Located w { s.setChan ch ((s.chans ch).handle x queues) with accepted := s.accepted ++ [x.message.call] } := by
  obtain ⟨u, hu⟩ : ∃ u, u = { s.setChan ch ((s.chans ch).handle x queues) with
    accepted := s.accepted ++ [x.message.call] } := ⟨_, rfl⟩
  have hcalls : u.calls = s.calls := by rw [hu]; rfl
  have hchan : u.chans ch = (s.chans ch).handle x queues := by rw [hu]; exact Function.update_self ..
  have hother : ∀ c, c ≠ ch → u.chans c = s.chans c := by
    intro c hc
    rw [hu]
    exact Function.update_of_ne hc ..
  have hsent : ∀ c, (u.chans c).sent = (s.chans c).sent := by
    intro c
    by_cases hc : c = ch
    · rw [hc, hchan]
      rfl
    · rw [hother c hc]
  have hverdict : ∀ c, (u.chans c).verdict = (s.chans c).verdict := by
    intro c
    by_cases hc : c = ch
    · rw [hc, hchan]
      rfl
    · rw [hother c hc]
  -- one more is handled, at the end of the channel
  have hrouted : ∀ c p, p < (u.chans c).routed.length ↔
      p < (s.chans c).routed.length ∨ (c = ch ∧ p = (s.chans ch).routed.length) := by
    intro c p
    by_cases hc : c = ch
    · rw [hc, hchan]
      simp only [PubChan.handle, List.length_append, List.length_singleton, true_and]
      omega
    · rw [hother c hc]
      simp only [hc, false_and, or_false]
  obtain ⟨owner, howner, hat⟩ := hs.owned ch _ x hnext
  have hnew : x.message.call ∉ s.accepted := by
    intro hmem
    obtain ⟨y, c, p, hy, hyat, hp⟩ := (hs.accepted _).mp hmem
    rw [howner] at hy
    cases hy
    rw [hat] at hyat
    cases hyat
    exact Nat.lt_irrefl _ hp
  have hacc : u.accepted = s.accepted ++ [x.message.call] := by rw [hu]
  rw [← hu]
  refine ⟨?_, ?_, ?_, ?_, ?_, ?_, ?_⟩
  · intro k y hk
    rw [hcalls] at hk
    rw [hu]
    exact hs.begun k y hk
  · intro k y hk
    rw [hcalls] at hk
    exact hs.unsent k y hk
  · intro k y c p hk
    rw [hcalls] at hk
    rw [hsent]
    exact hs.placed k y c p hk
  · intro c p y hy
    rw [hsent] at hy
    rw [hcalls]
    exact hs.owned c p y hy
  · intro k
    rw [hacc, List.mem_append, List.mem_singleton, hcalls]
    constructor
    · rintro (hold | rfl)
      · obtain ⟨y, c, p, hy, hyat, hp⟩ := (hs.accepted k).mp hold
        exact ⟨y, c, p, hy, hyat, (hrouted c p).mpr (.inl hp)⟩
      · exact ⟨owner, ch, _, howner, hat, (hrouted ch _).mpr (.inr ⟨rfl, rfl⟩)⟩
    · rintro ⟨y, c, p, hy, hyat, hp⟩
      rcases (hrouted c p).mp hp with hp | ⟨rfl, rfl⟩
      · exact .inl ((hs.accepted k).mpr ⟨y, c, p, hy, hyat, hp⟩)
      · right
        have hplaced := hs.placed k y c _ hy hyat
        rw [PubChan.next] at hnext
        rw [hnext] at hplaced
        rw [Option.some.inj hplaced]
        rfl
  · rw [hacc]
    refine List.nodup_append.mpr ⟨hs.once, by simp, ?_⟩
    intro a ha b hb
    rw [List.mem_singleton.mp hb]
    rintro rfl
    exact hnew ha
  · intro hconfirms k y hk hy
    rw [hcalls] at hk
    obtain ⟨c, p, hyat, hv⟩ := hs.answered hconfirms k y hk hy
    refine ⟨c, p, hyat, ?_⟩
    rw [hverdict]
    exact hv

theorem Located.fresh (hs : Located w s) : s.calls s.client.gs.length = none := by
  cases hfresh : s.calls s.client.gs.length with
  | none => rfl
  | some call => exact absurd (hs.begun _ call hfresh) (Nat.lt_irrefl _)

theorem Located.start (hs : Located w s) (j : Nat) (caller : Caller P) (carrier : Carrier) (body : List UInt8)
    {u : Client.Sys} (hu : s.client.gs.length < u.gs.length) : Located w (Publish.begun s j caller carrier body u) := by
  have hne : ∀ k, k ≠ s.client.gs.length → (Publish.begun s j caller carrier body u).calls k = s.calls k :=
    fun k hk => Function.update_of_ne hk ..
  have hold : ∀ k x, s.calls k = some x → (Publish.begun s j caller carrier body u).calls k = some x := by
    intro k x hk
    rw [hne]
    · exact hk
    · exact Nat.ne_of_lt (hs.begun k x hk)
  refine ⟨?_, ?_, ?_, ?_, ?_, hs.once, ?_⟩
  · intro k x hk
    rcases update_some_cases hk with ⟨rfl, -⟩ | ⟨-, hk⟩
    · exact hu
    · exact Nat.lt_trans (hs.begun k x hk) hu
  · intro k x hk hx
    rcases update_some_cases hk with ⟨-, rfl⟩ | ⟨-, hk⟩
    · rfl
    · exact hs.unsent k x hk hx
  · intro k x c p hk hx
    rcases update_some_cases hk with ⟨-, rfl⟩ | ⟨-, hk⟩
    · cases hx
    · exact hs.placed k x c p hk hx
  · intro c p y hy
    obtain ⟨x, hx, hat⟩ := hs.owned c p y hy
    exact ⟨x, hold _ x hx, hat⟩
  · intro k
    refine (hs.accepted k).trans ⟨?_, ?_⟩
    · rintro ⟨x, c, p, hx, hat, hp⟩
      exact ⟨x, c, p, hold k x hx, hat, hp⟩
    · rintro ⟨x, c, p, hx, hat, hp⟩
      rcases update_some_cases hx with ⟨-, rfl⟩ | ⟨-, hx⟩
      · cases hat
      · exact ⟨x, c, p, hx, hat, hp⟩
  · intro hconfirms k x hk hx
    rcases update_some_cases hk with ⟨-, rfl⟩ | ⟨-, hk⟩
    · cases hx
    · exact hs.answered hconfirms k x hk hx

-- A step of its goroutine lets a call fail, or leaves its stage alone.
theorem Call.after_cases {call call' : Call} {ctxErr : Option Error} {next : Client.Goroutine} {pc : Client.ProducerPc}
    {choice : Client.Choice} (h : call.after ctxErr next pc choice = some call') :
    call' = call ∨ call' = { call with retried := true } ∨ ∃ e, call' = call.fail e := by
  have hite : ∀ (p : Prop) [Decidable p] (e : Error), some (if p then call.fail e else call) = some call' →
      call' = call ∨ call' = { call with retried := true } ∨ ∃ e, call' = call.fail e := by
    intro p _ e h
    by_cases hp : p
    · rw [if_pos hp] at h
      cases h
      exact .inr (.inr ⟨e, rfl⟩)
    · rw [if_neg hp] at h
      cases h
      exact .inl rfl
  have hmap : ∀ f : Error → Error, (ctxErr.map fun e => call.fail (f e)) = some call' →
      call' = call ∨ call' = { call with retried := true } ∨ ∃ e, call' = call.fail e := by
    intro f h
    obtain ⟨e, -, rfl⟩ := Option.map_eq_some_iff.mp h
    exact .inr (.inr ⟨f e, rfl⟩)
  cases pc with
  | check => exact hite _ _ h
  | wait =>
    cases choice with
    | go =>
      cases h
      exact .inr (.inl rfl)
    | fail | quit => exact hmap id h
  | poolCheck => exact hite _ _ h
  | receive =>
    cases choice with
    | go => exact hite _ _ h
    | fail | quit => exact hmap _ h
  | holding =>
    simp only [Call.after] at h
    split at h
    · cases h
      exact .inl rfl
    · cases h
  | returnOpen | returnPool | returnSend =>
    cases h
    exact .inl rfl

theorem confirmed_field {α : Type} (f : PubChan Sent → α) (hf : ∀ c, f { c with confirming := true } = f c)
    (g : Client.Goroutine) (choice : Client.Choice) (ch : Nat) : f (confirmed s g choice ch) = f (s.chans ch) := by
  unfold confirmed
  split
  · rename_i x
    by_cases hx : ch = x
    · rw [hx, Function.update_self, hf]
    · rw [Function.update_of_ne hx]
  · rfl

theorem Located.moved (hs : Located w s) (i : Nat) (g : Client.Goroutine) (choice : Client.Choice) (r : Client.Result) :
    Located w (Publish.moved s i g choice r) := by
  refine hs.frame ?_ rfl ?_ ?_ ?_ rfl
  · simp [Publish.moved, advance]
  · exact fun ch => confirmed_field (·.sent) (fun _ => rfl) g choice ch
  · exact fun ch => confirmed_field (·.routed) (fun _ => rfl) g choice ch
  · intro ch tag hv
    have hsame : ((Publish.moved s i g choice r).chans ch).verdict = (s.chans ch).verdict :=
      confirmed_field (·.verdict) (fun _ => rfl) g choice ch
    rw [hsame]
    exact hv

theorem Located.fails (hs : Located w s) {i : Nat} {call : Call} (hcall : s.calls i = some call) (e : Error) :
    Located w (s.setCall i (call.fail e)) :=
  hs.setCall hcall rfl rfl (fun h => (by cases h)) (fun _ h => (by cases h))

theorem Located.quiet (hs : Located w s) (hlen : s.client.gs.length ≤ t.client.gs.length) (hcalls : t.calls = s.calls)
    (hchans : t.chans = s.chans) (hacc : t.accepted = s.accepted) : Located w t := by
  refine hs.frame hlen hcalls ?_ ?_ ?_ hacc
  · intro ch
    rw [hchans]
  · intro ch
    rw [hchans]
  · intro ch tag hv
    rw [hchans]
    exact hv

theorem step_located (h : Step w s l t) (hc : Channels w s) (hm : ConfirmMode w s) (hs : Located w s) : Located w t := by
  cases h with
  | environment | called | exhausted | unmarshalled | finished | failed => exact hs.quiet (Nat.le_refl _) rfl rfl rfl
  | client a u hu hgs hbuf =>
    refine hs.quiet ?_ rfl rfl rfl
    rcases hgs with hgs | hgs
    · rw [hgs]
    · simp [hgs]
  | goroutine i g choice r hg hr hother => exact hs.moved i g choice r
  | producer i pc choice r call call' hg hr hcall hafter =>
    have hmoved := hs.moved i (.producer pc) choice r
    rcases Call.after_cases hafter with rfl | rfl | ⟨e, rfl⟩
    · exact hmoved.setCall hcall rfl rfl id fun hconfirms hx => hmoved.answered hconfirms i _ hcall hx
    · exact hmoved.setCall hcall rfl rfl id fun hconfirms hx => hmoved.answered hconfirms i _ hcall hx
    · exact hmoved.fails hcall e
  | fails i call e hcall => exact hs.fails hcall e
  | acked i call ch p hcall hstage hat hv =>
    exact hs.setCall hcall rfl rfl (fun hx => (by cases hx)) fun _ _ => ⟨ch, p, hat, hv⟩
  | sent i ch call stage shared hg hcall hstage hshut hnil hget =>
    have hheld : ch ∈ pooled s.client.shared s.client.gs :=
      mem_pooled.mpr (.inr ⟨_, List.mem_of_getElem? hg, List.mem_singleton.mpr rfl⟩)
    have hsent : Located w (Publish.sent w s i ch call stage) := by
      refine hs.sent hc hcall hstage hget ?_
      intro hconfirms hx
      rcases hnil hx with hoff | hoff
      · rw [hconfirms] at hoff
        cases hoff
      · rw [hm hconfirms ch hheld] at hoff
        cases hoff
    exact hsent.quiet (Nat.le_refl _) rfl rfl rfl
  | accept ch x hnext => exact hs.accept hnext _
  | chan ch c shared hmove hsent hrouted hshut =>
    have hfield : ∀ {α : Type} (f : PubChan Sent → α), f c = f (s.chans ch) →
        ∀ x, f (Function.update s.chans ch c x) = f (s.chans x) := by
      intro α f hf x
      by_cases hx : x = ch
      · rw [hx, Function.update_self, hf]
      · rw [Function.update_of_ne hx]
    refine hs.frame (Nat.le_refl _) rfl (hfield (·.sent) hsent) (hfield (·.routed) hrouted) ?_ rfl
    intro x tag hv
    show (Function.update s.chans ch c x).verdict tag = some true
    by_cases hx : x = ch
    · subst hx
      rw [Function.update_self]
      exact hmove.verdict hv
    · rw [Function.update_of_ne hx]
      exact hv
  | begun j caller payload carrier body u hj hidle hopen hpayload hbody hu =>
    refine hs.start j caller carrier body ?_
    cases Client.step_sysStep hu with
    | publish hready => simp

/-! ### Over whole runs -/

structure Published (w : Setting P) (s : Sys P) : Prop where
  channels : Channels w s
  confirmMode : ConfirmMode w s
  located : Located w s

theorem step_published (h : Step w s l t) (hs : Published w s) : Published w t :=
  ⟨step_channels h hs.channels, step_confirmMode h hs.confirmMode,
    step_located h hs.channels hs.confirmMode hs.located⟩

theorem newProducer_published (w : Setting P) : Published w (newProducer w) :=
  ⟨newProducer_channels w, newProducer_confirmMode w, newProducer_located w⟩

theorem exec_published {as : List (Action P)} (h : exec (step w) (newProducer w) as = some s) : Published w s :=
  exec_invariant (fun _ _ _ hs hstep => step_published (step_cases hstep) hs) (newProducer_published w) h

-- the message of a call that returned nil
theorem Published.nil (hs : Published w s) (hconfirms : w.config.publisherConfirms = true) {i : Nat} {call : Call}
    (hcall : s.calls i = some call) (hnil : call.stage = .over none) :
    ∃ ch p, call.sentAt = some (ch, p) ∧ (s.chans ch).verdict (p + 1) = some true ∧ p < (s.chans ch).routed.length := by
  obtain ⟨ch, p, hat, hv⟩ := hs.located.answered hconfirms i call hcall hnil
  exact ⟨ch, p, hat, hv, (hs.channels.sound ch).verdicts (p + 1) hv⟩

theorem Published.nil_accepted (hs : Published w s) (hconfirms : w.config.publisherConfirms = true) {i : Nat}
    {call : Call} (hcall : s.calls i = some call) (hnil : call.stage = .over none) : i ∈ s.accepted := by
  obtain ⟨ch, p, hat, -, hp⟩ := hs.nil hconfirms hcall hnil
  exact (hs.located.accepted i).mpr ⟨call, ch, p, hcall, hat, hp⟩

end Ghost.Rabbitmq.Publish
