import Ghost.Rabbitmq.AtLeastOnce

/-!
# The prefetch limit (rabbitmq/consumer.go, rabbitmq/config.go)

`startConsumeLoop` gives `PrefetchCount` to `ch.Qos`, whose wire format has 16
bits for it and reads zero as no limit. `ApplyDefaults` accepts every positive
count, so for the multiples of 65536 the broker is told not to limit at all.
-/

namespace Ghost.Rabbitmq.ConsumeLoop
open Go Amqp Transition

variable {V : Type} {w : Setting V} {s t : Sys} {client : Client.Shared} {as : List Action}

def Setting.limit (w : Setting V) : Nat := (w.config.prefetchCount % 65536).toNat

structure Limited (w : Setting V) (s : Sys) : Prop where
  told : ∀ ch sub, (s.chans ch).subscription = some sub → (s.chans ch).prefetch = w.limit
  qosDone : ∀ ch, s.pc = .consume ch → (s.chans ch).prefetch = w.limit
  within : w.limit ≠ 0 → ∀ ch, (s.unackedOn ch).length ≤ w.limit

theorem start_limited (client : Client.Shared) : Limited w (.start client) :=
  ⟨fun _ _ h => (by cases h), fun _ h => (by cases h), fun _ _ => Nat.zero_le _⟩

theorem unackedOn_le (h : t.unacked.Sublist s.unacked) (ch : Nat) : (t.unackedOn ch).length ≤ (s.unackedOn ch).length :=
  (h.filter _).length_le

theorem settle_sublist (s : Sys) (d : Delivery) (how : Settlement) (front : Bool) :
    (s.settle d how front).unacked.Sublist s.unacked := by
  unfold Sys.settle
  split
  · cases how <;> exact List.erase_sublist
  · exact List.filter_sublist

/- The limits told to the channels are as before, and no more is out. -/
theorem Limited.frame (hs : Limited w s) (hsub : ∀ ch, (t.chans ch).subscription = (s.chans ch).subscription)
    (hprefetch : ∀ ch, (t.chans ch).prefetch = (s.chans ch).prefetch) (hpc : ∀ ch, t.pc = .consume ch → s.pc = .consume ch)
    (hunacked : t.unacked.Sublist s.unacked) : Limited w t := by
  refine ⟨?_, ?_, ?_⟩
  · intro ch sub h
    rw [hsub] at h
    rw [hprefetch]
    exact hs.told ch sub h
  · intro ch h
    rw [hprefetch]
    exact hs.qosDone ch (hpc ch h)
  · intro hlimit ch
    exact Nat.le_trans (unackedOn_le hunacked ch) (hs.within hlimit ch)

theorem send_limited (hs : Limited w s) {ch : Nat} {sub : Subscription} (hsub : (s.chans ch).subscription = some sub)
    (hlimit : (s.chans ch).prefetch = 0 ∨ (s.unackedOn ch).length < (s.chans ch).prefetch) (x : Message)
    (rest : List Message) : Limited w (s.send ch false x rest) := by
  have htold := hs.told ch sub hsub
  rw [htold] at hlimit
  have hfield : ∀ {α : Type} (f : Chan → α), (∀ c n b, f { c with sent := n, buffer := b } = f c) →
      ∀ y, f ((s.send ch false x rest).chans y) = f (s.chans y) :=
    fun f hf y => s.setChan_field f (hf _ _ _) y
  refine ⟨?_, ?_, ?_⟩
  · intro y sub' h
    rw [hfield (fun c => c.subscription) fun _ _ _ => rfl] at h
    rw [hfield (fun c => c.prefetch) fun _ _ _ => rfl]
    exact hs.told y sub' h
  · intro y h
    rw [hfield (fun c => c.prefetch) fun _ _ _ => rfl]
    exact hs.qosDone y h
  · intro hne y
    have hout : (s.send ch false x rest).unackedOn y =
        s.unackedOn y ++ ([⟨ch, (s.chans ch).sent + 1, x⟩] : List Delivery).filter (·.chan == y) :=
      List.filter_append ..
    rw [hout, List.length_append]
    have hwithin := hs.within hne y
    by_cases hy : ch = y
    · subst hy
      have hone : (([⟨ch, (s.chans ch).sent + 1, x⟩] : List Delivery).filter (·.chan == ch)).length ≤ 1 :=
        List.length_filter_le _ _
      omega
    · have hnone : ([⟨ch, (s.chans ch).sent + 1, x⟩] : List Delivery).filter (·.chan == y) = [] := by simp [hy]
      rw [hnone]
      exact hwithin

theorem settled_limited (hs : Limited w s) {ch : Nat} {d : Delivery} {how : Settlement} {result : Option Error}
    (reached : Bool) (err : Option Error) (front : Bool) : Limited w (settled w s ch d how result reached err front) := by
  have hnext : Limited w (attempted s ch d how (process w d result err).err) :=
    hs.frame (fun _ => rfl) (fun _ => rfl) (fun _ h => by cases h) (List.Sublist.refl _)
  cases reached with
  | false => exact hnext
  | true =>
    refine hnext.frame (Sys.settle_field (fun c => c.subscription) fun _ => rfl)
      (Sys.settle_field (fun c => c.prefetch) fun _ => rfl) ?_ (settle_sublist _ d how front)
    intro x h
    change ((attempted s ch d how (process w d result err).err).settle d how front).pc = .consume x at h
    rw [Sys.settle_pc] at h
    exact h

theorem Moves.ne_consume {pc : Pc} (h : Moves w s pc) (ch : Nat) : pc ≠ .consume ch := by
  cases h with
  | refused e hpc =>
    unfold finish
    split <;> simp
  | _ => simp

theorem step_limited (hmanual : w.autoAck = false) (h : Step w s t) (hstock : Stock w s) (hs : Limited w s) :
    Limited w t := by
  cases h with
  | client | endCtx | publish | drop => exact ⟨hs.told, hs.qosDone, hs.within⟩
  | deliver ch sub x rest hsub hready hopen hlimit =>
    have hauto : sub.autoAck = false := by
      rw [hstock.subscriptions ch sub hsub]
      exact hmanual
    rw [hauto] at hlimit ⊢
    exact send_limited hs hsub (hlimit.resolve_left (by decide)) x rest
  | lost ch =>
    exact hs.frame (s.lose_field (fun c => c.subscription) rfl) (s.lose_field (fun c => c.prefetch) rfl) (fun _ h => h)
      List.filter_sublist
  | brokerCancel ch reason =>
    exact hs.frame (fun x => s.setChan_field (fun c => c.subscription) (by rfl) x)
      (fun x => s.setChan_field (fun c => c.prefetch) (by rfl) x) (fun _ h => h) (List.Sublist.refl _)
  | moves pc h =>
    exact hs.frame (fun _ => rfl) (fun _ => rfl) (fun ch hpc => absurd hpc (h.ne_consume ch)) (List.Sublist.refl _)
  | created hpc =>
    refine ⟨?_, fun _ h => (by cases h), hs.within⟩
    intro ch sub h
    by_cases hch : ch = s.nextChan
    · rw [hch] at h
      simp [Sys.setChan, Chan.opened] at h
    · change ((s.setChan s.nextChan .opened).chans ch).subscription = some sub at h
      show ((s.setChan s.nextChan .opened).chans ch).prefetch = w.limit
      rw [s.setChan_chans_other _ hch] at h ⊢
      exact hs.told ch sub h
  | qos ch hpc =>
    refine ⟨?_, ?_, hs.within⟩
    · intro x sub h
      by_cases hx : x = ch
      · rw [hx]
        simp [qos, Sys.setChan, Setting.limit]
      · change ((s.setChan ch _).chans x).subscription = some sub at h
        show ((s.setChan ch _).chans x).prefetch = w.limit
        rw [s.setChan_chans_other _ hx] at h ⊢
        exact hs.told x sub h
    · intro x h
      cases h
      simp [qos, Sys.setChan, Setting.limit]
  | consume ch hpc =>
    refine ⟨?_, fun _ h => (by cases h), hs.within⟩
    intro x sub h
    have hsame : ((consume w s ch).chans x).prefetch = (s.chans x).prefetch :=
      s.setChan_field (fun c => c.prefetch) (by rfl) x
    rw [hsame]
    by_cases hx : x = ch
    · rw [hx]
      exact hs.qosDone ch hpc
    · change ((s.setChan ch _).chans x).subscription = some sub at h
      rw [s.setChan_chans_other _ hx] at h
      exact hs.told x sub h
  | receive ch d rest hpc hbuf =>
    exact hs.frame (fun x => s.setChan_field (fun c => c.subscription) (by rfl) x)
      (fun x => s.setChan_field (fun c => c.prefetch) (by rfl) x) (fun _ h => by cases h) (List.Sublist.refl _)
  | handle ch d result hpc =>
    obtain ⟨how, -, heq⟩ := handle_manual hmanual s ch d result
    rw [heq]
    exact hs.frame (fun _ => rfl) (fun _ => rfl) (fun _ h => by cases h) (List.Sublist.refl _)
  | settled ch d how result reached err front hpc => exact settled_limited hs reached err front
  | close ch err hpc =>
    refine hs.frame (s.lose_field (fun c => c.subscription) rfl) (s.lose_field (fun c => c.prefetch) rfl) ?_
      List.filter_sublist
    intro x h
    change finish w err = .consume x at h
    unfold finish at h
    split at h <;> cases h

theorem exec_limited (hmanual : w.autoAck = false) (h : exec (step w) (.start client) as = some s) : Limited w s := by
  have hboth : Manual w s ∧ Limited w s := by
    refine exec_invariant (I := fun s => Manual w s ∧ Limited w s) ?_
      ⟨⟨start_lifecycle client, start_flow client, start_stock client⟩, start_limited client⟩ h
    rintro s a t ⟨hs, hlimited⟩ hstep
    exact ⟨step_manual hmanual (step_cases hstep) hs, step_limited hmanual (step_cases hstep) hs.stock hlimited⟩
  exact hboth.2

/-! ### A count that reads as no limit -/

/- A channel without a limit and `n` deliveries out on it. -/
def Flooded (w : Setting V) (n : Nat) (s : Sys) : Prop :=
  ∃ ch, (s.chans ch).isOpen = true ∧ (s.chans ch).cancelled = none ∧
    (s.chans ch).subscription = some w.subscription ∧ (s.chans ch).prefetch = 0 ∧ s.ready = [] ∧
      (s.unackedOn ch).length = n

theorem start_flooded (hp : 0 < w.config.prefetchCount) (hlimit : w.limit = 0) :
    CanReach (step w) (fun _ => True) (Flooded w 0) (.start connectedClient) := by
  refine .after (step_create rfl rfl) trivial ?_
  refine .after (step_qos rfl (by simp [Sys.setChan, Chan.opened]) hp) trivial ?_
  refine .after (step_consume rfl (by simp [qos, Sys.setChan, Chan.opened])) trivial ?_
  refine .now ⟨0, ?_, ?_, ?_, ?_, rfl, rfl⟩
  · simp [consume, qos, Sys.setChan, Chan.opened, Sys.start]
  · simp [consume, qos, Sys.setChan, Chan.opened, Sys.start]
  · simp [consume, qos, Sys.setChan, Sys.start]
  · simpa [consume, qos, Sys.setChan, Sys.start, Setting.limit] using hlimit

theorem flooded_succ (hmanual : w.autoAck = false) {n : Nat} (x : Message) (h : Flooded w n s) :
    CanReach (step w) (fun _ => True) (Flooded w (n + 1)) s := by
  obtain ⟨ch, hopen, hcancel, hsub, hprefetch, hready, hlen⟩ := h
  let u : Sys := { s with ready := s.ready ++ [x], published := s.published ++ [x] }
  have hpublish : step w s (.publish x) = some u := rfl
  have hdeliver : step w u (.deliver ch) = some (u.send ch false x []) := by
    have hauto : w.subscription.autoAck = false := hmanual
    simp [step, Sys.deliver, u, hready, hopen, hcancel, hsub, hprefetch, hauto]
  refine .after hpublish trivial (.after hdeliver trivial (.now ⟨ch, ?_, ?_, ?_, ?_, rfl, ?_⟩))
  · simpa [Sys.send, Sys.setChan, u] using hopen
  · simpa [Sys.send, Sys.setChan, u] using hcancel
  · simpa [Sys.send, Sys.setChan, u] using hsub
  · simpa [Sys.send, Sys.setChan, u] using hprefetch
  · have hout : (u.send ch false x []).unackedOn ch = s.unackedOn ch ++ [⟨ch, (s.chans ch).sent + 1, x⟩] := by
      simp [Sys.unackedOn, Sys.send, Sys.setChan, u]
    rw [hout, List.length_append, hlen]
    rfl

theorem floods (hmanual : w.autoAck = false) (hp : 0 < w.config.prefetchCount) (hlimit : w.limit = 0) (n : Nat) :
    CanReach (step w) (fun _ => True) (Flooded w n) (.start connectedClient) := by
  induction n with
  | zero => exact start_flooded hp hlimit
  | succ n ih => exact ih.then fun _ h => flooded_succ hmanual { order with id := n } h

/-- The deliveries out on a channel stay within `PrefetchCount` in every run, unless the
count is a multiple of 65536. -/
theorem prefetch_kept_iff (w : Setting V) (hmanual : w.autoAck = false) (hconfig : applyDefaults w.config = .ok ()) :
    (∀ client as s, exec (step w) (.start client) as = some s →
      ∀ ch, ((s.unackedOn ch).length : Int) ≤ w.config.prefetchCount) ↔ w.config.prefetchCount % 65536 ≠ 0 := by
  have hp : 0 < w.config.prefetchCount := (applyDefaults_ok hconfig).2.1
  constructor
  · intro hall hzero
    have hlimit : w.limit = 0 := by
      unfold Setting.limit
      omega
    obtain ⟨as, s, hexec, -, ch, -, -, -, -, -, hlen⟩ := floods hmanual hp hlimit (w.config.prefetchCount.toNat + 1)
    have hle := hall connectedClient as s hexec ch
    omega
  · intro hne client as s h ch
    have hle : w.limit ≤ w.config.prefetchCount.toNat := by
      unfold Setting.limit
      omega
    have hwithin := (exec_limited hmanual h).within (by unfold Setting.limit; omega) ch
    omega

theorem prefetch_kept_iff_orders :
    (∀ client as s, exec (step orders) (.start client) as = some s →
      ∀ ch, ((s.unackedOn ch).length : Int) ≤ 10) ↔ (10 : Int) % 65536 ≠ 0 :=
  prefetch_kept_iff orders rfl (newDefaultConfig_ok _ (by decide))

end Ghost.Rabbitmq.ConsumeLoop
