import Ghost.Rabbitmq.PublishConfirm

/-!
# The order of a batch (rabbitmq/producer.go, PublishBatch)

`PublishBatch` publishes its payloads one after another and stops at the first
that fails. With publisher confirms a message goes out only after the broker has
handled the one before, so the broker sees them in order although each may go down
another channel of the pool.
-/

namespace Ghost.Rabbitmq.Publish
open Go Amqp Transition Threads

variable {P : Type} {w : Setting P} {s t : Sys P} {l : Option Nat}

/-! ### A call that returned nil stays so -/

-- the steps of a producer before it has a channel
def early : Client.ProducerPc → Bool
  | .check _ | .wait | .poolCheck | .receive => true
  | _ => false

def Early (s : Sys P) : Prop := ∀ i pc call, s.client.gs[i]? = some (.producer pc) → early pc = true →
  s.calls i = some call → call.stage = .getting

theorem newProducer_early (w : Setting P) : Early (newProducer w) := fun _ _ _ _ _ h => (by cases h)

section Goroutines

open Client

variable {c : Config} {p : Shared} {g : Goroutine} {choice : Choice} {r : Result}

-- Only `PublishMessage` is a producer.
theorem stepGoroutine_producer (hr : stepGoroutine c p g choice = some r) (hother : ∀ pc, g ≠ .producer pc)
    (pc : ProducerPc) : r.next ≠ .producer pc ∧ .producer pc ∉ r.spawned := by
  have hdrain : ∀ again next : Goroutine, again ≠ .producer pc → next ≠ .producer pc →
      (drainRound p again next).next ≠ .producer pc ∧ .producer pc ∉ (drainRound p again next).spawned := by
    intro again next hagain hnext
    unfold drainRound
    split
    · exact ⟨hagain, List.not_mem_nil⟩
    · refine ⟨?_, List.not_mem_nil⟩
      simp only
      split
      · exact hagain
      · exact hnext
  cases stepGoroutine_cases hr with
  | producer h => exact absurd rfl (hother _)
  | connect h =>
    rename_i loop _
    cases h with
    | drain => exact hdrain _ _ (by simp) (by simp)
    | aborted => cases loop <;> exact ⟨by simp [failed], List.not_mem_nil⟩
    | watchCons => cases loop <;> exact ⟨by simp [connected], by simp⟩
    | _ => exact ⟨by simp, by simp⟩
  | close h => cases h <;> exact ⟨by simp, by simp⟩
  | loop h =>
    cases h with
    | drain => exact hdrain _ _ (by simp) (by simp)
    | _ => exact ⟨by simp, by simp⟩

theorem stepProducer_spawned {pc : ProducerPc} (hr : stepProducer c p pc choice = some r) : r.spawned = [] := by
  cases stepProducer_cases hr <;> rfl

-- As long as the producer goes on without a channel, its call has not failed.
theorem stepProducer_early {pc next : ProducerPc} {call call' : Call} {ctxErr : Option Error}
    (hr : stepProducer c p pc choice = some r) (hnext : r.next = .producer next) (hearly : early next = true)
    (hafter : call.after ctxErr r.next pc choice = some call') : early pc = true ∧ call'.stage = call.stage := by
  have hne : r.next ≠ .done := by
    rw [hnext]
    simp
  cases pc with
  | check retried =>
    simp only [Call.after, if_neg hne] at hafter
    cases hafter
    exact ⟨rfl, rfl⟩
  | wait =>
    cases choice with
    | go =>
      cases hafter
      exact ⟨rfl, rfl⟩
    | fail =>
      cases hr
      cases hnext
    | quit => cases hr
  | poolCheck =>
    simp only [Call.after, if_neg hne] at hafter
    cases hafter
    exact ⟨rfl, rfl⟩
  | receive =>
    cases stepProducer_cases hr with
    | get ch rest hbuf hopen =>
      cases hnext
      cases hearly
    | getClosed | getNone | getCanceled => cases hnext
  | holding ch =>
    cases stepProducer_cases hr with
    | publish =>
      cases hnext
      cases hearly
  | returnOpen ch =>
    cases stepProducer_cases hr with
    | returnOpen =>
      cases hnext
      cases hearly
    | discard => cases hnext
  | returnPool ch =>
    cases stepProducer_cases hr with
    | returnPool =>
      cases hnext
      cases hearly
    | returnClosed => cases hnext
  | returnSend ch => cases stepProducer_cases hr <;> cases hnext

end Goroutines

theorem step_early (h : Step w s l t) (hl : Located w s) (hs : Early s) : Early t := by
  have hsame : t.client.gs = s.client.gs → t.calls = s.calls → Early t := by
    intro hgs hcalls i pc call hg hpc hcall
    rw [hgs] at hg
    rw [hcalls] at hcall
    exact hs i pc call hg hpc hcall
  -- one call changes, and its goroutine is past the early steps
  have hone : ∀ i call', t.client.gs = s.client.gs → t.calls = Function.update s.calls i (some call') →
      (∀ pc, s.client.gs[i]? = some (.producer pc) → early pc = false) → Early t := by
    intro i call' hgs hcalls hlate k pc call hg hpc hcall
    rw [hgs] at hg
    rw [hcalls] at hcall
    rcases update_some_cases hcall with ⟨rfl, -⟩ | ⟨-, hold⟩
    · rw [hlate pc hg] at hpc
      cases hpc
    · exact hs k pc call hg hpc hold
  have hlate : ∀ i call, s.calls i = some call → call.stage ≠ .getting →
      ∀ pc, s.client.gs[i]? = some (.producer pc) → early pc = false := by
    intro i call hcall hstage pc hg
    by_contra hpc
    exact hstage (hs i pc call hg (by simpa using hpc) hcall)
  have hholding : ∀ (i ch : Nat), s.client.gs[i]? = some (.producer (.holding ch)) →
      ∀ pc, s.client.gs[i]? = some (.producer pc) → early pc = false := by
    intro i ch hg pc hpc
    rw [hg] at hpc
    cases hpc
    rfl
  cases h with
  | environment | accept | chan | called | exhausted | unmarshalled | finished | failed => exact hsame rfl rfl
  | client a u hu hgs hbuf =>
    rcases hgs with hgs | hgs
    · exact hsame hgs rfl
    · intro i pc call hg hpc hcall
      have hg : (s.client.gs ++ [Client.Goroutine.close .storeClosing])[i]? = some (.producer pc) := by
        rw [← hgs]
        exact hg
      rcases getElem?_append_cases hg with hold | hnew
      · exact hs i pc call hold hpc hcall
      · cases hnew
  | goroutine i g choice r hg hr hother =>
    intro k pc call hk hpc hcall
    have hnone := stepGoroutine_producer hr hother pc
    rcases getElem?_advance_cases hk with ⟨-, hnext⟩ | ⟨-, hold⟩ | ⟨-, hnew⟩
    · exact absurd hnext.symm hnone.1
    · exact hs k pc call hold hpc hcall
    · exact absurd (List.mem_of_getElem? hnew) hnone.2
  | producer i pc choice r call call' hg hr hcall hafter =>
    intro k pc' x hk hpc hx
    have hspawned : r.spawned = [] := stepProducer_spawned hr
    rcases update_some_cases hx with ⟨rfl, rfl⟩ | ⟨hne, hold⟩
    · rcases getElem?_advance_cases hk with ⟨-, hnext⟩ | ⟨hne, -⟩ | ⟨-, hnew⟩
      · obtain ⟨hearly, hstage⟩ := stepProducer_early hr hnext.symm hpc hafter
        rw [hstage]
        exact hs k pc call hg hearly hcall
      · exact absurd rfl hne
      · rw [hspawned] at hnew
        cases hnew
    · rcases getElem?_advance_cases hk with ⟨hki, -⟩ | ⟨-, holdg⟩ | ⟨-, hnew⟩
      · exact absurd hki hne
      · exact hs k pc' x holdg hpc hold
      · rw [hspawned] at hnew
        cases hnew
  | fails i call e hcall hstage =>
    rcases hstage with ⟨ch, hg, -⟩ | hwait
    · exact hone i _ rfl rfl (hholding i ch hg)
    · exact hone i _ rfl rfl (hlate i call hcall (by rw [hwait]; simp))
  | acked i call ch p hcall hstage hat hv => exact hone i _ rfl rfl (hlate i call hcall (by rw [hstage]; simp))
  | sent i ch call stage shared hg hcall hstage hshut hnil hget => exact hone i _ rfl rfl (hholding i ch hg)
  | begun j caller payload carrier body u hj hidle hopen hpayload hbody hu =>
    cases Client.step_sysStep hu with
    | publish hready =>
      intro k pc x hk hpc hx
      rcases update_some_cases hx with ⟨-, rfl⟩ | ⟨hne, hold⟩
      · rfl
      · have hlt := hl.begun k x hold
        have hk : (s.client.gs ++ [Client.Goroutine.producer (.check false)])[k]? = some (.producer pc) := hk
        rw [List.getElem?_append_left hlt] at hk
        exact hs k pc x hk hpc hold

structure Kept (call call' : Call) : Prop where
  caller : call'.caller = call.caller
  index : call'.index = call.index
  opts : call'.opts = call.opts
  body : call'.body = call.body
  nil : call.stage = .over none → call'.stage = .over none

theorem Kept.refl (call : Call) : Kept call call := ⟨rfl, rfl, rfl, rfl, id⟩

theorem Kept.fail {call : Call} (h : call.stage ≠ .over none) (e : Error) : Kept call (call.fail e) :=
  ⟨rfl, rfl, rfl, rfl, fun hnil => absurd hnil h⟩

theorem after_late {call call' : Call} {ctxErr : Option Error} {next : Client.Goroutine} {pc : Client.ProducerPc}
    {choice : Client.Choice} (hlate : early pc = false) (h : call.after ctxErr next pc choice = some call') :
    call' = call := by
  cases pc with
  | check | wait | poolCheck | receive => cases hlate
  | holding ch =>
    simp only [Call.after] at h
    split at h
    · cases h
      rfl
    · cases h
  | returnOpen | returnPool | returnSend =>
    cases h
    rfl

theorem Kept.after {call call' : Call} {ctxErr : Option Error} {next : Client.Goroutine} {pc : Client.ProducerPc}
    {choice : Client.Choice} (hstage : early pc = true → call.stage = .getting)
    (h : call.after ctxErr next pc choice = some call') : Kept call call' := by
  cases hpc : early pc with
  | false =>
    rw [after_late hpc h]
    exact .refl call
  | true =>
    have hget : call.stage ≠ .over none := by
      rw [hstage hpc]
      simp
    rcases Call.after_cases h with rfl | rfl | ⟨e, rfl⟩
    · exact .refl call'
    · exact ⟨rfl, rfl, rfl, rfl, id⟩
    · exact .fail hget e

theorem Step.kept (h : Step w s l t) (hl : Located w s) (he : Early s) {i : Nat} {call : Call}
    (hcall : s.calls i = some call) : ∃ call', t.calls i = some call' ∧ Kept call call' := by
  have hone : ∀ k x x', s.calls k = some x → t.calls = Function.update s.calls k (some x') → Kept x x' →
      ∃ call', t.calls i = some call' ∧ Kept call call' := by
    intro k x x' hx ht hkept
    by_cases hik : i = k
    · subst hik
      rw [hcall] at hx
      cases hx
      exact ⟨x', by rw [ht, Function.update_self], hkept⟩
    · exact ⟨call, by rw [ht, Function.update_of_ne hik, hcall], .refl call⟩
  cases h with
  | environment | client | goroutine | accept | chan | called | exhausted | unmarshalled | finished | failed =>
    exact ⟨call, hcall, .refl call⟩
  | producer k pc choice r x x' hg hr hx hafter =>
    exact hone k x x' hx rfl (.after (fun hpc => he k pc x hg hpc hx) hafter)
  | fails k x e hx hstage =>
    refine hone k x _ hx rfl (.fail ?_ e)
    rcases hstage with ⟨-, -, hget⟩ | hwait
    · rw [hget]
      simp
    · rw [hwait]
      simp
  | acked k x ch p hx => exact hone k x _ hx rfl ⟨rfl, rfl, rfl, rfl, fun _ => rfl⟩
  | sent k ch x stage shared hg hx hget =>
    refine hone k x _ hx rfl ⟨rfl, rfl, rfl, rfl, fun hnil => ?_⟩
    rw [hget] at hnil
    cases hnil
  | begun j caller payload carrier body u hj hidle hopen hpayload hbody hu =>
    refine ⟨call, ?_, .refl call⟩
    have hne : i ≠ s.client.gs.length := Nat.ne_of_lt (hl.begun i call hcall)
    exact (Function.update_of_ne hne ..).trans hcall

/-! ### One caller -/

-- what the broker has handled of a caller's messages
def handled (s : Sys P) (caller : Caller P) : List Nat := s.accepted.filter (· ∈ caller.calls)

structure Batch (w : Setting P) (s : Sys P) (j : Nat) (caller : Caller P) : Prop where
  calls : ∀ k i, caller.calls[k]? = some i → ∃ call payload, s.calls i = some call ∧ call.caller = j ∧ call.index = k ∧
    call.opts = caller.opts ∧ caller.payloads[k]? = some payload ∧ w.marshal payload = .ok call.body
  passed : ∀ k i call, caller.calls[k]? = some i → k < caller.index → s.calls i = some call → call.stage = .over none
  begun : caller.index ≤ caller.calls.length ∧ caller.calls.length ≤ caller.index + 1
  running : caller.running = true → caller.calls.length = caller.index + 1
  idle : caller.running = false → caller.result = none → caller.calls.length = caller.index
  done : caller.result = some none → caller.calls.length = caller.payloads.length ∧ caller.index = caller.calls.length
  order : w.config.publisherConfirms = true → handled s caller <+: caller.calls ∧ caller.index ≤ (handled s caller).length

def Batches (w : Setting P) (s : Sys P) : Prop := ∀ j caller, s.callers[j]? = some caller → Batch w s j caller

section Batch

variable {j : Nat} {caller caller' : Caller P}

theorem Batch.frame (hb : Batch w s j caller) (hacc : t.accepted = s.accepted)
    (hkept : ∀ i call, s.calls i = some call → ∃ call', t.calls i = some call' ∧ Kept call call') :
    Batch w t j caller := by
  refine ⟨?_, ?_, hb.begun, hb.running, hb.idle, hb.done, ?_⟩
  · intro k i hk
    obtain ⟨call, payload, hcall, hj, hindex, hopts, hpayload, hbody⟩ := hb.calls k i hk
    obtain ⟨call', hcall', hsame⟩ := hkept i call hcall
    exact ⟨call', payload, hcall', hsame.caller.trans hj, hsame.index.trans hindex, hsame.opts.trans hopts, hpayload,
      by rw [hsame.body]; exact hbody⟩
  · intro k i call' hk hlt hcall'
    obtain ⟨call, -, hcall, -⟩ := hb.calls k i hk
    obtain ⟨x, hx, hsame⟩ := hkept i call hcall
    rw [hcall'] at hx
    cases hx
    exact hsame.nil (hb.passed k i call hk hlt hcall)
  · intro hconfirms
    have hsame : handled t caller = handled s caller := by simp only [handled, hacc]
    rw [hsame]
    exact hb.order hconfirms

theorem Batch.calls_le (hb : Batch w s j caller) : caller.calls.length ≤ caller.payloads.length := by
  by_contra hlt
  obtain ⟨i, hi⟩ : ∃ i, caller.calls[caller.payloads.length]? = some i :=
    ⟨_, List.getElem?_eq_getElem (by omega)⟩
  obtain ⟨-, payload, -, -, -, -, hpayload, -⟩ := hb.calls _ i hi
  have hbound := (List.getElem?_eq_some_iff.mp hpayload).1
  omega

-- A call is in one place only.
theorem Batch.place (hb : Batch w s j caller) {k l i : Nat} (hk : caller.calls[k]? = some i)
    (hl : caller.calls[l]? = some i) : k = l := by
  obtain ⟨x, -, hx, -, hxk, -⟩ := hb.calls k i hk
  obtain ⟨y, -, hy, -, hyl, -⟩ := hb.calls l i hl
  rw [hx] at hy
  cases hy
  exact hxk.symm.trans hyl

-- The broker handles one more message, of this caller or of another.
theorem Batch.accept (hb : Batch w s j caller) {i : Nat} (hnew : i ∉ s.accepted) (hcalls : t.calls = s.calls)
    (hacc : t.accepted = s.accepted ++ [i]) : Batch w t j caller := by
  refine ⟨?_, ?_, hb.begun, hb.running, hb.idle, hb.done, ?_⟩
  · rw [hcalls]
    exact hb.calls
  · rw [hcalls]
    exact hb.passed
  · intro hconfirms
    obtain ⟨hfront, hindex⟩ := hb.order hconfirms
    have hbegun := hb.begun
    by_cases hi : i ∈ caller.calls
    · have hmore : handled t caller = handled s caller ++ [i] := by
        simp [handled, hacc, List.filter_append, hi]
      have hnot : i ∉ handled s caller := fun h => hnew (List.mem_of_mem_filter h)
      have hall : handled s caller ++ [i] = caller.calls := concat_front hfront (by omega) hi hnot
      rw [hmore, hall]
      exact ⟨List.prefix_refl _, hbegun.1⟩
    · have hsame : handled t caller = handled s caller := by
        simp [handled, hacc, List.filter_append, hi]
      rw [hsame]
      exact ⟨hfront, hindex⟩

theorem Batch.ended (hb : Batch w s j caller) (hindex : caller'.index = caller.index) (hcalls : caller'.calls = caller.calls)
    (hpayloads : caller'.payloads = caller.payloads) (hopts : caller'.opts = caller.opts)
    (hstopped : caller'.running = false) (hresult : caller'.result.isSome = true)
    (hdone : caller'.result = some none → caller.calls.length = caller.payloads.length ∧ caller.index = caller.calls.length) :
    Batch w s j caller' := by
  refine ⟨?_, ?_, ?_, ?_, ?_, ?_, ?_⟩
  · rw [hcalls, hpayloads, hopts]
    exact hb.calls
  · rw [hcalls, hindex]
    exact hb.passed
  · rw [hcalls, hindex]
    exact hb.begun
  · intro hrun
    rw [hstopped] at hrun
    cases hrun
  · intro _ hnone
    rw [hnone] at hresult
    cases hresult
  · rw [hcalls, hpayloads, hindex]
    exact hdone
  · have hsame : handled s caller' = handled s caller := by simp only [handled, hcalls]
    rw [hsame, hcalls, hindex]
    exact hb.order

theorem Batch.finished (hb : Batch w s j caller) (hs : Published w s) (hrun : caller.running = true) {i : Nat} {call : Call}
    (hlast : caller.calls.getLast? = some i) (hcall : s.calls i = some call) (hnil : call.stage = .over none)
    (hopen : caller.result ≠ some none) : Batch w s j { caller with running := false, index := caller.index + 1 } := by
  have hlen := hb.running hrun
  have hat : caller.calls[caller.index]? = some i := by
    rw [List.getLast?_eq_getElem?, hlen] at hlast
    exact hlast
  refine ⟨hb.calls, ?_, ?_, fun h => (by cases h), fun _ _ => hlen, fun h => absurd h hopen, ?_⟩
  · intro k x y hk hlt hy
    by_cases hki : k = caller.index
    · rw [hki, hat] at hk
      cases hk
      rw [hcall] at hy
      cases hy
      exact hnil
    · have hlt : k < caller.index + 1 := hlt
      exact hb.passed k x y hk (by omega) hy
  · show caller.index + 1 ≤ caller.calls.length ∧ caller.calls.length ≤ caller.index + 1 + 1
    omega
  · intro hconfirms
    obtain ⟨hfront, -⟩ := hb.order hconfirms
    refine ⟨hfront, ?_⟩
    -- the call of this round is among those handled, and they are the first ones
    have hmem : i ∈ handled s caller := by
      have hacc := hs.nil_accepted hconfirms hcall hnil
      exact List.mem_filter.mpr ⟨hacc, decide_eq_true (List.mem_of_getElem? hat)⟩
    obtain ⟨k, hlt, hk⟩ := List.getElem_of_mem hmem
    obtain ⟨rest, hrest⟩ := hfront
    have hk' : caller.calls[k]? = some i := by
      rw [← hrest, List.getElem?_append_left hlt, List.getElem?_eq_getElem hlt, hk]
    have hsame := hb.place hk' hat
    show caller.index + 1 ≤ (handled s caller).length
    omega

theorem Batch.start (hb : Batch w s j caller) (hs : Located w s) (hidle : caller.running = false)
    (hopen : caller.result = none) {payload : P} {body : List UInt8} (carrier : Carrier)
    (hpayload : caller.payloads[caller.index]? = some payload) (hbody : w.marshal payload = .ok body) (u : Client.Sys) :
    Batch w (Publish.begun s j caller carrier body u) j
      { caller with calls := caller.calls ++ [s.client.gs.length], running := true } := by
  have hlen := hb.idle hidle hopen
  have hself : (Publish.begun s j caller carrier body u).calls s.client.gs.length = some (newCall j caller carrier body) :=
    Function.update_self ..
  have hne : ∀ i call, s.calls i = some call → (Publish.begun s j caller carrier body u).calls i = some call := by
    intro i call hcall
    exact (Function.update_of_ne (Nat.ne_of_lt (hs.begun i call hcall)) ..).trans hcall
  have hcases : ∀ k i, (caller.calls ++ [s.client.gs.length])[k]? = some i →
      caller.calls[k]? = some i ∨ (k = caller.calls.length ∧ i = s.client.gs.length) := by
    intro k i hk
    rcases Nat.lt_trichotomy k caller.calls.length with hlt | rfl | hgt
    · left
      rw [List.getElem?_append_left hlt] at hk
      exact hk
    · right
      rw [List.getElem?_concat_length] at hk
      exact ⟨rfl, (Option.some.inj hk).symm⟩
    · rw [List.getElem?_eq_none (by simp; omega)] at hk
      cases hk
  refine ⟨?_, ?_, ?_, ?_, fun h => (by cases h), ?_, ?_⟩
  · intro k i hk
    rcases hcases k i hk with hold | ⟨rfl, rfl⟩
    · obtain ⟨call, x, hcall, hrest⟩ := hb.calls k i hold
      exact ⟨call, x, hne i call hcall, hrest⟩
    · refine ⟨_, payload, hself, rfl, hlen.symm, rfl, ?_, hbody⟩
      rw [hlen]
      exact hpayload
  · intro k i call hk hlt hcall
    have hlt : k < caller.index := hlt
    rcases hcases k i hk with hold | ⟨rfl, -⟩
    · obtain ⟨x, -, hx, -⟩ := hb.calls k i hold
      rw [hne i x hx] at hcall
      cases hcall
      exact hb.passed k i call hold hlt hx
    · omega
  · simp only [List.length_append, List.length_singleton]
    omega
  · intro _
    simp only [List.length_append, List.length_singleton]
    omega
  · intro hnone
    rw [show caller.result = some none from hnone] at hopen
    cases hopen
  · intro hconfirms
    obtain ⟨hfront, hindex⟩ := hb.order hconfirms
    -- the new call has no message yet
    have hfresh : s.client.gs.length ∉ s.accepted := by
      intro hmem
      obtain ⟨call, ch, p, hcall, -⟩ := (hs.accepted _).mp hmem
      exact Nat.lt_irrefl _ (hs.begun _ call hcall)
    have hsame : handled (Publish.begun s j caller carrier body u)
        { caller with calls := caller.calls ++ [s.client.gs.length], running := true } = handled s caller := by
      refine List.filter_congr ?_
      intro i hi
      have hi' : i ≠ s.client.gs.length := by
        rintro rfl
        exact hfresh hi
      simp [hi']
    rw [hsame]
    exact ⟨hfront.trans (List.prefix_append _ _), hindex⟩

end Batch

/-! ### Every caller, in every run -/

theorem batch_new {j : Nat} {caller : Caller P}
    (hnew : caller.index = 0 ∧ caller.calls = [] ∧ caller.running = false ∧ caller.result = none) :
    Batch w s j caller := by
  obtain ⟨hindex, hcalls, hidle, hopen⟩ := hnew
  refine ⟨?_, ?_, ?_, ?_, ?_, ?_, ?_⟩
  · intro k i hk
    rw [hcalls] at hk
    cases hk
  · intro k i call hk
    rw [hcalls] at hk
    cases hk
  · rw [hindex, hcalls]
    exact ⟨Nat.le_refl 0, Nat.zero_le 1⟩
  · intro hrun
    rw [hidle] at hrun
    cases hrun
  · intro _ _
    rw [hindex, hcalls]
    rfl
  · intro hdone
    rw [hopen] at hdone
    cases hdone
  · intro _
    have hnone : handled s caller = [] := by
      simp [handled, hcalls]
    rw [hnone, hcalls, hindex]
    exact ⟨List.prefix_refl _, Nat.le_refl 0⟩

-- One caller moves on.
theorem Batches.setCaller (hb : Batches w s) {j : Nat} {caller : Caller P} (hself : Batch w s j caller) :
    Batches w (s.setCaller j caller) := by
  intro k x hk
  rcases getElem?_set_cases hk with ⟨rfl, rfl⟩ | ⟨-, hold⟩
  · exact hself.frame rfl fun i call hcall => ⟨call, hcall, .refl call⟩
  · exact (hb k x hold).frame rfl fun i call hcall => ⟨call, hcall, .refl call⟩

theorem step_batches (h : Step w s l t) (hp : Published w s) (he : Early s) (hb : Batches w s) : Batches w t := by
  have hkept : ∀ i call, s.calls i = some call → ∃ call', t.calls i = some call' ∧ Kept call call' :=
    fun i call hcall => h.kept hp.located he hcall
  have hframe : t.callers = s.callers → t.accepted = s.accepted → Batches w t := by
    intro hcallers hacc j caller hj
    rw [hcallers] at hj
    exact (hb j caller hj).frame hacc hkept
  have honce := (step_located h hp.channels hp.confirmMode hp.located).once
  cases h with
  | environment | client | goroutine | producer | fails | acked | sent | chan => exact hframe rfl rfl
  | accept ch x hnext =>
    intro j caller hj
    refine (hb j caller hj).accept ?_ rfl rfl
    intro hmem
    exact (List.nodup_append.mp honce).2.2 _ hmem _ List.mem_cons_self rfl
  | called caller hnew =>
    intro j x hj
    rcases getElem?_append_cases hj with hold | rfl
    · exact (hb j x hold).frame rfl hkept
    · exact batch_new hnew
  | exhausted j caller hj hidle hopen hend =>
    refine hb.setCaller ((hb j caller hj).ended rfl rfl rfl rfl hidle rfl fun _ => ?_)
    have hlen := (hb j caller hj).idle hidle hopen
    have hle := (hb j caller hj).calls_le
    have hover := List.getElem?_eq_none_iff.mp hend
    omega
  | unmarshalled j caller e hj hidle hopen =>
    exact hb.setCaller ((hb j caller hj).ended rfl rfl rfl rfl rfl rfl fun hnone => (by cases hnone))
  | failed j caller i call e hj hrun hlast hcall hstage =>
    exact hb.setCaller ((hb j caller hj).ended rfl rfl rfl rfl rfl rfl fun hnone => (by cases hnone))
  | finished j caller i call hj hrun hlast hcall hstage =>
    refine hb.setCaller ((hb j caller hj).finished hp hrun hlast hcall hstage fun hnone => ?_)
    have hlen := (hb j caller hj).running hrun
    have hdone := (hb j caller hj).done hnone
    omega
  | begun j caller payload carrier body u hj hidle hopen hpayload hbody hu =>
    intro k x hk
    rcases getElem?_set_cases hk with ⟨rfl, rfl⟩ | ⟨-, hold⟩
    · exact (hb k caller hj).start hp.located hidle hopen carrier hpayload hbody u
    · exact (hb k x hold).frame rfl hkept

structure InOrder (w : Setting P) (s : Sys P) : Prop where
  published : Published w s
  early : Early s
  batches : Batches w s

theorem exec_inOrder {as : List (Action P)} (h : exec (step w) (newProducer w) as = some s) : InOrder w s := by
  have hstep : ∀ (s : Sys P) a t, InOrder w s → step w s a = some t → InOrder w t := by
    intro s a t hs ht
    have hcases := step_cases ht
    exact ⟨step_published hcases hs.published, step_early hcases hs.published.located hs.early,
      step_batches hcases hs.published hs.early hs.batches⟩
  refine exec_invariant hstep ⟨newProducer_published w, newProducer_early w, ?_⟩ h
  intro j caller hj
  cases hj

/- What holds of a caller at any moment: its calls are those of its first payloads;
the broker has handled them in order, and all before the loop variable; nothing
after the loop variable has been sent; nil means that all of them are handled. -/
structure HandledInOrder (w : Setting P) (s : Sys P) (caller : Caller P) : Prop where
  messages : ∀ (k i : Nat), caller.calls[k]? = some i → ∃ call payload, s.calls i = some call ∧ call.opts = caller.opts ∧
    caller.payloads[k]? = some payload ∧ w.marshal payload = .ok call.body
  order : handled s caller <+: caller.calls
  before : caller.index ≤ (handled s caller).length
  after : caller.calls.length ≤ caller.index + 1
  all : caller.result = some none → caller.calls.length = caller.payloads.length ∧ handled s caller = caller.calls

/-- With publisher confirms the broker handles the messages of a batch in the order of the
payloads: those before the loop index, at most one more, and all of them once the call has
returned nil. -/
theorem publishBatch_inOrder (w : Setting P) (hconfirms : w.config.publisherConfirms = true) (as : List (Action P))
    (s : Sys P) (h : exec (step w) (newProducer w) as = some s) (j : Nat) (caller : Caller P)
    (hj : s.callers[j]? = some caller) : HandledInOrder w s caller := by
  have hb := (exec_inOrder h).batches j caller hj
  obtain ⟨hfront, hindex⟩ := hb.order hconfirms
  refine ⟨?_, hfront, hindex, hb.begun.2, ?_⟩
  · intro k i hk
    obtain ⟨call, payload, hcall, -, -, hopts, hpayload, hbody⟩ := hb.calls k i hk
    exact ⟨call, payload, hcall, hopts, hpayload, hbody⟩
  · intro hnone
    obtain ⟨hall, hlast⟩ := hb.done hnone
    refine ⟨hall, hfront.eq_of_length_le ?_⟩
    omega

-- Two messages, each a digit and down a channel of its own.
def twoChannels : Setting (Fin 10) where
  config := { toConfig := { newDefaultConfig "amqp://localhost" with publisherConfirms := true, channelPoolSize := 2 },
              mandatory := false, persistentDelivery := true, onReturn := false }
  marshal x := .ok [0x30 + UInt8.ofNat x]

def firstPayload : Fin 10 := 7
def secondPayload : Fin 10 := 8

def exchanged (i ch : Nat) : List (Action (Fin 10)) :=
  [.send i none false, .accept ch, .confirm ch 1 false true, .dispatch ch, .wait i false]

def round (i ch : Nat) : List (Action (Fin 10)) :=
  .begin 0 [] :: (running i 3 ++ exchanged i ch ++ running i 4).concat (.finish 0)

def twoMessages : List (Action (Fin 10)) :=
  (running 0 15).concat (.publishBatch (sendMessage "orders") [firstPayload, secondPayload]) ++ (round 3 0 ++ round 4 1).concat (.begin 0 [])

theorem twoMessages_inOrder : ∃ s caller, exec (step twoChannels) (newProducer twoChannels) twoMessages = some s ∧
    s.callers[0]? = some caller ∧ caller.result = some none ∧ HandledInOrder twoChannels s caller :=
  ⟨_, _, rfl, rfl, rfl, publishBatch_inOrder twoChannels rfl twoMessages _ rfl 0 _ rfl⟩

end Ghost.Rabbitmq.Publish
