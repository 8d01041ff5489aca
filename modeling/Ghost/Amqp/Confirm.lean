import Ghost.Amqp.Broker

/-!
# Publisher confirms

One channel of a publisher, seen from both ends. The publisher sends messages
down the channel; the broker handles them in that order, returns a mandatory
message that no queue takes, and confirms what it has handled, one message or a
range of them. The library reads what the broker sends in the order it was sent.
-/

namespace Amqp

variable {M : Type}

structure Publication (M : Type) where
  exchange : String
  key : String
  mandatory : Bool
  immediate : Bool
  message : M
  deriving DecidableEq

-- what the broker sends down a publisher's channel
inductive Inbound (M : Type) where
  | ret (x : Publication M)
  | confirm (tag : Nat) (multiple ack : Bool)

-- which delivery tags a confirm is about
def covers (tag : Nat) (multiple : Bool) (t : Nat) : Bool := t == tag || (multiple && decide (t ≤ tag))

/- The message at position `p` of `sent` has the delivery tag `p + 1`; confirm mode
is entered before the first message. -/
structure PubChan (M : Type) where
  confirming : Bool
  -- a listener for returned messages is registered
  listening : Bool
  sent : List (Publication M)
  -- for each message the broker has handled, the queues it went to
  routed : List (List String)
  -- the broker has raised an exception and ignores the rest
  refused : Bool
  inbound : List (Inbound M)
  verdict : Nat → Option Bool
  -- the listener's buffer of one message, and what it has handed on
  returns : List (Publication M)
  handed : List (Publication M)

namespace PubChan

def new (listening : Bool) : PubChan M := ⟨false, listening, [], [], false, [], fun _ => none, [], []⟩

def publish (ch : PubChan M) (x : Publication M) : PubChan M := { ch with sent := ch.sent ++ [x] }

/- An exchange that is missing or internal and the unsupported `immediate` flag
raise an exception instead. -/
def admits (b : Broker) (x : Publication M) : Bool :=
  !x.immediate && (x.exchange == "" || (b.findExchange x.exchange).any fun e => !e.internal)

def handle (ch : PubChan M) (x : Publication M) (queues : List String) : PubChan M :=
  { ch with
    routed := ch.routed ++ [queues]
    inbound := if x.mandatory = true ∧ queues = [] then ch.inbound ++ [.ret x] else ch.inbound }

-- the first message the broker has not handled
def next (ch : PubChan M) : Option (Publication M) := ch.sent[ch.routed.length]?

def accept (b : Broker) (ch : PubChan M) : Option (PubChan M) :=
  match ch.next with
  | some x =>
    if ch.refused = false ∧ admits b x = true then some (ch.handle x (b.route x.exchange x.key)) else none
  | none => none

def confirm (ch : PubChan M) (tag : Nat) (multiple ack : Bool) : Option (PubChan M) :=
  if ch.confirming = true ∧ 1 ≤ tag ∧ tag ≤ ch.routed.length then
    some { ch with inbound := ch.inbound ++ [.confirm tag multiple ack] }
  else none

-- A message that is confirmed keeps its first verdict.
def resolve (ch : PubChan M) (tag : Nat) (multiple ack : Bool) : Nat → Option Bool := fun t =>
  if ch.verdict t = none ∧ covers tag multiple t = true then some ack else ch.verdict t

/- The library reads one frame. It waits while the listener's buffer is full. -/
def dispatch (ch : PubChan M) : Option (PubChan M) :=
  match ch.inbound with
  | [] => none
  | .ret x :: rest =>
    if ch.listening then
      if ch.returns = [] then some { ch with inbound := rest, returns := [x] } else none
    else some { ch with inbound := rest }
  | .confirm tag multiple ack :: rest =>
    some { ch with inbound := rest, verdict := ch.resolve tag multiple ack }

def listen (ch : PubChan M) : Option (PubChan M) :=
  match ch.returns with
  | x :: rest => some { ch with returns := rest, handed := ch.handed ++ [x] }
  | [] => none

-- What a waiting publisher sees: the end of the channel is a negative verdict.
def outcome (ch : PubChan M) (isOpen : Bool) (tag : Nat) : Option Bool :=
  match ch.verdict tag with
  | some ack => some ack
  | none => if isOpen then none else some false

/-! ### What can happen to a channel -/

inductive Move (ch : PubChan M) : PubChan M → Prop where
  | enable : Move ch { ch with confirming := true }
  | publish (x : Publication M) : Move ch (ch.publish x)
  | handle (x : Publication M) (queues : List String) (hx : ch.next = some x) : Move ch (ch.handle x queues)
  | refuse : Move ch { ch with refused := true }
  | confirm (tag : Nat) (multiple ack : Bool) (htag : tag ≤ ch.routed.length) :
      Move ch { ch with inbound := ch.inbound ++ [.confirm tag multiple ack] }
  | keepReturn (x : Publication M) (rest : List (Inbound M)) (hin : ch.inbound = .ret x :: rest)
      (hlisten : ch.listening = true) (hbuf : ch.returns = []) : Move ch { ch with inbound := rest, returns := [x] }
  | dropReturn (x : Publication M) (rest : List (Inbound M)) (hin : ch.inbound = .ret x :: rest)
      (hlisten : ch.listening = false) : Move ch { ch with inbound := rest }
  | resolve (tag : Nat) (multiple ack : Bool) (rest : List (Inbound M))
      (hin : ch.inbound = .confirm tag multiple ack :: rest) :
      Move ch { ch with inbound := rest, verdict := ch.resolve tag multiple ack }
  | listen (x : Publication M) (rest : List (Publication M)) (hret : ch.returns = x :: rest) :
      Move ch { ch with returns := rest, handed := ch.handed ++ [x] }

variable {ch ch' : PubChan M} {b : Broker}

theorem accept_move (h : ch.accept b = some ch') :
    ∃ x, ch.next = some x ∧ admits b x = true ∧ ch' = ch.handle x (b.route x.exchange x.key) := by
  unfold accept at h
  split at h
  · rename_i x hx
    split at h
    · rename_i hadmit
      cases h
      exact ⟨x, hx, hadmit.2, rfl⟩
    · cases h
  · cases h

theorem confirm_move {tag : Nat} {multiple ack : Bool} (h : ch.confirm tag multiple ack = some ch') :
    Move ch ch' := by
  unfold confirm at h
  split at h
  · rename_i htag
    cases h
    exact .confirm tag multiple ack htag.2.2
  · cases h

theorem confirm_ends {tag : Nat} {multiple ack : Bool} (h : ch.confirm tag multiple ack = some ch') :
    ch'.sent = ch.sent ∧ ch'.routed = ch.routed := by
  unfold confirm at h
  split at h
  · cases h
    exact ⟨rfl, rfl⟩
  · cases h

theorem dispatch_move (h : ch.dispatch = some ch') : Move ch ch' := by
  unfold dispatch at h
  split at h
  · cases h
  · rename_i x rest hin
    split at h
    · rename_i hlisten
      split at h
      · rename_i hbuf
        cases h
        exact .keepReturn x rest hin hlisten hbuf
      · cases h
    · rename_i hlisten
      cases h
      exact .dropReturn x rest hin (by simpa using hlisten)
  · rename_i tag multiple ack rest hin
    cases h
    exact .resolve tag multiple ack rest hin

theorem dispatch_ends (h : ch.dispatch = some ch') : ch'.sent = ch.sent ∧ ch'.routed = ch.routed := by
  unfold dispatch at h
  split at h
  · cases h
  · split at h
    · split at h
      · cases h
        exact ⟨rfl, rfl⟩
      · cases h
    · cases h
      exact ⟨rfl, rfl⟩
  · cases h
    exact ⟨rfl, rfl⟩

theorem listen_move (h : ch.listen = some ch') : Move ch ch' := by
  unfold listen at h
  split at h
  · rename_i x rest hret
    cases h
    exact .listen x rest hret
  · cases h

theorem listen_ends (h : ch.listen = some ch') : ch'.sent = ch.sent ∧ ch'.routed = ch.routed := by
  unfold listen at h
  split at h
  · cases h
    exact ⟨rfl, rfl⟩
  · cases h

theorem outcome_eq_true {isOpen : Bool} {tag : Nat} (h : ch.outcome isOpen tag = some true) :
    ch.verdict tag = some true := by
  unfold outcome at h
  split at h
  · rename_i ack hv
    rw [hv, h]
  · split at h <;> cases h

/-! ### What is kept -/

-- Both ends only append.
theorem Move.sent (h : Move ch ch') : ch.sent <+: ch'.sent := by
  cases h with
  | publish x => exact List.prefix_append _ _
  | _ => exact List.prefix_refl _

theorem Move.routed (h : Move ch ch') : ch.routed <+: ch'.routed := by
  cases h with
  | handle x queues hx => exact List.prefix_append _ _
  | _ => exact List.prefix_refl _

theorem Move.listening (h : Move ch ch') : ch'.listening = ch.listening := by
  cases h <;> rfl

theorem Move.confirming (h : Move ch ch') (hc : ch.confirming = true) : ch'.confirming = true := by
  cases h with
  | enable => rfl
  | _ => exact hc

theorem Move.verdict (h : Move ch ch') {tag : Nat} {ack : Bool} (hv : ch.verdict tag = some ack) :
    ch'.verdict tag = some ack := by
  cases h with
  | resolve t multiple a rest hin =>
    simp only [PubChan.resolve, hv, reduceCtorEq, false_and, if_false]
  | _ => exact hv

theorem covers_le {tag t : Nat} {multiple : Bool} (h : covers tag multiple t = true) : t ≤ tag := by
  simp only [covers, Bool.or_eq_true, beq_iff_eq, Bool.and_eq_true, decide_eq_true_eq] at h
  omega

theorem resolve_eq_true {tag t : Nat} {multiple ack : Bool} (h : ch.resolve tag multiple ack t = some true) :
    covers tag multiple t = true ∨ ch.verdict t = some true := by
  unfold resolve at h
  split at h
  · rename_i hcover
    exact .inl hcover.2
  · exact .inr h

/- What is confirmed has been handled. -/
structure Sound (ch : PubChan M) : Prop where
  handled : ch.routed.length ≤ ch.sent.length
  confirms : ∀ tag multiple ack, .confirm tag multiple ack ∈ ch.inbound → tag ≤ ch.routed.length
  verdicts : ∀ tag, ch.verdict tag = some true → tag ≤ ch.routed.length

theorem sound_new (listening : Bool) : Sound (new listening : PubChan M) :=
  ⟨Nat.le_refl 0, fun _ _ _ h => (by cases h), fun _ h => (by cases h)⟩

theorem Sound.mono (hs : Sound ch) (hsent : ch'.sent = ch.sent) (hrouted : ch'.routed = ch.routed)
    (hin : ∀ x ∈ ch'.inbound, x ∈ ch.inbound) (hverdict : ch'.verdict = ch.verdict) : Sound ch' := by
  refine ⟨?_, ?_, ?_⟩
  · rw [hsent, hrouted]
    exact hs.handled
  · intro tag multiple ack hmem
    rw [hrouted]
    exact hs.confirms tag multiple ack (hin _ hmem)
  · intro tag htag
    rw [hverdict] at htag
    rw [hrouted]
    exact hs.verdicts tag htag

theorem Sound.handle (hs : Sound ch) {x : Publication M} (hx : ch.next = some x) (queues : List String) :
    Sound (ch.handle x queues) := by
  have hlt : ch.routed.length < ch.sent.length := (List.getElem?_eq_some_iff.mp hx).1
  have hlen : (ch.handle x queues).routed.length = ch.routed.length + 1 := by
    simp only [PubChan.handle, List.length_append, List.length_singleton]
  refine ⟨?_, ?_, ?_⟩
  · rw [hlen]
    exact hlt
  · intro tag multiple ack hmem
    have hold : .confirm tag multiple ack ∈ ch.inbound := by
      simp only [PubChan.handle] at hmem
      split at hmem
      · simpa using hmem
      · exact hmem
    have hle := hs.confirms tag multiple ack hold
    omega
  · intro tag htag
    have hle := hs.verdicts tag htag
    omega

theorem Sound.resolve (hs : Sound ch) {tag : Nat} {multiple ack : Bool} {rest : List (Inbound M)}
    (hin : ch.inbound = .confirm tag multiple ack :: rest) :
    Sound { ch with inbound := rest, verdict := ch.resolve tag multiple ack } := by
  refine ⟨hs.handled, ?_, ?_⟩
  · intro t multiple ack hmem
    exact hs.confirms t multiple ack (by rw [hin]; exact List.mem_cons_of_mem _ hmem)
  · intro t ht
    rcases resolve_eq_true ht with hcover | hold
    · have hle := hs.confirms tag multiple ack (by rw [hin]; exact List.mem_cons_self)
      exact Nat.le_trans (covers_le hcover) hle
    · exact hs.verdicts t hold

theorem Sound.move (hs : Sound ch) (h : Move ch ch') : Sound ch' := by
  cases h with
  | enable => exact hs.mono rfl rfl (fun _ h => h) rfl
  | refuse => exact hs.mono rfl rfl (fun _ h => h) rfl
  | listen => exact hs.mono rfl rfl (fun _ h => h) rfl
  | keepReturn x rest hin => exact hs.mono rfl rfl (fun y hy => by rw [hin]; exact List.mem_cons_of_mem _ hy) rfl
  | dropReturn x rest hin => exact hs.mono rfl rfl (fun y hy => by rw [hin]; exact List.mem_cons_of_mem _ hy) rfl
  | publish x =>
    refine ⟨?_, hs.confirms, hs.verdicts⟩
    have hle := hs.handled
    simp only [PubChan.publish, List.length_append, List.length_singleton]
    omega
  | handle x queues hx => exact hs.handle hx queues
  | confirm tag multiple ack htag =>
    refine ⟨hs.handled, ?_, hs.verdicts⟩
    intro t m a hmem
    rcases List.mem_append.mp hmem with hold | hnew
    · exact hs.confirms t m a hold
    · cases List.mem_singleton.mp hnew
      exact htag
  | resolve tag multiple ack rest hin => exact hs.resolve hin

/-! ### Returned messages

The broker sends a message back before it confirms it, so whoever sees the
confirm finds the message with the listener. -/

-- the listener has the message, or had it
def Seen (ch : PubChan M) (x : Publication M) : Prop := x ∈ ch.returns ∨ x ∈ ch.handed

-- No confirm of tag `t` comes before the message.
def Announced (x : Publication M) (t : Nat) : List (Inbound M) → Prop
  | [] => True
  | .ret y :: rest => y = x ∨ Announced x t rest
  | .confirm tag multiple _ :: rest => covers tag multiple t = false ∧ Announced x t rest

theorem Announced.append {x : Publication M} {t : Nat} {frames : List (Inbound M)} (h : Announced x t frames)
    {f : Inbound M} (hf : .ret x ∈ frames ∨ ∀ tag multiple ack, f = .confirm tag multiple ack →
      covers tag multiple t = false) : Announced x t (frames ++ [f]) := by
  induction frames with
  | nil =>
    rcases hf with hf | hf
    · cases hf
    · cases f with
      | ret y => exact .inr trivial
      | confirm tag multiple ack => exact ⟨hf tag multiple ack rfl, trivial⟩
  | cons g frames ih =>
    cases g with
    | ret y =>
      by_cases hy : y = x
      · exact .inl hy
      · refine .inr (ih (h.resolve_left hy) ?_)
        rcases hf with hf | hf
        · rcases List.mem_cons.mp hf with hf | hf
          · exact absurd (Inbound.ret.inj hf).symm hy
          · exact .inl hf
        · exact .inr hf
    | confirm tag multiple ack =>
      refine ⟨h.1, ih h.2 ?_⟩
      rcases hf with hf | hf
      · rcases List.mem_cons.mp hf with hf | hf
        · cases hf
        · exact .inl hf
      · exact .inr hf

-- As long as no frame covers the tag, nothing has to come first.
theorem announced_of_uncovered {x : Publication M} {t : Nat} {frames : List (Inbound M)}
    (h : ∀ tag multiple ack, .confirm tag multiple ack ∈ frames → tag < t) : Announced x t frames := by
  induction frames with
  | nil => trivial
  | cons f frames ih =>
    have hrest := ih fun tag multiple ack hmem => h tag multiple ack (List.mem_cons_of_mem f hmem)
    cases f with
    | ret y => exact .inr hrest
    | confirm tag multiple ack =>
      refine ⟨?_, hrest⟩
      have hlt := h tag multiple ack List.mem_cons_self
      by_contra hcover
      have hle := covers_le (by simpa using hcover)
      omega

/- The message at position `p`, handled and taken by no queue. -/
structure Unrouted (ch : PubChan M) (p : Nat) (x : Publication M) : Prop where
  sent : ch.sent[p]? = some x
  routed : ch.routed[p]? = some []
  mandatory : x.mandatory = true

/- It is on its way, before any confirm of it, or the listener has it. -/
def Back (ch : PubChan M) (p : Nat) (x : Publication M) : Prop :=
  Seen ch x ∨ (.ret x ∈ ch.inbound ∧ Announced x (p + 1) ch.inbound ∧ ch.verdict (p + 1) ≠ some true)

def Returning (ch : PubChan M) : Prop := ch.listening = true → ∀ p x, Unrouted ch p x → Back ch p x

theorem returning_new (listening : Bool) : Returning (new listening : PubChan M) :=
  fun _ p x h => (by cases h.sent)

theorem Back.frame {p : Nat} {x : Publication M} (h : Back ch p x) (hin : ch'.inbound = ch.inbound)
    (hverdict : ch'.verdict = ch.verdict) (hseen : Seen ch x → Seen ch' x) : Back ch' p x := by
  rcases h with h | ⟨hmem, hann, hv⟩
  · exact .inl (hseen h)
  · right
    rw [hin, hverdict]
    exact ⟨hmem, hann, hv⟩

theorem Unrouted.of_longer {p : Nat} {x : Publication M} (h : Unrouted ch' p x) (hsent : ch.sent <+: ch'.sent)
    (hrouted : ch'.routed = ch.routed) (hs : Sound ch) : Unrouted ch p x := by
  obtain ⟨hx, hr, hm⟩ := h
  rw [hrouted] at hr
  have hlt : p < ch.routed.length := (List.getElem?_eq_some_iff.mp hr).1
  have hlen : p < ch.sent.length := Nat.lt_of_lt_of_le hlt hs.handled
  obtain ⟨more, hmore⟩ := hsent
  rw [← hmore, List.getElem?_append_left hlen] at hx
  exact ⟨hx, hr, hm⟩

theorem Returning.handle (hr : Returning ch) (hs : Sound ch) {x : Publication M} (hx : ch.next = some x)
    (queues : List String) : Returning (ch.handle x queues) := by
  intro hlisten p y hy
  have hlast : (ch.routed ++ [queues])[p]? = some [] := hy.routed
  by_cases hp : p = ch.routed.length
  · -- the message handled now
    subst hp
    have hyx : y = x := Option.some.inj (hy.sent.symm.trans hx)
    subst hyx
    rw [List.getElem?_concat_length] at hlast
    have hempty : queues = [] := Option.some.inj hlast
    right
    have hin : (ch.handle y queues).inbound = ch.inbound ++ [.ret y] := if_pos ⟨hy.mandatory, hempty⟩
    rw [hin]
    refine ⟨by simp, ?_, ?_⟩
    · refine announced_of_uncovered ?_
      intro tag multiple ack hmem
      have hold : .confirm tag multiple ack ∈ ch.inbound := by simpa using hmem
      have hle := hs.confirms tag multiple ack hold
      omega
    · intro hv
      have hle := hs.verdicts _ hv
      omega
  · -- one handled before
    have hlt : p < (ch.routed ++ [queues]).length := (List.getElem?_eq_some_iff.mp hlast).1
    rw [List.length_append, List.length_singleton] at hlt
    rw [List.getElem?_append_left (by omega)] at hlast
    rcases hr hlisten p y ⟨hy.sent, hlast, hy.mandatory⟩ with hseen | ⟨hmem, hann, hv⟩
    · exact .inl hseen
    · right
      simp only [PubChan.handle]
      split
      · exact ⟨List.mem_append_left _ hmem, hann.append (.inl hmem), hv⟩
      · exact ⟨hmem, hann, hv⟩

theorem Returning.confirm (hr : Returning ch) {tag : Nat} {multiple ack : Bool} :
    Returning { ch with inbound := ch.inbound ++ [.confirm tag multiple ack] } := by
  intro hlisten p x hx
  rcases hr hlisten p x ⟨hx.sent, hx.routed, hx.mandatory⟩ with hseen | ⟨hmem, hann, hv⟩
  · exact .inl hseen
  · exact .inr ⟨List.mem_append_left _ hmem, hann.append (.inl hmem), hv⟩

theorem Returning.keepReturn (hr : Returning ch) {x : Publication M} {rest : List (Inbound M)}
    (hin : ch.inbound = .ret x :: rest) (hbuf : ch.returns = []) :
    Returning { ch with inbound := rest, returns := [x] } := by
  intro hlisten p y hy
  rcases hr hlisten p y ⟨hy.sent, hy.routed, hy.mandatory⟩ with hseen | ⟨hmem, hann, hv⟩
  · left
    rcases hseen with hret | hhanded
    · rw [hbuf] at hret
      cases hret
    · exact .inr hhanded
  · by_cases hyx : y = x
    · left
      left
      rw [hyx]
      exact List.mem_singleton.mpr rfl
    · right
      rw [hin] at hmem hann
      refine ⟨?_, hann.resolve_left (Ne.symm hyx), hv⟩
      rcases List.mem_cons.mp hmem with h | h
      · exact absurd (Inbound.ret.inj h) hyx
      · exact h

theorem Returning.resolve (hr : Returning ch) {tag : Nat} {multiple ack : Bool} {rest : List (Inbound M)}
    (hin : ch.inbound = .confirm tag multiple ack :: rest) :
    Returning { ch with inbound := rest, verdict := ch.resolve tag multiple ack } := by
  intro hlisten p x hx
  rcases hr hlisten p x ⟨hx.sent, hx.routed, hx.mandatory⟩ with hseen | ⟨hmem, hann, hv⟩
  · exact .inl hseen
  · right
    rw [hin] at hmem hann
    refine ⟨?_, hann.2, ?_⟩
    · rcases List.mem_cons.mp hmem with h | h
      · cases h
      · exact h
    · intro hnew
      rcases resolve_eq_true hnew with hcover | hold
      · rw [hann.1] at hcover
        cases hcover
      · exact hv hold

theorem Returning.move (hr : Returning ch) (hs : Sound ch) (h : Move ch ch') : Returning ch' := by
  cases h with
  | enable => exact fun hl p x hx => (hr hl p x ⟨hx.sent, hx.routed, hx.mandatory⟩).frame rfl rfl id
  | refuse => exact fun hl p x hx => (hr hl p x ⟨hx.sent, hx.routed, hx.mandatory⟩).frame rfl rfl id
  | publish x =>
    intro hl p y hy
    exact (hr hl p y (hy.of_longer (List.prefix_append _ _) rfl hs)).frame rfl rfl id
  | handle x queues hx => exact hr.handle hs hx queues
  | confirm tag multiple ack htag => exact hr.confirm
  | keepReturn x rest hin hlisten hbuf => exact hr.keepReturn hin hbuf
  | dropReturn x rest hin hlisten =>
    intro hl
    rw [hlisten] at hl
    cases hl
  | resolve tag multiple ack rest hin => exact hr.resolve hin
  | listen x rest hret =>
    intro hl p y hy
    refine (hr hl p y ⟨hy.sent, hy.routed, hy.mandatory⟩).frame rfl rfl ?_
    rintro (hbuf | hhanded)
    · rw [hret] at hbuf
      rcases List.mem_cons.mp hbuf with hy | hrest
      · right
        rw [hy]
        exact List.mem_append_right _ List.mem_cons_self
      · exact .inl hrest
    · exact .inr (List.mem_append_left _ hhanded)

/- Only such messages come back, and only to a listener. -/
structure Genuine (ch : PubChan M) : Prop where
  coming : ∀ x, .ret x ∈ ch.inbound → ∃ p, Unrouted ch p x
  seen : ∀ x, Seen ch x → ch.listening = true ∧ ∃ p, Unrouted ch p x

theorem genuine_new (listening : Bool) : Genuine (new listening : PubChan M) := by
  refine ⟨fun x h => (by cases h), ?_⟩
  rintro x (h | h)
  · cases h
  · cases h

theorem Unrouted.mono {p : Nat} {x : Publication M} (h : Unrouted ch p x) (hsent : ch.sent <+: ch'.sent)
    (hrouted : ch.routed <+: ch'.routed) : Unrouted ch' p x := by
  obtain ⟨more, hmore⟩ := hsent
  obtain ⟨rest, hrest⟩ := hrouted
  refine ⟨?_, ?_, h.mandatory⟩
  · rw [← hmore, List.getElem?_append_left (List.getElem?_eq_some_iff.mp h.sent).1]
    exact h.sent
  · rw [← hrest, List.getElem?_append_left (List.getElem?_eq_some_iff.mp h.routed).1]
    exact h.routed

theorem Genuine.mono (hg : Genuine ch) (hsent : ch.sent <+: ch'.sent) (hrouted : ch.routed <+: ch'.routed)
    (hlisten : ch'.listening = ch.listening) (hin : ∀ x, .ret x ∈ ch'.inbound → .ret x ∈ ch.inbound)
    (hseen : ∀ x, Seen ch' x → Seen ch x ∨ (ch.listening = true ∧ .ret x ∈ ch.inbound)) : Genuine ch' := by
  refine ⟨?_, ?_⟩
  · intro x hx
    obtain ⟨p, hp⟩ := hg.coming x (hin x hx)
    exact ⟨p, hp.mono hsent hrouted⟩
  · intro x hx
    rcases hseen x hx with hold | ⟨hl, hcoming⟩
    · obtain ⟨hl, p, hp⟩ := hg.seen x hold
      exact ⟨hlisten.trans hl, p, hp.mono hsent hrouted⟩
    · obtain ⟨p, hp⟩ := hg.coming x hcoming
      exact ⟨hlisten.trans hl, p, hp.mono hsent hrouted⟩

theorem Genuine.handle (hg : Genuine ch) {x : Publication M} (hx : ch.next = some x) (queues : List String) :
    Genuine (ch.handle x queues) := by
  have hmono : ∀ {p y}, Unrouted ch p y → Unrouted (ch.handle x queues) p y :=
    fun h => h.mono (List.prefix_refl _) (List.prefix_append _ _)
  refine ⟨?_, ?_⟩
  · intro y hy
    simp only [PubChan.handle] at hy
    split at hy
    · rename_i hback
      rcases List.mem_append.mp hy with hold | hnew
      · obtain ⟨p, hp⟩ := hg.coming y hold
        exact ⟨p, hmono hp⟩
      · cases List.mem_singleton.mp hnew
        refine ⟨ch.routed.length, hx, ?_, hback.1⟩
        simp [PubChan.handle, hback.2]
    · obtain ⟨p, hp⟩ := hg.coming y hy
      exact ⟨p, hmono hp⟩
  · intro y hy
    obtain ⟨hl, p, hp⟩ := hg.seen y hy
    exact ⟨hl, p, hmono hp⟩

theorem Genuine.move (hg : Genuine ch) (h : Move ch ch') : Genuine ch' := by
  have hsent := h.sent
  have hrouted := h.routed
  have hl := h.listening
  cases h with
  | enable => exact hg.mono hsent hrouted hl (fun _ h => h) fun _ => .inl
  | refuse => exact hg.mono hsent hrouted hl (fun _ h => h) fun _ => .inl
  | publish x => exact hg.mono hsent hrouted hl (fun _ h => h) fun _ => .inl
  | handle x queues hx => exact hg.handle hx queues
  | confirm tag multiple ack htag => exact hg.mono hsent hrouted hl (fun x hx => (by simpa using hx)) fun _ => .inl
  | dropReturn x rest hin hlisten =>
    exact hg.mono hsent hrouted hl (fun y hy => by rw [hin]; exact List.mem_cons_of_mem _ hy) fun _ => .inl
  | resolve tag multiple ack rest hin =>
    exact hg.mono hsent hrouted hl (fun y hy => by rw [hin]; exact List.mem_cons_of_mem _ hy) fun _ => .inl
  | listen x rest hret =>
    refine hg.mono hsent hrouted hl (fun _ h => h) ?_
    rintro y (hbuf | hhanded)
    · left
      left
      rw [hret]
      exact List.mem_cons_of_mem x hbuf
    · left
      rcases List.mem_append.mp hhanded with hold | hnew
      · exact .inr hold
      · left
        rw [hret, List.mem_singleton.mp hnew]
        exact List.mem_cons_self
  | keepReturn x rest hin hlisten hbuf =>
    refine hg.mono hsent hrouted hl (fun y hy => by rw [hin]; exact List.mem_cons_of_mem _ hy) ?_
    rintro y (hnew | hhanded)
    · right
      rw [hin, List.mem_singleton.mp hnew]
      exact ⟨hlisten, List.mem_cons_self⟩
    · exact .inl (.inr hhanded)

/-- A positive verdict on a mandatory message: a queue has it, or the listener. -/
theorem Returning.of_verdict (hr : Returning ch) (hs : Sound ch) (hlisten : ch.listening = true) {p : Nat}
    {x : Publication M} (hx : ch.sent[p]? = some x) (hm : x.mandatory = true)
    (hv : ch.verdict (p + 1) = some true) :
    (∃ queues, queues ≠ [] ∧ ch.routed[p]? = some queues) ∨ Seen ch x := by
  have hlt : p < ch.routed.length := hs.verdicts (p + 1) hv
  have hp : ch.routed[p]? = some ch.routed[p] := List.getElem?_eq_getElem hlt
  by_cases hempty : ch.routed[p] = []
  · rw [hempty] at hp
    rcases hr hlisten p x ⟨hx, hp, hm⟩ with hseen | ⟨-, -, hnot⟩
    · exact .inr hseen
    · exact absurd hv hnot
  · exact .inl ⟨_, hempty, hp⟩

end PubChan

end Amqp
