import Mathlib.Data.Int.Order.Basic
import Mathlib.Order.Lattice
import Ghost.Cache.SingleFlight

/-!
# How old a cached value is (cache/cache_aside.go)

A value leaves the cache a duration after it was stored, not after it was
computed: between the return of `fn` and the `Set` any time may pass. What a call
is served is no older than the two together.
-/

namespace Ghost.Cache
open Go Transition

/-! ### What is noted of the values of a key -/

structure Computation where
  -- as it was stored
  value : String
  computedAt : Int
  storedAt : Int
  deriving DecidableEq

/-- For each caller what `fn` gave it and when, and what a `Get` gave it and when; and
what was stored under the key. -/
structure Ages where
  computed : Nat → Option (String × Int)
  served : Nat → Option (String × Int)
  stored : List Computation

def Ages.none : Ages := ⟨fun _ => Option.none, fun _ => Option.none, []⟩

def Ages.store (h : Ages) (args : Args) (i : Nat) (now : Int) : Pc → Ages
  | .storing r =>
    match h.computed i with
    | some (_, computedAt) => { h with stored := ⟨args.storeVal r, computedAt, now⟩ :: h.stored }
    | Option.none => h
  | _ => h

def ages (key : String) (s : Sys) (a : Action) (h : Ages) : Ages :=
  match a with
  | .fn i (.ok r) => { h with computed := Function.update h.computed i (some (r, s.now)) }
  | .get i fail =>
    match s.read (s.callers i).args.key fail with
    | .ok val => { h with served := Function.update h.served i (some (val, s.now)) }
    | .error _ => h
  | .set i Option.none =>
    if (s.callers i).args.key = key then h.store (s.callers i).args i s.now (s.callers i).pc else h
  | _ => h

/-- Calls on the key have a duration up to `ttl`, no call has the key as the name of
its lock, and the result of `fn` is stored within `delay`. -/
def Prompt (key : String) (ttl delay : Int) (p : Sys × Ages) : Action → Prop
  | .call _ args => args.lockKey ≠ key ∧ (args.key = key → 0 < args.ttl ∧ args.ttl ≤ ttl)
  | .set i Option.none => ∀ c ∈ p.2.computed i, p.1.now ≤ c.2 + delay
  | _ => True

instance (key : String) (ttl delay : Int) (p : Sys × Ages) : (a : Action) → Decidable (Prompt key ttl delay p a)
  | .call _ args => inferInstanceAs (Decidable
      (args.lockKey ≠ key ∧ (args.key = key → 0 < args.ttl ∧ args.ttl ≤ ttl)))
  | .set i Option.none => inferInstanceAs (Decidable (∀ c ∈ p.2.computed i, p.1.now ≤ c.2 + delay))
  | .set _ (some _) | .tick _ | .cancel _ | .crash _ | .get _ _ | .setNX _ _ | .del _ _ | .fn _ _ | .clock _
  | .select _ _ => .isTrue trivial

/-! ### The invariant -/

section Invariant

variable {key : String} {ttl delay : Int} {s t : Sys} {h k : Ages} {i : Nat} {a : Action}

/-- The computation was stored in time. -/
structure Computation.Timely (delay now : Int) (c : Computation) : Prop where
  before : c.computedAt ≤ c.storedAt
  soon : c.storedAt ≤ c.computedAt + delay
  past : c.storedAt ≤ now

def Fresh (ttl delay : Int) (stored : List Computation) (val : String) (at_ : Int) : Prop :=
  ∃ c ∈ stored, c.value = val ∧ c.Timely delay at_ ∧ at_ < c.storedAt + max ttl millisecond

/-- Where the value comes from that a caller is about to store or to return. -/
def Origin (now : Int) (computed served : Option (String × Int)) : Pc → Prop
  | .idle => served = none
  | .storing r => ∃ at_, computed = some (r, at_) ∧ at_ ≤ now
  | .releasing (.ok v) | .done (.ok v) =>
    (∃ at_, computed = some (v, at_)) ∨ ∃ val at_, served = some (val, at_) ∧ v = fromStore val
  | _ => True

/-- The entry is a computation, and leaves the cache in time. -/
def Entered (ttl delay now : Int) (stored : List Computation) (e : Expiring.Entry Stored) : Prop :=
  ∃ c ∈ stored, c.value = e.value.value ∧ c.Timely delay now ∧
    ∃ x, e.expires = some x ∧ x ≤ c.storedAt + max ttl millisecond

structure Aged (key : String) (ttl delay : Int) (s : Sys) (h : Ages) : Prop where
  called : ∀ i, (s.callers i).pc.active = true → (s.callers i).args.lockKey ≠ key ∧
    ((s.callers i).args.key = key → 0 < (s.callers i).args.ttl ∧ (s.callers i).args.ttl ≤ ttl)
  entry : ∀ e, s.store key = some e → Entered ttl delay s.now h.stored e
  served : ∀ i val at_, (s.callers i).args.key = key → h.served i = some (val, at_) →
    Fresh ttl delay h.stored val at_
  callers : ∀ i, Origin s.now (h.computed i) (h.served i) (s.callers i).pc

theorem aged_start (key : String) (ttl delay now : Int) : Aged key ttl delay (.start (fun _ => none) now) .none := by
  refine ⟨fun _ hi => (by cases hi), ?_, ?_, fun _ => rfl⟩
  · intro e he
    cases he
  · intro i val at_ _ hserved
    cases hserved

theorem Origin.later {now later : Int} {computed served : Option (String × Int)} {pc : Pc}
    (ho : Origin now computed served pc) (hle : now ≤ later) : Origin later computed served pc := by
  unfold Origin at ho ⊢
  split
  case h_2 r =>
    obtain ⟨at_, hat, hbefore⟩ := ho
    exact ⟨at_, hat, hbefore.trans hle⟩
  case h_1 | h_3 | h_4 => exact ho
  case h_5 => trivial

/-- What a read of the key gives is fresh. -/
theorem Aged.read (hs : Aged key ttl delay s h) {fail : Option Error} {val : String}
    (hread : s.read key fail = .ok val) : Fresh ttl delay h.stored val s.now := by
  obtain ⟨x, hx, rfl⟩ := read_eq_ok hread
  obtain ⟨e, he, hlive⟩ := Option.bind_eq_some_iff.mp hx
  obtain ⟨c, hc, hvalue, htimely, expires, hexpires, hle⟩ := hs.entry e he
  by_cases halive : e.live s.now = true
  · rw [if_pos halive] at hlive
    cases hlive
    have hlt : s.now < expires := by
      simpa only [Expiring.Entry.live, hexpires, decide_eq_true_eq] using halive
    exact ⟨c, hc, hvalue, htimely, hlt.trans_le hle⟩
  · rw [if_neg halive] at hlive
    cases hlive

/- Caller `i` goes on; the notes of the others stay. -/
theorem Aged.moved {pc : Pc} (hs : Aged key ttl delay s h)
    (hcalled : pc.active = true → (s.callers i).pc.active = true)
    (hcallers : t.callers = (s.setPc i pc).callers) (hnow : t.now = s.now)
    (hentry : ∀ e, t.store key = some e → s.store key = some e ∨ Entered ttl delay s.now k.stored e)
    (hstored : ∀ c ∈ h.stored, c ∈ k.stored) (hcomputed : ∀ j, j ≠ i → k.computed j = h.computed j)
    (hserved : ∀ j, j ≠ i → k.served j = h.served j)
    (hfresh : ∀ val at_, (s.callers i).args.key = key → k.served i = some (val, at_) →
      Fresh ttl delay h.stored val at_)
    (horigin : Origin s.now (k.computed i) (k.served i) pc) : Aged key ttl delay t k := by
  have hargs : ∀ j, (t.callers j).args = (s.callers j).args := by
    intro j
    rw [hcallers, setPc_args]
  have hkept : ∀ val at_, Fresh ttl delay h.stored val at_ → Fresh ttl delay k.stored val at_ := by
    rintro val at_ ⟨c, hc, hrest⟩
    exact ⟨c, hstored c hc, hrest⟩
  refine ⟨?_, ?_, ?_, ?_⟩
  · intro j hj
    rw [hargs]
    by_cases hji : j = i
    · subst hji
      rw [hcallers, setPc_self] at hj
      exact hs.called j (hcalled hj)
    · rw [hcallers, setPc_other s pc hji] at hj
      exact hs.called j hj
  · intro e he
    rw [hnow]
    rcases hentry e he with hold | hnew
    · obtain ⟨c, hc, hrest⟩ := hs.entry e hold
      exact ⟨c, hstored c hc, hrest⟩
    · exact hnew
  · intro j val at_ hkey hj
    rw [hargs] at hkey
    by_cases hji : j = i
    · subst hji
      exact hkept val at_ (hfresh val at_ hkey hj)
    · rw [hserved j hji] at hj
      exact hkept val at_ (hs.served j val at_ hkey hj)
  · intro j
    rw [hnow, hcallers]
    by_cases hji : j = i
    · subst hji
      rw [setPc_self]
      exact horigin
    · rw [setPc_other s pc hji, hcomputed j hji, hserved j hji]
      exact hs.callers j

/- The same with no note at all. -/
theorem Aged.quiet {pc : Pc} (hs : Aged key ttl delay s h) (hcalled : pc.active = true → (s.callers i).pc.active = true)
    (hcallers : t.callers = (s.setPc i pc).callers) (hnow : t.now = s.now) (hstore : t.store key = s.store key)
    (horigin : Origin s.now (h.computed i) (h.served i) pc) : Aged key ttl delay t h :=
  hs.moved hcalled hcallers hnow (fun _ he => .inl (hstore ▸ he)) (fun _ => id) (fun _ _ => rfl) (fun _ _ => rfl)
    (fun val at_ => hs.served i val at_) horigin

theorem ages_hit {fail : Option Error} {val : String} (hread : s.read (s.callers i).args.key fail = .ok val) :
    ages key s (.get i fail) h = { h with served := Function.update h.served i (some (val, s.now)) } := by
  simp only [ages, hread]

theorem ages_miss {fail : Option Error} {e : Error} (hread : s.read (s.callers i).args.key fail = .error e) :
    ages key s (.get i fail) h = h := by
  simp only [ages, hread]

/- A hit: the caller is served, and goes on to where the value is its own. -/
theorem Aged.hit {fail : Option Error} {val : String} {pc : Pc} (hs : Aged key ttl delay s h)
    (hcalled : pc.active = true → (s.callers i).pc.active = true) (hread : s.read (s.callers i).args.key fail = .ok val)
    (horigin : ∀ computed, Origin s.now computed (some (val, s.now)) pc) :
    Aged key ttl delay (s.setPc i pc) (ages key s (.get i fail) h) := by
  rw [ages_hit hread]
  refine hs.moved hcalled rfl rfl (fun _ => .inl) (fun _ => id) (fun _ _ => rfl)
    (fun j hj => Function.update_of_ne hj ..) ?_ ?_
  · intro v at_ hkey hserved
    simp only [Function.update_self] at hserved
    cases hserved
    rw [hkey] at hread
    exact hs.read hread
  · simp only [Function.update_self]
    exact horigin _

/- `fn` returns: its result is the caller's own. -/
theorem Aged.computes {r : String} {pc : Pc} (hs : Aged key ttl delay s h) (hcalled : pc.active = true → (s.callers i).pc.active = true)
    (horigin : ∀ served, Origin s.now (some (r, s.now)) served pc) :
    Aged key ttl delay (s.setPc i pc) (ages key s (.fn i (.ok r)) h) := by
  refine hs.moved hcalled rfl rfl (fun _ => .inl) (fun _ => id) (fun j hj => Function.update_of_ne hj ..)
    (fun _ _ => rfl) (fun val at_ => hs.served i val at_) ?_
  simp only [ages, Function.update_self]
  exact horigin _

theorem Aged.goes {old new : Pc} (hs : Aged key ttl delay s h) (hpc : (s.callers i).pc = old)
    (hgo : Goes s i a old new) : Aged key ttl delay (s.setPc i new) (ages key s a h) := by
  have horigin := hs.callers i
  rw [hpc] at horigin
  cases hgo with
  | hit fail val hread | recheckHit fail val hread | spinHit fail val _ _ hread =>
    exact hs.hit (fun _ => by rw [hpc]; rfl) hread (fun _ => .inr ⟨val, s.now, rfl, rfl⟩)
  | miss fail e hread | getFailed fail e hread | recheckMiss fail e hread | spinMiss fail e _ _ hread =>
    rw [ages_miss hread]
    exact hs.quiet (fun _ => by rw [hpc]; rfl) rfl rfl rfl trivial
  | computed r => exact hs.computes (fun _ => by rw [hpc]; rfl) (fun _ => ⟨s.now, rfl, le_refl _⟩)
  | fellBack ret =>
    cases ret with
    | error e => exact hs.quiet (fun _ => by rw [hpc]; rfl) rfl rfl rfl trivial
    | ok r => exact hs.computes (fun _ => by rw [hpc]; rfl) (fun _ => .inl ⟨s.now, rfl⟩)
  | delFailed e ret =>
    refine hs.quiet (fun _ => by rw [hpc]; rfl) rfl rfl rfl ?_
    cases ret with
    | error e => trivial
    | ok v => exact horigin
  | lockFailed | lockTaken | fnFailed | setFailed | armed | waits | gaveUp | woke | ctxDone =>
    exact hs.quiet (fun _ => by rw [hpc]; rfl) rfl rfl rfl trivial
  | crashed => exact hs.quiet (fun hactive => by cases hactive) rfl rfl rfl trivial

/- The lock's entries are not the key's. -/
theorem Aged.locks {pc : Pc} {st : Store} {dels : List (Nat × Option Nat)} (hs : Aged key ttl delay s h)
    (hactive : (s.callers i).pc.active = true)
    (hstore : ∀ other, other ≠ (s.callers i).args.lockKey → st other = s.store other)
    (horigin : Origin s.now (h.computed i) (h.served i) pc) :
    Aged key ttl delay (Sys.setPc { s with store := st, dels := dels } i pc) h :=
  hs.quiet (fun _ => hactive) rfl rfl (hstore key (hs.called i hactive).1.symm) horigin

theorem expiry_le (now : Int) {args : Int} (hpos : 0 < args) (hle : args ≤ ttl) :
    ∃ x, expiry now args = some x ∧ x ≤ now + max ttl millisecond := by
  refine ⟨_, if_pos hpos, ?_⟩
  simp only [millisecond]
  omega

/- `Set` on the key: the entry is the computation just noted. -/
theorem Aged.stores {r : String} (hs : Aged key ttl delay s h) (hpc : (s.callers i).pc = .storing r)
    (hprompt : Prompt key ttl delay (s, h) (.set i none)) :
    Aged key ttl delay (Sys.setPc { s with
      store := set s.store s.now (s.callers i).args.key ((s.callers i).args.storeVal r) (s.callers i).args.ttl } i
        (.releasing (.ok r))) (ages key s (.set i none) h) := by
  have hactive : (s.callers i).pc.active = true := by rw [hpc]; rfl
  have horigin := hs.callers i
  rw [hpc] at horigin
  obtain ⟨at_, hcomputed, hbefore⟩ := horigin
  by_cases hkey : (s.callers i).args.key = key
  · obtain ⟨hpos, hle⟩ := (hs.called i hactive).2 hkey
    have hnote : ages key s (.set i none) h =
        { h with stored := ⟨(s.callers i).args.storeVal r, at_, s.now⟩ :: h.stored } := by
      simp only [ages, if_pos hkey, hpc, Ages.store, hcomputed]
    have hsoon : s.now ≤ at_ + delay := hprompt (r, at_) hcomputed
    rw [hnote]
    refine hs.moved (fun _ => hactive) rfl rfl ?_ (fun _ => List.mem_cons_of_mem _) (fun _ _ => rfl)
      (fun _ _ => rfl) (fun val t => hs.served i val t) (.inl ⟨at_, hcomputed⟩)
    intro e he
    have hkeep : (s.callers i).args.ttl ≠ -1 := by omega
    obtain ⟨x, hx, hxle⟩ := expiry_le s.now hpos hle
    have hentry : ⟨⟨(s.callers i).args.storeVal r, none⟩, some x⟩ = e := by
      simpa [set, Expiring.put, hkey, hkeep, hx] using he
    subst hentry
    exact .inr ⟨_, List.mem_cons_self, rfl, ⟨hbefore, hsoon, le_refl _⟩, x, rfl, hxle⟩
  · have hnote : ages key s (.set i none) h = h := by simp only [ages, if_neg hkey]
    rw [hnote]
    exact hs.quiet (fun _ => hactive) rfl rfl (Function.update_of_ne (Ne.symm hkey) ..) (.inl ⟨at_, hcomputed⟩)

theorem aged_step (hs : Aged key ttl delay s h) (hok : Prompt key ttl delay (s, h) a) (hstep : step s a = some t) :
    Aged key ttl delay t (ages key s a h) := by
  cases step_sysStep hstep with
  | tick d =>
    have hle : s.now ≤ s.now + d := by omega
    refine ⟨hs.called, ?_, hs.served, fun i => (hs.callers i).later hle⟩
    intro e he
    obtain ⟨c, hc, hvalue, htimely, hexpires⟩ := hs.entry e he
    exact ⟨c, hc, hvalue, ⟨htimely.before, htimely.soon, htimely.past.trans hle⟩, hexpires⟩
  | call i args hpc =>
    have horigin := hs.callers i
    rw [hpc] at horigin
    have hnone : h.served i = none := horigin
    refine ⟨?_, hs.entry, ?_, ?_⟩
    · intro j hj
      by_cases hji : j = i
      · subst hji
        simp only [Function.update_self]
        exact hok
      · simp only [Function.update_of_ne hji] at hj ⊢
        exact hs.called j hj
    · intro j val at_ hkey hj
      by_cases hji : j = i
      · subst hji
        cases hnone.symm.trans hj
      · simp only [Function.update_of_ne hji] at hkey
        exact hs.served j val at_ hkey hj
    · intro j
      by_cases hji : j = i
      · subst hji
        simp only [Function.update_self]
        trivial
      · simp only [Function.update_of_ne hji]
        exact hs.callers j
  | cancel i =>
    have hsame : ∀ j, (Function.update s.callers i { s.callers i with ctxDone := true } j).pc = (s.callers j).pc ∧
        (Function.update s.callers i { s.callers i with ctxDone := true } j).args = (s.callers j).args := by
      intro j
      by_cases hji : j = i
      · subst hji
        simp only [Function.update_self, and_self]
      · simp only [Function.update_of_ne hji, and_self]
    refine ⟨?_, hs.entry, ?_, ?_⟩
    · intro j hj
      simp only [(hsame j).1, (hsame j).2] at hj ⊢
      exact hs.called j hj
    · intro j val at_ hkey hj
      simp only [(hsame j).2] at hkey
      exact hs.served j val at_ hkey hj
    · intro j
      simp only [(hsame j).1]
      exact hs.callers j
  | go a i old new hpc hgo => exact hs.goes hpc hgo
  | acquired i hpc hfree =>
    exact hs.locks (by rw [hpc]; rfl) (fun _ ho => Function.update_of_ne ho ..) trivial
  | stored i r hpc => exact hs.stores hpc hok
  | released i ret hpc =>
    have horigin := hs.callers i
    rw [hpc] at horigin
    refine hs.locks (by rw [hpc]; rfl) (fun _ ho => Function.update_of_ne ho ..) ?_
    cases ret with
    | error e => trivial
    | ok v => exact horigin

end Invariant

/-- From an empty store, and as long as the key is not the name of a lock of any call:
what a call on the key returns is a result of its own `fn`, or it was served from
the cache, and then it was computed by a call on the key, at most the duration and
the delay of the `Set` before it was served. -/
theorem returned_fresh (key : String) (ttl delay now : Int) (as : List Action) (s : Sys) (h : Ages)
    (hrun : exec (noted step (ages key)) (.start (fun _ => none) now, .none) as = some (s, h))
    (hok : Meets (noted step (ages key)) (Prompt key ttl delay) (.start (fun _ => none) now, .none) as)
    (i : Nat) (v : String) (hkey : (s.callers i).args.key = key) (hdone : (s.callers i).pc = .done (.ok v)) :
    (∃ at_, h.computed i = some (v, at_)) ∨
      ∃ val at_, h.served i = some (val, at_) ∧ v = fromStore val ∧
        ∃ c ∈ h.stored, c.value = val ∧ c.computedAt ≤ at_ ∧ at_ < c.computedAt + delay + max ttl millisecond := by
  have hinv : Aged key ttl delay s h := by
    refine exec_invariant_meets (I := fun p : Sys × Ages => Aged key ttl delay p.1 p.2) ?_
      (aged_start key ttl delay now) hok hrun
    intro p a q hp hok hq
    obtain ⟨hstep, hnote⟩ := noted_eq_some.mp hq
    rw [hnote]
    exact aged_step hp hok hstep
  have horigin := hinv.callers i
  rw [hdone] at horigin
  rcases horigin with hown | ⟨val, at_, hserved, hv⟩
  · exact .inl hown
  · obtain ⟨c, hc, hvalue, htimely, hlt⟩ := hinv.served i val at_ hkey hserved
    have hbefore := htimely.before
    have hsoon := htimely.soon
    have hpast := htimely.past
    exact .inr ⟨val, at_, hserved, hv, c, hc, hvalue, by omega, by omega⟩

-- caller 0 stores its value 2 s after it has computed it, and caller 1 is served 59 s later
def oldValue : List Action :=
  [.call 0 ⟨"user:1", 60 * second, []⟩, .get 0 none, .setNX 0 none, .get 0 none, .fn 0 (.ok "ada"),
   .tick 2000000000, .set 0 none, .del 0 none, .tick 59000000000, .call 1 ⟨"user:1", 60 * second, []⟩, .get 1 none]

theorem returned_fresh_old :
    ∃ s h, exec (noted step (ages "user:1")) (.start (fun _ => none) 0, .none) oldValue = some (s, h) ∧
      (s.callers 1).pc = .done (.ok "ada") ∧ h.served 1 = some ("ada", 61000000000) ∧
      ((∃ at_, h.computed 1 = some ("ada", at_)) ∨ ∃ val at_, h.served 1 = some (val, at_) ∧ "ada" = fromStore val ∧
        ∃ c ∈ h.stored, c.value = val ∧ c.computedAt ≤ at_ ∧
          at_ < c.computedAt + 2 * second + max (60 * second) millisecond) := by
  have hok : Meets (noted step (ages "user:1")) (Prompt "user:1" (60 * second) (2 * second))
      (.start (fun _ => none) 0, .none) oldValue := meets_of_checks (by decide +kernel)
  refine ⟨_, _, rfl, rfl, rfl, ?_⟩
  exact returned_fresh "user:1" (60 * second) (2 * second) 0 oldValue _ _ rfl hok 1 "ada" rfl rfl

end Ghost.Cache
