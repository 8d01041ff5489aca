import Mathlib.Data.Int.Order.Basic
import Mathlib.Order.Lattice
import Ghost.Cache.Steps
import Ghost.Transition.History
import Ghost.Transition.Reach

/-!
# Waiting for another caller (cache/cache_aside.go)

A caller that finds the lock taken polls the key with growing pauses until half a
second has passed, and then runs `fn` itself. So it asks the cache a bounded number
of times, and whatever has become of the lock's holder it comes to a return.
-/

namespace Ghost.Cache
open Go Transition

/-! ### The pauses -/

/-- The pause before poll number `n`, counted from zero. -/
def pause : Nat → Int
  | 0 => 5 * millisecond
  | n + 1 => cap (pause n * 2)

/-- The time that the first `n` pauses take. -/
def waited : Nat → Int
  | 0 => 0
  | n + 1 => waited n + pause n

theorem cap_bounds {backoff : Int} (hpos : 0 < backoff) :
    0 < cap (backoff * 2) ∧ cap (backoff * 2) ≤ 50 * millisecond := by
  by_cases hlong : backoff * 2 > 50 * millisecond
  · rw [cap, if_pos hlong]
    decide
  · rw [cap, if_neg hlong]
    omega

theorem pause_bounds (n : Nat) : 0 < pause n ∧ pause n ≤ 50 * millisecond := by
  induction n with
  | zero => decide
  | succ n ih => exact cap_bounds ih.1

theorem waited_nonneg (n : Nat) : 0 ≤ waited n := by
  induction n with
  | zero => exact le_refl 0
  | succ n ih =>
    have hpause := pause_bounds n
    simp only [waited]
    omega

/-- Thirteen pauses are longer than the retry time. -/
theorem retry_le_waited {n : Nat} (h : 13 ≤ n) : retryTimeout * 10 ≤ waited n := by
  induction n, h using Nat.le_induction with
  | base => decide
  | succ n _ ih =>
    have hpause := pause_bounds n
    simp only [waited]
    omega

/-! ### What is noted of a waiter -/

/-- For each caller, when it found the lock taken and how often it has polled since. -/
structure Wait where
  armedAt : Nat → Int
  polls : Nat → Nat

def Wait.none : Wait := ⟨fun _ => 0, fun _ => 0⟩

def waits (s : Sys) (a : Action) (w : Wait) : Wait :=
  match a with
  | .clock i =>
    match (s.callers i).pc with
    | .arm => { w with armedAt := Function.update w.armedAt i s.now }
    | _ => w
  | .get i _ =>
    match (s.callers i).pc with
    | .spinGet _ _ => { w with polls := Function.update w.polls i (w.polls i + 1) }
    | _ => w
  | _ => w

theorem waits_other {s : Sys} {a : Action} {w : Wait} {j : Nat} (h : a.caller ≠ some j) :
    (waits s a w).armedAt j = w.armedAt j ∧ (waits s a w).polls j = w.polls j := by
  unfold waits
  split
  case h_1 i =>
    have hj : j ≠ i := fun hj => h (by rw [hj]; rfl)
    split
    · exact ⟨Function.update_of_ne hj .., rfl⟩
    · exact ⟨rfl, rfl⟩
  case h_2 i fail =>
    have hj : j ≠ i := fun hj => h (by rw [hj]; rfl)
    split
    · exact ⟨rfl, Function.update_of_ne hj ..⟩
    · exact ⟨rfl, rfl⟩
  case h_3 => exact ⟨rfl, rfl⟩

/-! ### The invariant of a waiter -/

/- At `pc`, for a caller that was armed at `armedAt` and has polled `polls` times. -/
def Waits (now armedAt : Int) (polls : Nat) : Pc → Prop
  | .idle | .lookup | .acquire | .arm | .doubleCheck | .leading | .storing _ | .releasing _ => polls = 0
  | .spin deadline backoff => deadline = armedAt + retryTimeout * 10 ∧ backoff = pause polls ∧
      armedAt + waited polls ≤ now ∧ polls ≤ 13
  | .waiting deadline backoff since => deadline = armedAt + retryTimeout * 10 ∧ backoff = pause polls ∧
      armedAt + waited polls ≤ since ∧ since ≤ now ∧ since < deadline
  | .spinGet deadline backoff => deadline = armedAt + retryTimeout * 10 ∧ backoff = pause polls ∧
      armedAt + waited (polls + 1) ≤ now ∧ polls < 13
  | .fallback => armedAt + retryTimeout * 10 ≤ now ∧ polls ≤ 13
  | .done _ | .crashed => polls ≤ 13

variable {s t : Sys} {w : Wait} {i : Nat} {a : Action}

/- A pause begins only before the deadline. -/
theorem polls_lt {armedAt since : Int} {polls : Nat} (hsince : armedAt + waited polls ≤ since)
    (hlt : since < armedAt + retryTimeout * 10) : polls < 13 := by
  by_contra hge
  have hlong := retry_le_waited (Nat.not_lt.mp hge)
  omega

theorem Waits.polls_le {now armedAt : Int} {polls : Nat} {pc : Pc} (h : Waits now armedAt polls pc) :
    polls ≤ 13 := by
  cases pc with
  | idle | lookup | acquire | arm | doubleCheck | leading | storing _ | releasing _ =>
    have hzero : polls = 0 := h
    omega
  | spin deadline backoff => exact h.2.2.2
  | waiting deadline backoff since =>
    obtain ⟨rfl, -, hsince, -, hlt⟩ := h
    exact (polls_lt hsince hlt).le
  | spinGet deadline backoff => exact h.2.2.2.le
  | fallback => exact h.2
  | done _ | crashed => exact h

theorem Waits.later {now later armedAt : Int} {polls : Nat} {pc : Pc} (h : Waits now armedAt polls pc)
    (hle : now ≤ later) : Waits later armedAt polls pc := by
  cases pc with
  | idle | lookup | acquire | arm | doubleCheck | leading | storing _ | releasing _ | done _ | crashed => exact h
  | spin deadline backoff | spinGet deadline backoff =>
    obtain ⟨hdeadline, hbackoff, hwaited, hpolls⟩ := h
    exact ⟨hdeadline, hbackoff, hwaited.trans hle, hpolls⟩
  | waiting deadline backoff since =>
    obtain ⟨hdeadline, hbackoff, hwaited, hsince, hlt⟩ := h
    exact ⟨hdeadline, hbackoff, hwaited, hsince.trans hle, hlt⟩
  | fallback => exact ⟨h.1.trans hle, h.2⟩

theorem Goes.keeps_waits {old new : Pc} (h : Goes s i a old new) (hpc : (s.callers i).pc = old)
    (hw : Waits s.now (w.armedAt i) (w.polls i) old) :
    Waits s.now ((Cache.waits s a w).armedAt i) ((Cache.waits s a w).polls i) new := by
  cases h with
  | hit | getFailed =>
    simp only [Cache.waits, hpc]
    exact hw.polls_le
  | miss | recheckHit | recheckMiss =>
    simp only [Cache.waits, hpc]
    exact hw
  | lockFailed | delFailed | ctxDone | fellBack | crashed => exact hw.polls_le
  | lockTaken | fnFailed | computed | setFailed => exact hw
  | armed =>
    have hzero : w.polls i = 0 := hw
    simp only [Cache.waits, hpc, Function.update_self]
    exact ⟨rfl, by rw [hzero]; rfl, by rw [hzero]; exact Int.le_of_eq (Int.add_zero s.now), by omega⟩
  | waits deadline backoff hnow =>
    obtain ⟨hdeadline, hbackoff, hwaited, -⟩ := hw
    simp only [Cache.waits, hpc]
    exact ⟨hdeadline, hbackoff, hwaited, le_refl _, hnow⟩
  | gaveUp deadline backoff hnow =>
    obtain ⟨rfl, -, -, hpolls⟩ := hw
    simp only [Cache.waits, hpc]
    exact ⟨hnow, hpolls⟩
  | woke deadline backoff since hnow =>
    obtain ⟨rfl, rfl, hwaited, hsince, hlt⟩ := hw
    refine ⟨rfl, rfl, ?_, polls_lt hwaited hlt⟩
    simp only [waited]
    have hend : since + pause (w.polls i) ≤ s.now := hnow
    show w.armedAt i + (waited (w.polls i) + pause (w.polls i)) ≤ s.now
    omega
  | spinHit =>
    obtain ⟨-, -, -, hpolls⟩ := hw
    simp only [Cache.waits, hpc, Function.update_self]
    exact hpolls
  | spinMiss fail e deadline backoff hread =>
    obtain ⟨hdeadline, rfl, hwaited, hpolls⟩ := hw
    simp only [Cache.waits, hpc, Function.update_self]
    exact ⟨hdeadline, rfl, hwaited, hpolls⟩

def AllWait (s : Sys) (w : Wait) : Prop := ∀ i, Waits s.now (w.armedAt i) (w.polls i) (s.callers i).pc

/- Caller `i` is at `pc` after the step, and the others are where they were. -/
theorem AllWait.moved {pc : Pc} (hs : AllWait s w) (ha : a.caller = some i)
    (hcallers : t.callers = (s.setPc i pc).callers) (hnow : t.now = s.now)
    (hpc : Waits s.now ((waits s a w).armedAt i) ((waits s a w).polls i) pc) : AllWait t (waits s a w) := by
  intro j
  rw [hnow, hcallers]
  by_cases hj : j = i
  · subst hj
    rw [setPc_self]
    exact hpc
  · rw [setPc_other s pc hj]
    have hother := waits_other (s := s) (w := w) (a := a) (j := j)
      (by rw [ha]; exact fun h => hj (Option.some.inj h).symm)
    rw [hother.1, hother.2]
    exact hs j

theorem allWait_step (hs : AllWait s w) (h : step s a = some t) : AllWait t (waits s a w) := by
  cases step_sysStep h with
  | tick d =>
    intro j
    exact (hs j).later (by show s.now ≤ s.now + d; omega)
  | call i args hpc =>
    have hi := hs i
    rw [hpc] at hi
    intro j
    by_cases hj : j = i
    · subst hj
      simp only [Function.update_self]
      exact hi
    · simp only [Function.update_of_ne hj]
      exact hs j
  | cancel i =>
    intro j
    by_cases hj : j = i
    · subst hj
      simp only [Function.update_self]
      exact hs j
    · simp only [Function.update_of_ne hj]
      exact hs j
  | go a i old new hpc hgo =>
    have hi := hs i
    rw [hpc] at hi
    exact hs.moved hgo.caller rfl rfl (hgo.keeps_waits hpc hi)
  | acquired i hpc hfree | stored i result hpc =>
    have hi := hs i
    rw [hpc] at hi
    exact hs.moved rfl rfl rfl hi
  | released i ret hpc =>
    have hi := hs i
    rw [hpc] at hi
    exact hs.moved rfl rfl rfl hi.polls_le

theorem allWait_run {store : Store} {now : Int} {as : List Action}
    (hrun : exec (noted step waits) (.start store now, .none) as = some (s, w)) : AllWait s w := by
  have hstart : AllWait (.start store now) .none := fun _ => rfl
  refine exec_invariant (I := fun p : Sys × Wait => AllWait p.1 p.2) ?_ hstart hrun
  intro p a q hp hq
  obtain ⟨hstep, hnote⟩ := noted_eq_some.mp hq
  rw [hnote]
  exact allWait_step hp hstep

/-- Whatever the other callers do, a caller that waits polls the cache at most
thirteen times, and it runs `fn` on its own only when half a second has passed since
it found the lock taken. -/
theorem waiter_polls (store : Store) (now : Int) (as : List Action) (s : Sys) (w : Wait)
    (hrun : exec (noted step waits) (.start store now, .none) as = some (s, w)) (i : Nat) :
    w.polls i ≤ 13 ∧ ((s.callers i).pc = .fallback → w.armedAt i + 500 * millisecond ≤ s.now) := by
  have hw := allWait_run hrun i
  refine ⟨hw.polls_le, fun hpc => ?_⟩
  rw [hpc] at hw
  exact hw.1

-- caller 0 takes the lock and crashes, and caller 1 finds the lock taken
def holderCrashes : List Action :=
  [.call 0 ⟨"user:1", second, []⟩, .get 0 none, .setNX 0 none, .crash 0, .call 1 ⟨"user:1", second, []⟩,
   .get 1 none, .setNX 1 none]

def turn (n : Nat) : List Action := [.clock 1, .tick (pause n).toNat, .select 1 true, .get 1 none]

/-- Caller 1 polls as long as it may and then gives up. -/
def pollsOut : List Action := holderCrashes.concat (.clock 1) ++ ((List.range 13).flatMap turn).concat (.clock 1)

theorem waiter_polls_out :
    ∃ s w, exec (noted step waits) (.start (fun _ => none) 0, .none) pollsOut = some (s, w) ∧
      w.polls 1 = 13 ∧ (s.callers 1).pc = .fallback ∧ w.armedAt 1 + 500 * millisecond ≤ s.now := by
  refine ⟨_, _, rfl, rfl, rfl, ?_⟩
  exact (waiter_polls (fun _ => none) 0 pollsOut _ _ rfl 1).2 rfl

/-! ### A caller comes to a return -/

/-- A step of caller `i`: no cache operation fails, `fn` gives `result`, and the clock
may go on. -/
def Own (i : Nat) (result : Except Error String) : Action → Prop
  | .tick _ => True
  | .get j fail | .setNX j fail | .set j fail | .del j fail => j = i ∧ fail = none
  | .fn j r => j = i ∧ r = result
  | .clock j => j = i
  | .select j elapsed => j = i ∧ elapsed = true
  | .call _ _ | .cancel _ | .crash _ => False

def Returned (i : Nat) (until_ : Int) (s : Sys) : Prop := s.now ≤ until_ ∧ ∃ ret, (s.callers i).pc = .done ret

section Returns

variable {result ret : Except Error String} {until_ : Int}

theorem done_returns (hpc : (s.callers i).pc = .done ret) (hu : s.now ≤ until_) :
    CanReach step (Own i result) (Returned i until_) s := .now ⟨hu, ret, hpc⟩

theorem releasing_returns (hpc : (s.callers i).pc = .releasing ret) (hu : s.now ≤ until_) :
    CanReach step (Own i result) (Returned i until_) s :=
  .after (SysStep.released i ret hpc).step ⟨rfl, rfl⟩ (done_returns (setPc_self ..) hu)

theorem storing_returns {r : String} (hpc : (s.callers i).pc = .storing r) (hu : s.now ≤ until_) :
    CanReach step (Own i result) (Returned i until_) s :=
  .after (SysStep.stored i r hpc).step ⟨rfl, rfl⟩ (releasing_returns (setPc_self ..) hu)

theorem leading_returns (hpc : (s.callers i).pc = .leading) (hu : s.now ≤ until_) :
    CanReach step (Own i result) (Returned i until_) s := by
  cases result with
  | error e =>
    exact .after ((Goes.fnFailed e).step hpc) ⟨rfl, rfl⟩ (releasing_returns (setPc_self ..) hu)
  | ok r => exact .after ((Goes.computed r).step hpc) ⟨rfl, rfl⟩ (storing_returns (setPc_self ..) hu)

theorem fallback_returns (hpc : (s.callers i).pc = .fallback) (hu : s.now ≤ until_) :
    CanReach step (Own i result) (Returned i until_) s :=
  .after ((Goes.fellBack result).step hpc) ⟨rfl, rfl⟩ (done_returns (setPc_self ..) hu)

theorem doubleCheck_returns (hpc : (s.callers i).pc = .doubleCheck) (hu : s.now ≤ until_) :
    CanReach step (Own i result) (Returned i until_) s := by
  cases hread : s.read (s.callers i).args.key none with
  | ok val =>
    exact .after ((Goes.recheckHit none val hread).step hpc) ⟨rfl, rfl⟩ (releasing_returns (setPc_self ..) hu)
  | error e =>
    exact .after ((Goes.recheckMiss none e hread).step hpc) ⟨rfl, rfl⟩ (leading_returns (setPc_self ..) hu)

-- The rest of the loop is at hand as `hspin`, for any later turn of it.
theorem spinGet_returns {deadline backoff : Int} (hpc : (s.callers i).pc = .spinGet deadline backoff)
    (hu : s.now ≤ until_)
    (hspin : CanReach step (Own i result) (Returned i until_) (s.setPc i (.spin deadline (cap (backoff * 2))))) :
    CanReach step (Own i result) (Returned i until_) s := by
  cases hread : s.read (s.callers i).args.key none with
  | ok val =>
    exact .after ((Goes.spinHit none val deadline backoff hread).step hpc) ⟨rfl, rfl⟩
      (done_returns (setPc_self ..) hu)
  | error e => exact .after ((Goes.spinMiss none e deadline backoff hread).step hpc) ⟨rfl, rfl⟩ hspin

theorem waiting_returns {deadline backoff since : Int}
    (hpc : (s.callers i).pc = .waiting deadline backoff since) (hlong : since + backoff ≤ until_) (hu : s.now ≤ until_)
    (hspin : ∀ t : Sys, (t.callers i).pc = .spin deadline (cap (backoff * 2)) → since + backoff ≤ t.now →
      t.now ≤ until_ → CanReach step (Own i result) (Returned i until_) t) :
    CanReach step (Own i result) (Returned i until_) s := by
  have hnow : s.now + ((since + backoff - s.now).toNat : Int) = max s.now (since + backoff) := by omega
  have hend : max s.now (since + backoff) ≤ until_ := max_le hu hlong
  refine .after (SysStep.tick (since + backoff - s.now).toNat).step trivial ?_
  refine .after (t := Sys.setPc { s with now := s.now + (since + backoff - s.now).toNat } i
    (.spinGet deadline backoff)) ((Goes.woke deadline backoff since ?_).step hpc) ⟨rfl, rfl⟩ ?_
  · show since + backoff ≤ s.now + ((since + backoff - s.now).toNat : Int)
    rw [hnow]
    exact le_max_right ..
  · refine spinGet_returns (setPc_self ..) ?_ (hspin _ (setPc_self ..) ?_ ?_)
    · show s.now + ((since + backoff - s.now).toNat : Int) ≤ until_
      rw [hnow]
      exact hend
    · show since + backoff ≤ s.now + ((since + backoff - s.now).toNat : Int)
      rw [hnow]
      exact le_max_right ..
    · show s.now + ((since + backoff - s.now).toNat : Int) ≤ until_
      rw [hnow]
      exact hend

/-- The loop: each turn ends later than the last one by a pause, and none begins
after the deadline. -/
theorem spin_returns {deadline backoff : Int} (n : Nat) (hn : (deadline - s.now).toNat ≤ n)
    (hpc : (s.callers i).pc = .spin deadline backoff) (hpos : 0 < backoff) (hcap : backoff ≤ 50 * millisecond)
    (hu : s.now ≤ until_) (hlong : deadline + 50 * millisecond ≤ until_) :
    CanReach step (Own i result) (Returned i until_) s := by
  induction n generalizing s backoff with
  | zero =>
    have hlate : deadline ≤ s.now := by omega
    exact .after ((Goes.gaveUp deadline backoff hlate).step hpc) rfl (fallback_returns (setPc_self ..) hu)
  | succ n ih =>
    by_cases hlate : deadline ≤ s.now
    · exact .after ((Goes.gaveUp deadline backoff hlate).step hpc) rfl (fallback_returns (setPc_self ..) hu)
    · refine .after ((Goes.waits deadline backoff (Int.not_le.mp hlate)).step hpc) rfl ?_
      refine waiting_returns (setPc_self ..) ?_ hu ?_
      · show s.now + backoff ≤ until_
        omega
      · intro t hspin hsince hut
        have hcap' := cap_bounds hpos
        have hlater : s.now + backoff ≤ t.now := hsince
        exact ih (by omega) hspin hcap'.1 hcap'.2 hut

theorem arm_returns (hpc : (s.callers i).pc = .arm) (hu : s.now + 550 * millisecond ≤ until_) :
    CanReach step (Own i result) (Returned i until_) s := by
  refine .after (Goes.armed.step hpc) rfl ?_
  refine spin_returns _ (le_refl _) (setPc_self ..) (by decide) (by decide) ?_ ?_
  · show s.now ≤ until_
    simp only [millisecond] at hu
    omega
  · simp only [retryTimeout, millisecond] at hu ⊢
    omega

theorem acquire_returns (hpc : (s.callers i).pc = .acquire) (hu : s.now + 550 * millisecond ≤ until_) :
    CanReach step (Own i result) (Returned i until_) s := by
  have hnow : s.now ≤ until_ := by
    simp only [millisecond] at hu
    omega
  cases hlock : Expiring.lookup s.store s.now (s.callers i).args.lockKey with
  | some x => exact .after ((Goes.lockTaken x hlock).step hpc) ⟨rfl, rfl⟩ (arm_returns (setPc_self ..) hu)
  | none =>
    exact .after (SysStep.acquired i hpc hlock).step ⟨rfl, rfl⟩ (doubleCheck_returns (setPc_self ..) hnow)

theorem lookup_returns (hpc : (s.callers i).pc = .lookup) (hu : s.now + 550 * millisecond ≤ until_) :
    CanReach step (Own i result) (Returned i until_) s := by
  have hnow : s.now ≤ until_ := by
    simp only [millisecond] at hu
    omega
  cases hread : s.read (s.callers i).args.key none with
  | ok val =>
    exact .after ((Goes.hit none val hread).step hpc) ⟨rfl, rfl⟩ (done_returns (setPc_self ..) hnow)
  | error e =>
    obtain ⟨-, rfl⟩ := read_eq_error hread
    exact .after ((Goes.miss none errCacheMiss hread rfl).step hpc) ⟨rfl, rfl⟩ (acquire_returns (setPc_self ..) hu)

end Returns

/-- No caller blocks another. From every state of every run, wherever the other
callers stand or have crashed, the steps of one caller alone bring it to its return,
with any result of `fn` and with at most 550 ms of waiting. -/
theorem getOrSet_returns (store : Store) (now : Int) (as : List Action) (s : Sys)
    (hrun : exec step (.start store now) as = some s) (i : Nat) (hcalled : (s.callers i).pc ≠ .idle)
    (halive : (s.callers i).pc ≠ .crashed) (result : Except Error String) :
    ∃ bs t ret, exec step s bs = some t ∧ (∀ a ∈ bs, Own i result a) ∧
      t.now ≤ s.now + 550 * millisecond ∧ (t.callers i).pc = .done ret := by
  obtain ⟨w, hnoted⟩ := exec_noted waits hrun .none
  have hw : Waits s.now (w.armedAt i) (w.polls i) (s.callers i).pc := allWait_run hnoted i
  have hnow : s.now ≤ s.now + 550 * millisecond := by
    simp only [millisecond]
    omega
  have hreach : CanReach step (Own i result) (Returned i (s.now + 550 * millisecond)) s := by
    cases hpc : (s.callers i).pc with
    | idle => exact absurd hpc hcalled
    | crashed => exact absurd hpc halive
    | lookup => exact lookup_returns hpc (le_refl _)
    | acquire => exact acquire_returns hpc (le_refl _)
    | arm => exact arm_returns hpc (le_refl _)
    | doubleCheck => exact doubleCheck_returns hpc hnow
    | leading => exact leading_returns hpc hnow
    | storing r => exact storing_returns hpc hnow
    | releasing ret => exact releasing_returns hpc hnow
    | fallback => exact fallback_returns hpc hnow
    | done ret => exact done_returns hpc hnow
    | spin deadline backoff =>
      rw [hpc] at hw
      obtain ⟨rfl, rfl, hwaited, -⟩ := hw
      have hpause := pause_bounds (w.polls i)
      have hsome := waited_nonneg (w.polls i)
      refine spin_returns _ (le_refl _) hpc hpause.1 hpause.2 hnow ?_
      simp only [retryTimeout, millisecond]
      omega
    | waiting deadline backoff since =>
      rw [hpc] at hw
      obtain ⟨rfl, rfl, hwaited, hsince, hlt⟩ := hw
      have hpause := pause_bounds (w.polls i)
      have hsome := waited_nonneg (w.polls i)
      simp only [retryTimeout, millisecond] at hpause hlt ⊢
      refine waiting_returns hpc (by omega) (by omega) ?_
      intro t hspin _ hut
      have hcap := cap_bounds hpause.1
      refine spin_returns _ (le_refl _) hspin hcap.1 hcap.2 hut ?_
      simp only [retryTimeout, millisecond]
      omega
    | spinGet deadline backoff =>
      rw [hpc] at hw
      obtain ⟨rfl, rfl, hwaited, -⟩ := hw
      have hpause := pause_bounds (w.polls i)
      have hsome := waited_nonneg (w.polls i + 1)
      have hcap := cap_bounds hpause.1
      refine spinGet_returns hpc hnow ?_
      refine spin_returns _ (le_refl _) (setPc_self ..) hcap.1 hcap.2 hnow ?_
      simp only [retryTimeout, millisecond]
      omega
  obtain ⟨bs, t, hexec, hown, htime, ret, hdone⟩ := hreach
  exact ⟨bs, t, ret, hexec, hown, htime, hdone⟩

theorem getOrSet_returns_crashed :
    ∃ s, exec step (.start (fun _ => none) 0) holderCrashes = some s ∧ (s.callers 1).pc = .arm ∧
      ∃ bs t ret, exec step s bs = some t ∧ (∀ a ∈ bs, Own 1 (.ok "ada") a) ∧
        t.now ≤ s.now + 550 * millisecond ∧ (t.callers 1).pc = .done ret := by
  obtain ⟨s, hrun, harm⟩ : ∃ s, exec step (.start (fun _ => none) 0) holderCrashes = some s ∧
      (s.callers 1).pc = .arm := ⟨_, rfl, rfl⟩
  refine ⟨s, hrun, harm, ?_⟩
  exact getOrSet_returns (fun _ => none) 0 holderCrashes s hrun 1 (by simp [harm]) (by simp [harm]) (.ok "ada")

end Ghost.Cache
