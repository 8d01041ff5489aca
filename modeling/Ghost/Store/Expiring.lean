import Mathlib.Logic.Function.Basic

/-!
# Maps whose entries expire

A partial map from keys to values, each entry with an optional instant from
which it no longer exists. Reading is relative to a clock, and what a later
reading finds an earlier one would have found too.
-/

namespace Expiring

structure Entry (V : Type*) where
  value : V
  expires : Option Int
  deriving DecidableEq

variable {K V : Type*}

def Entry.live (e : Entry V) (now : Int) : Bool :=
  match e.expires with
  | none => true
  | some t => decide (now < t)

def lookup (m : K → Option (Entry V)) (now : Int) (k : K) : Option V :=
  (m k).bind fun e => if e.live now then some e.value else none

section Update

variable [DecidableEq K]

def put (m : K → Option (Entry V)) (k : K) (v : V) (expires : Option Int) : K → Option (Entry V) :=
  Function.update m k (some ⟨v, expires⟩)

def remove (m : K → Option (Entry V)) (k : K) : K → Option (Entry V) := Function.update m k none

end Update

variable {m : K → Option (Entry V)} {now later : Int} {k other : K} {v w : V} {expires : Option Int}

theorem Entry.live_mono {e : Entry V} (hle : now ≤ later) (h : e.live later = true) :
    e.live now = true := by
  unfold Entry.live at h ⊢
  cases hx : e.expires with
  | none => rfl
  | some t =>
    simp only [hx, decide_eq_true_eq] at h ⊢
    omega

theorem lookup_mono (hle : now ≤ later) (h : lookup m later k = some v) : lookup m now k = some v := by
  unfold lookup at h ⊢
  obtain ⟨e, he, hv⟩ := Option.bind_eq_some_iff.mp h
  split at hv
  · rename_i hlive
    rw [he, Option.bind_some, if_pos (Entry.live_mono hle hlive)]
    exact hv
  · cases hv

theorem lookup_none_mono (hle : now ≤ later) (h : lookup m now k = none) : lookup m later k = none := by
  cases hlater : lookup m later k with
  | none => rfl
  | some v => exact absurd (h.symm.trans (lookup_mono hle hlater)) (by simp)

-- An entry that is still there is the entry that was there.
theorem lookup_stays (hle : now ≤ later) (h : lookup m now k = some v)
    (hsome : (lookup m later k).isSome = true) : lookup m later k = some v := by
  obtain ⟨w, hw⟩ := Option.isSome_iff_exists.mp hsome
  rw [hw, ← h, lookup_mono hle hw]

-- An entry without expiry is found at any time.
theorem lookup_permanent (h : m k = some ⟨v, none⟩) : lookup m now k = some v := by
  rw [lookup, h]
  rfl

-- An entry that is found will expire, or is there for good.
theorem expires_or_permanent (h : lookup m now k = some v) :
    (∃ t, now < t ∧ lookup m t k = none) ∨ m k = some ⟨v, none⟩ := by
  obtain ⟨⟨w, expires⟩, he, hv⟩ := Option.bind_eq_some_iff.mp h
  split at hv
  · rename_i hlive
    cases hv
    cases expires with
    | none => exact .inr he
    | some t =>
      refine .inl ⟨t, of_decide_eq_true hlive, ?_⟩
      simp [lookup, he, Entry.live]
  · cases hv

variable [DecidableEq K]

theorem lookup_put_self (h : ∀ t, expires = some t → now < t) :
    lookup (put m k v expires) now k = some v := by
  unfold lookup put
  rw [Function.update_self, Option.bind_some]
  cases expires with
  | none => rfl
  | some t => simp [Entry.live, h t rfl]

-- Whatever is found under a key just written is what was written.
theorem lookup_put_eq (h : lookup (put m k v expires) now k = some w) : w = v := by
  unfold lookup put at h
  rw [Function.update_self, Option.bind_some] at h
  split at h
  · exact (Option.some.inj h).symm
  · cases h

theorem lookup_put_other (h : other ≠ k) : lookup (put m k v expires) now other = lookup m now other := by
  unfold lookup put
  rw [Function.update_of_ne h]

theorem lookup_remove_self : lookup (remove m k) now k = none := by
  simp [lookup, remove]

theorem lookup_remove_other (h : other ≠ k) : lookup (remove m k) now other = lookup m now other := by
  unfold lookup remove
  rw [Function.update_of_ne h]

end Expiring
