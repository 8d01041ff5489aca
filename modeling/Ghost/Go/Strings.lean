import Mathlib.Data.List.Infix

/-!
# Go strings

`strings.Contains`, and `strings.ToLower` as far as a search for an ASCII text can
tell: of the letters outside ASCII only two have a lower case in ASCII, and the
others stand for themselves here.
-/

namespace Go.Strings

def lowerRune (c : Char) : Char :=
  if c = '\u0130' then 'i' else if c = '\u212a' then 'k' else c.toLower

def toLower (s : String) : String := String.ofList (s.toList.map lowerRune)

def contains (s sub : String) : Bool := decide (sub.toList <:+: s.toList)

/-! ### A text in several parts -/

section Infix

variable {α : Type*} {l xs ys : List α} {c : α}

-- An element that `l` does not have separates the places where `l` may be.
theorem infix_append_cons_iff (hc : c ∉ l) : l <:+: xs ++ c :: ys ↔ l <:+: xs ∨ l <:+: ys := by
  constructor
  · rintro ⟨p, s, h⟩
    obtain ⟨a, hxs, -⟩ | ⟨a, hpl, hys⟩ := List.append_eq_append_iff.mp h
    · exact .inl ⟨p, a, hxs.symm⟩
    · cases a with
      | nil =>
        rw [List.append_nil] at hpl
        exact .inl ⟨p, [], by rw [List.append_nil, hpl]⟩
      | cons b a =>
        obtain ⟨rfl, rfl⟩ : c = b ∧ ys = a ++ s := by simpa using hys
        obtain ⟨d, -, hl⟩ | ⟨d, -, hd⟩ := List.append_eq_append_iff.mp hpl
        · exact absurd (by simp [hl]) hc
        · cases d with
          | nil => exact absurd (by simp [← show c :: a = l from hd]) hc
          | cons e d =>
            obtain ⟨-, rfl⟩ : c = e ∧ a = d ++ l := by simpa using hd
            exact .inr ⟨d, s, rfl⟩
  · rintro (h | h)
    · exact h.trans (List.prefix_append xs (c :: ys)).isInfix
    · exact h.trans ((List.suffix_cons c ys).trans (List.suffix_append xs (c :: ys))).isInfix

theorem infix_cons_iff_of_head_ne (hl : l.head? ≠ some c) : l <:+: c :: ys ↔ l <:+: ys := by
  rw [List.infix_cons_iff]
  constructor
  · rintro (h | h)
    · cases l with
      | nil => exact List.nil_infix
      | cons b l =>
        obtain ⟨rfl, -⟩ := List.cons_prefix_cons.mp h
        exact absurd rfl hl
    · exact h
  · exact .inr

end Infix

end Go.Strings
