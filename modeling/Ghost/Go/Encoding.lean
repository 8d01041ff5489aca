import Mathlib.Data.List.Basic
import Mathlib.Logic.Function.Basic

/-!
# Bytes as text (encoding/hex, encoding/base64)

A byte string is cut into digits, two of four bits for each byte (`hex`) or four
of six bits for each three bytes (`base64.RawURLEncoding`, which writes no
padding), and each digit is a character of an alphabet. The digits can be put
together again, so the text determines the bytes.
-/

namespace Go.Encoding

/-! ### Digits and characters -/

/-- Characters for `n` digits; `value` reads a digit back. -/
structure Alphabet (n : Nat) where
  digit : Fin n → Char
  value : Char → Option (Fin n)
  value_digit : ∀ d, value (digit d) = some d

variable {n : Nat}

theorem Alphabet.digit_injective (α : Alphabet n) : Function.Injective α.digit := by
  intro d e h
  have hvalue : some d = some e := by rw [← α.value_digit d, ← α.value_digit e, h]
  exact Option.some.inj hvalue

def Alphabet.spell (α : Alphabet n) (digits : List (Fin n)) : String := String.ofList (digits.map α.digit)

theorem Alphabet.spell_injective (α : Alphabet n) : Function.Injective α.spell := by
  intro ds es h
  have hchars : ds.map α.digit = es.map α.digit := by
    have hlists := congrArg String.toList h
    rwa [Alphabet.spell, Alphabet.spell, String.toList_ofList, String.toList_ofList] at hlists
  exact List.map_injective_iff.mpr α.digit_injective hchars

theorem Alphabet.length_spell (α : Alphabet n) (digits : List (Fin n)) :
    (α.spell digits).length = digits.length := by
  rw [Alphabet.spell, String.length_ofList, List.length_map]

theorem Alphabet.mem_spell (α : Alphabet n) {digits : List (Fin n)} {c : Char}
    (h : c ∈ (α.spell digits).toList) : ∃ d, c = α.digit d := by
  rw [Alphabet.spell, String.toList_ofList] at h
  obtain ⟨d, -, hd⟩ := List.mem_map.mp h
  exact ⟨d, hd.symm⟩

def hexDigits : Alphabet 16 where
  digit d := Char.ofNat (if d.val < 10 then 48 + d.val else 87 + d.val)
  value c := if h : c.toNat - 48 < 10 ∧ 48 ≤ c.toNat then some ⟨c.toNat - 48, by omega⟩
    else if h : c.toNat - 87 < 16 ∧ 97 ≤ c.toNat then some ⟨c.toNat - 87, by omega⟩ else none
  value_digit := by decide

-- written in upper case, read in either
def upperDigits : Alphabet 16 where
  digit d := Char.ofNat (if d.val < 10 then 48 + d.val else 55 + d.val)
  value c := if h : c.toNat - 48 < 10 ∧ 48 ≤ c.toNat then some ⟨c.toNat - 48, by omega⟩
    else if h : c.toNat - 55 < 16 ∧ 65 ≤ c.toNat then some ⟨c.toNat - 55, by omega⟩
    else if h : c.toNat - 87 < 16 ∧ 97 ≤ c.toNat then some ⟨c.toNat - 87, by omega⟩ else none
  value_digit := by decide

/-- Upper case, lower case, the decimal digits, `-` and `_`. -/
def urlDigits : Alphabet 64 where
  digit d := Char.ofNat (if d.val < 26 then 65 + d.val else if d.val < 52 then 71 + d.val
    else if d.val < 62 then d.val - 4 else if d.val = 62 then 45 else 95)
  value c := if h : c.toNat - 65 < 26 ∧ 65 ≤ c.toNat then some ⟨c.toNat - 65, by omega⟩
    else if h : c.toNat - 71 < 52 ∧ 97 ≤ c.toNat then some ⟨c.toNat - 71, by omega⟩
    else if h : c.toNat + 4 < 62 ∧ 48 ≤ c.toNat then some ⟨c.toNat + 4, by omega⟩
    else if c.toNat = 45 then some 62 else if c.toNat = 95 then some 63 else none
  value_digit := by decide

/-! ### Hexadecimal -/

namespace Hex

def digits : List UInt8 → List (Fin 16)
  | [] => []
  | a :: bytes => Fin.ofNat 16 (a.toNat / 16) :: Fin.ofNat 16 a.toNat :: digits bytes

def encodeToString (data : List UInt8) : String := hexDigits.spell (digits data)

end Hex

/-! ### Base64 for URLs, without padding -/

namespace RawURL

/-- The last group is filled up with zero bits. -/
def digits : List UInt8 → List (Fin 64)
  | [] => []
  | [a] => [Fin.ofNat 64 (a.toNat / 4), Fin.ofNat 64 (a.toNat % 4 * 16)]
  | [a, b] => [Fin.ofNat 64 (a.toNat / 4), Fin.ofNat 64 (a.toNat % 4 * 16 + b.toNat / 16),
      Fin.ofNat 64 (b.toNat % 16 * 4)]
  | a :: b :: c :: bytes => Fin.ofNat 64 (a.toNat / 4) :: Fin.ofNat 64 (a.toNat % 4 * 16 + b.toNat / 16) ::
      Fin.ofNat 64 (b.toNat % 16 * 4 + c.toNat / 64) :: Fin.ofNat 64 (c.toNat % 64) :: digits bytes

def bytes : List (Fin 64) → List UInt8
  | [p, q] => [UInt8.ofNat (4 * p.val + q.val / 16)]
  | [p, q, r] => [UInt8.ofNat (4 * p.val + q.val / 16), UInt8.ofNat (q.val % 16 * 16 + r.val / 4)]
  | p :: q :: r :: s :: ds => UInt8.ofNat (4 * p.val + q.val / 16) ::
      UInt8.ofNat (q.val % 16 * 16 + r.val / 4) :: UInt8.ofNat (r.val % 4 * 64 + s.val) :: bytes ds
  | _ => []

-- The first, second and third byte of a group, from the digits over which they are spread.
theorem first_byte (a : UInt8) (k : Nat) (hk : k < 16) :
    UInt8.ofNat (4 * (a.toNat / 4 % 64) + (a.toNat % 4 * 16 + k) % 64 / 16) = a := by
  have hlt : a.toNat < 2 ^ 8 := a.toNat_lt
  rw [← UInt8.toNat_inj, UInt8.toNat_ofNat']
  omega

theorem second_byte (a b : UInt8) (k : Nat) (hk : k < 4) :
    UInt8.ofNat ((a.toNat % 4 * 16 + b.toNat / 16) % 64 % 16 * 16 + (b.toNat % 16 * 4 + k) % 64 / 4) = b := by
  have hlt : b.toNat < 2 ^ 8 := b.toNat_lt
  rw [← UInt8.toNat_inj, UInt8.toNat_ofNat']
  omega

theorem third_byte (b c : UInt8) :
    UInt8.ofNat ((b.toNat % 16 * 4 + c.toNat / 64) % 64 % 4 * 64 + c.toNat % 64 % 64) = c := by
  have hlt : c.toNat < 2 ^ 8 := c.toNat_lt
  rw [← UInt8.toNat_inj, UInt8.toNat_ofNat']
  omega

theorem div_lt_of_byte (a : UInt8) : a.toNat / 16 < 16 ∧ a.toNat / 64 < 4 := by
  have hlt : a.toNat < 2 ^ 8 := a.toNat_lt
  omega

theorem bytes_digits (data : List UInt8) : bytes (digits data) = data := by
  induction data using digits.induct with
  | case1 => rfl
  | case2 a =>
    have hfirst := first_byte a 0 (by omega)
    simp only [digits, bytes, Fin.val_ofNat]
    simp only [Nat.add_zero] at hfirst
    rw [hfirst]
  | case3 a b =>
    have hfirst := first_byte a _ (div_lt_of_byte b).1
    have hsecond := second_byte a b 0 (by omega)
    simp only [digits, bytes, Fin.val_ofNat]
    simp only [Nat.add_zero] at hsecond
    rw [hfirst, hsecond]
  | case4 a b c data ih =>
    have hfirst := first_byte a _ (div_lt_of_byte b).1
    have hsecond := second_byte a b _ (div_lt_of_byte c).2
    simp only [digits, bytes, Fin.val_ofNat, ih]
    rw [hfirst, hsecond, third_byte]

def encodeToString (data : List UInt8) : String := urlDigits.spell (digits data)

theorem encodeToString_injective : Function.Injective encodeToString :=
  urlDigits.spell_injective.comp (Function.LeftInverse.injective bytes_digits)

/-- `n` bytes make eight bits each, six to a character. -/
theorem length_digits (data : List UInt8) : (digits data).length = (8 * data.length + 5) / 6 := by
  induction data using digits.induct with
  | case1 => rfl
  | case2 a => simp [digits]
  | case3 a b => simp [digits]
  | case4 a b c data ih =>
    simp only [digits, List.length_cons, ih]
    omega

theorem length_encodeToString (data : List UInt8) :
    (encodeToString data).length = (8 * data.length + 5) / 6 := by
  rw [encodeToString, Alphabet.length_spell, length_digits]

end RawURL

end Go.Encoding
