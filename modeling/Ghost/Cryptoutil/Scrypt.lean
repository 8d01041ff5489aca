import Ghost.Go.ErrorTree
import Ghost.Go.Panic

/-!
# Key derivation (cryptoutil/scrypt.go, cryptoutil/client.go)

`NewScrypter` checks `N` only, and `DeriveKey` hands all four parameters to
`scrypt.Key`. That function is not part of the repository: it is a parameter here,
with what is documented of it as assumptions.
-/

namespace Ghost.Cryptoutil
open Go

abbrev ScryptErr := Err Empty

abbrev Bytes := List UInt8

structure ScryptConfig where
  n : Int64
  r : Int64
  p : Int64
  keyLen : Int64
  deriving DecidableEq

def defaultScryptConfig : ScryptConfig := ⟨32768, 8, 1, 32⟩

def errInvalidParams : ScryptErr :=
  .node { id := .var "ErrInvalidParams", text := "scrypt: invalid parameters" } []

def errKeyDerivation : ScryptErr :=
  .node { id := .var "ErrKeyDerivation", text := "scrypt: key derivation failed" } []

def NotPowerOfTwo (n : Int64) : Prop := n ≤ 1 ∨ n &&& (n - 1) ≠ 0

instance (n : Int64) : Decidable (NotPowerOfTwo n) := inferInstanceAs (Decidable (_ ∨ _))

structure Scrypter extends ScryptConfig where
  powerOfTwo : ¬ NotPowerOfTwo n

def ScryptConfig.orDefault (cfg : ScryptConfig) : ScryptConfig :=
  if cfg = ⟨0, 0, 0, 0⟩ then defaultScryptConfig else cfg

/- `ptr` is what `fmt.Errorf` allocates. -/
def newScrypter (ptr : Nat) (cfg : ScryptConfig) : Except ScryptErr Scrypter :=
  let cfg := cfg.orDefault
  if h : NotPowerOfTwo cfg.n then
    .error (.errorf ptr (errInvalidParams.error ++ ": N must be a power of two > 1") [errInvalidParams])
  else .ok ⟨cfg, h⟩

/-- The type of `scrypt.Key`. -/
abbrev KeyFunc := (password salt : Bytes) → (n r p keyLen : Int64) → Eval (Except ScryptErr Bytes)

def deriveKey (key : KeyFunc) (ptr : Nat) (s : Scrypter) (password salt : Bytes) : Eval (Except ScryptErr Bytes) :=
  match key password salt s.n s.r s.p s.keyLen with
  | .error panic => .error panic
  | .ok (.error err) =>
    .ok (.error (.errorf ptr (errKeyDerivation.error ++ ": " ++ err.error) [errKeyDerivation, err]))
  | .ok (.ok key) => .ok (.ok key)

/-! ### What is documented of `scrypt.Key` -/

/-- The limits on the parameters, besides `N` being a power of two. -/
def Limits (n r p : Int64) : Prop :=
  0 < r.toInt ∧ 0 < p.toInt ∧ r.toInt * p.toInt < 2 ^ 30 ∧ 128 * (n.toInt * r.toInt) < 2 ^ 63

instance (n r p : Int64) : Decidable (Limits n r p) := inferInstanceAs (Decidable (_ ∧ _))

/-- There is room for the table of `N` blocks, for the `p` blocks that are mixed, each
of `128 * r` bytes, and for the key. -/
structure Room (mem : Memory) (n r p keyLen : Int64) : Prop where
  table : mem.fits (128 * (n.toInt * r.toInt))
  blocks : mem.fits (128 * (r.toInt * p.toInt))
  key : mem.fits keyLen.toInt

/-- Parameters that break the limits are refused with an error, and no others are. Within
the limits the function makes the table and the blocks, and it returns the `keyLen`
bytes of a slice it made. -/
structure Documented (mem : Memory) (key : KeyFunc) : Prop where
  refuses : ∀ password salt n r p keyLen, ¬ NotPowerOfTwo n → ¬ Limits n r p →
    ∃ err, key password salt n r p keyLen = .ok (.error err)
  accepts : ∀ password salt n r p keyLen err, ¬ NotPowerOfTwo n → Limits n r p →
    key password salt n r p keyLen ≠ .ok (.error err)
  makes : ∀ password salt n r p keyLen k, key password salt n r p keyLen = .ok (.ok k) →
    mem.fits (128 * (n.toInt * r.toInt)) ∧ mem.fits (128 * (r.toInt * p.toInt)) ∧ mem.fits k.length
  length : ∀ password salt n r p keyLen k, key password salt n r p keyLen = .ok (.ok k) →
    (k.length : Int) = keyLen.toInt
  derives : ∀ password salt n r p keyLen, ¬ NotPowerOfTwo n → Limits n r p → Room mem n r p keyLen →
    ∃ k, key password salt n r p keyLen = .ok (.ok k)

/-! ### What a caller of `DeriveKey` can rely on -/

/-- A key of the wanted length, or an error in the class of this package. -/
def Answers (keyLen : Int64) : Eval (Except ScryptErr Bytes) → Prop
  | .error _ => False
  | .ok (.error err) => err.is (.var "ErrKeyDerivation") = true
  | .ok (.ok key) => (key.length : Int) = keyLen.toInt

def Usable (key : KeyFunc) (s : Scrypter) : Prop :=
  ∀ ptr password salt, Answers s.keyLen (deriveKey key ptr s password salt)

section Usable

variable {mem : Memory} {key : KeyFunc} {s : Scrypter} {ptr : Nat} {password salt : Bytes}

theorem is_errKeyDerivation (text : String) (err : ScryptErr) :
    (Err.errorf ptr text [errKeyDerivation, err]).is (.var "ErrKeyDerivation") = true := by
  simp [Err.is, Err.errorf, Err.walk, Err.walkAll, errKeyDerivation]

/- Within the limits `scrypt.Key` returns a key where there is room for it, and
nothing else. -/
theorem Documented.returns_iff (hkey : Documented mem key) (hin : Limits s.n s.r s.p) :
    (∃ ret, key password salt s.n s.r s.p s.keyLen = .ok ret) ↔ Room mem s.n s.r s.p s.keyLen := by
  constructor
  · rintro ⟨ret, hret⟩
    cases ret with
    | error err => exact absurd hret (hkey.accepts password salt _ _ _ _ err s.powerOfTwo hin)
    | ok k =>
      obtain ⟨htable, hblocks, hk⟩ := hkey.makes password salt _ _ _ _ k hret
      rw [hkey.length password salt _ _ _ _ k hret] at hk
      exact ⟨htable, hblocks, hk⟩
  · intro hroom
    obtain ⟨k, hk⟩ := hkey.derives password salt _ _ _ _ s.powerOfTwo hin hroom
    exact ⟨.ok k, hk⟩

/- Whatever `scrypt.Key` returns is passed on as asked; only a panic is not. -/
theorem Documented.answers_iff (hkey : Documented mem key) :
    Answers s.keyLen (deriveKey key ptr s password salt) ↔
      ∃ ret, key password salt s.n s.r s.p s.keyLen = .ok ret := by
  unfold deriveKey
  split <;> rename_i hret
  · exact iff_of_false id (by rintro ⟨ret, h⟩; cases hret.symm.trans h)
  · exact iff_of_true (is_errKeyDerivation _ _) ⟨_, hret⟩
  · exact iff_of_true (hkey.length password salt _ _ _ _ _ hret) ⟨_, hret⟩

theorem newScrypter_ok {cfg : ScryptConfig} (h : newScrypter ptr cfg = .ok s) :
    s.toScryptConfig = cfg.orDefault := by
  simp only [newScrypter] at h
  split at h
  · cases h
  · cases h
    rfl

end Usable

-- one GiB
def smallMachine : Memory where
  fits n := 0 ≤ n ∧ n ≤ 2 ^ 30
  nonneg _ h := h.1
  limit _ h := Int.le_trans h.2 (by decide)

-- the key of "password" and "salt" under the default parameters
def sampleKey : Bytes :=
  [75, 192, 253, 80, 126, 147, 166, 0, 118, 128, 33, 52, 30, 199, 38, 197, 124, 0, 203, 85, 164, 112, 42, 22, 80,
   19, 19, 101, 80, 12, 244, 113]

instance (n r p keyLen : Int64) : Decidable (Room smallMachine n r p keyLen) :=
  decidable_of_iff ((0 ≤ 128 * (n.toInt * r.toInt) ∧ 128 * (n.toInt * r.toInt) ≤ 2 ^ 30) ∧
      (0 ≤ 128 * (r.toInt * p.toInt) ∧ 128 * (r.toInt * p.toInt) ≤ 2 ^ 30) ∧ 0 ≤ keyLen.toInt ∧ keyLen.toInt ≤ 2 ^ 30)
    ⟨fun ⟨htable, hblocks, hkey⟩ => ⟨htable, hblocks, hkey⟩, fun h => ⟨h.table, h.blocks, h.key⟩⟩

-- Refuses and panics as `scrypt.Key` does; of the keys it only knows one.
def sampleScrypt : KeyFunc := fun _ _ n r p keyLen =>
  if NotPowerOfTwo n then .ok (.error (.node { id := .ptr 0, text := "scrypt: N must be > 1 and a power of 2" } []))
  else if ¬ Limits n r p then .ok (.error (.node { id := .ptr 1, text := "scrypt: parameters are too large" } []))
  else if Room smallMachine n r p keyLen then
    .ok (.ok ((sampleKey ++ List.replicate (keyLen.toInt.toNat - 32) 0).take keyLen.toInt.toNat))
  else .error ⟨"runtime error: makeslice: len out of range"⟩

theorem sampleScrypt_documented : Documented smallMachine sampleScrypt := by
  have hreturns : ∀ password salt n r p keyLen k, sampleScrypt password salt n r p keyLen = .ok (.ok k) →
      Room smallMachine n r p keyLen ∧ (k.length : Int) = keyLen.toInt := by
    intro password salt n r p keyLen k h
    unfold sampleScrypt at h
    split at h
    · cases h
    split at h
    · cases h
    split at h
    · rename_i hroom
      cases h
      have hlen : sampleKey.length = 32 := rfl
      have hpos := hroom.key.1
      refine ⟨hroom, ?_⟩
      simp only [List.length_take, List.length_append, List.length_replicate, hlen]
      omega
    · cases h
  refine ⟨?_, ?_, ?_, ?_, ?_⟩
  · intro password salt n r p keyLen hn hout
    exact ⟨_, by rw [sampleScrypt, if_neg hn, if_pos hout]⟩
  · intro password salt n r p keyLen err hn hin h
    rw [sampleScrypt, if_neg hn, if_neg (not_not_intro hin)] at h
    split at h <;> cases h
  · intro password salt n r p keyLen k h
    obtain ⟨hroom, hlen⟩ := hreturns _ _ _ _ _ _ _ h
    exact ⟨hroom.table, hroom.blocks, by rw [hlen]; exact hroom.key⟩
  · exact fun _ _ _ _ _ _ _ h => (hreturns _ _ _ _ _ _ _ h).2
  · intro password salt n r p keyLen hn hin hroom
    exact ⟨_, by rw [sampleScrypt, if_neg hn, if_neg (not_not_intro hin), if_pos hroom]⟩

/-- The configuration is accepted, and every call panics. -/
def AcceptedPanics (cfg : ScryptConfig) : Prop :=
  ∃ s, newScrypter 0 cfg = .ok s ∧ ∀ mem key, Documented mem key →
    ∀ ptr password salt, ∃ panic, deriveKey key ptr s password salt = .error panic

/- Parameters within the limits for which no memory suffices. -/
theorem acceptedPanics_of_not_room {cfg : ScryptConfig} (hn : ¬ NotPowerOfTwo cfg.orDefault.n)
    (hin : Limits cfg.orDefault.n cfg.orDefault.r cfg.orDefault.p)
    (hroom : ∀ mem, ¬ Room mem cfg.orDefault.n cfg.orDefault.r cfg.orDefault.p cfg.orDefault.keyLen) :
    AcceptedPanics cfg := by
  obtain ⟨s, hs⟩ : ∃ s : Scrypter, s = ⟨cfg.orDefault, hn⟩ := ⟨_, rfl⟩
  have hcfg : s.toScryptConfig = cfg.orDefault := by rw [hs]
  rw [← hcfg] at hin hroom
  refine ⟨s, by rw [newScrypter, dif_neg hn, hs], fun mem key hkey ptr password salt => ?_⟩
  cases hret : key password salt s.n s.r s.p s.keyLen with
  | error panic => exact ⟨panic, by simp only [deriveKey, hret]⟩
  | ok ret => exact absurd ((hkey.returns_iff hin).mp ⟨ret, hret⟩) (hroom mem)

end Ghost.Cryptoutil
