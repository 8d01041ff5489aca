import Ghost.Go.Url
import Ghost.OAuth2.Manager

/-!
# Random strings and PKCE (oauth2/utils.go)

What `crypto/rand` gives is an input; the strings are what the code makes of it.
-/

namespace Ghost.OAuth2
open Go Go.Encoding Go.Url

/-- What `rand.Read` makes of a buffer of `n` bytes: it fills the buffer or fails. -/
abbrev Read (n : Nat) := Except Error (Vector UInt8 n)

def generateRandomString (length : Nat) (read : Read length) : Except Error String :=
  read.map fun bytes => Hex.encodeToString bytes.toList

def base64URLEncode (data : List UInt8) : String := RawURL.encodeToString data

def generateCodeVerifier (read : Read 32) : Except Error String :=
  read.map fun bytes => base64URLEncode bytes.toList

/-- `sha256.Sum256` of a string. -/
def digest (sum256 : List UInt8 → Vector UInt8 32) (s : String) : Vector UInt8 32 := sum256 s.toUTF8.data.toList

def generateCodeChallenge (sum256 : List UInt8 → Vector UInt8 32) (verifier : String) : String :=
  base64URLEncode (digest sum256 verifier).toList

/-- The draws of `GetAuthURL`, in their order. -/
def Random.ofReads (state nonce codeVerifier : Read 32) : Random :=
  match generateRandomString 32 state with
  | .error e => .stateError e
  | .ok state =>
    match generateRandomString 32 nonce with
    | .error e => .nonceError e
    | .ok nonce =>
      match generateCodeVerifier codeVerifier with
      | .error e => .verifierError e
      | .ok codeVerifier => .drawn state nonce codeVerifier

/-! ### What a verifier has to be -/

/-- A code verifier as RFC 7636 has it. -/
structure ValidVerifier (verifier : String) : Prop where
  long : 43 ≤ verifier.length
  short : verifier.length ≤ 128
  plain : ∀ c ∈ verifier.toList, unreserved c = true

theorem unreserved_urlDigits : ∀ d, unreserved (urlDigits.digit d) = true := by decide

theorem base64URLEncode_valid (bytes : Vector UInt8 32) : ValidVerifier (base64URLEncode bytes.toList) := by
  have hlength : (base64URLEncode bytes.toList).length = 43 := by
    rw [base64URLEncode, RawURL.length_encodeToString, Vector.length_toList]
  refine ⟨by omega, by omega, fun c hc => ?_⟩
  obtain ⟨d, rfl⟩ := urlDigits.mem_spell hc
  exact unreserved_urlDigits d

/-- Equal challenges are challenges of equal digests. -/
theorem digest_eq_of_challenge_eq {sum256 : List UInt8 → Vector UInt8 32} {v w : String}
    (h : generateCodeChallenge sum256 v = generateCodeChallenge sum256 w) : digest sum256 v = digest sum256 w :=
  Vector.toList_inj.mp (RawURL.encodeToString_injective h)

theorem Random.ofReads_drawn {state nonce codeVerifier : Read 32} {st n v : String}
    (h : Random.ofReads state nonce codeVerifier = .drawn st n v) : ValidVerifier v := by
  unfold Random.ofReads at h
  split at h
  case h_1 => cases h
  case h_2 =>
    split at h
    case h_1 => cases h
    case h_2 =>
      split at h
      case h_1 => cases h
      case h_2 hv =>
        cases h
        cases codeVerifier with
        | error e => cases hv
        | ok bytes =>
          cases hv
          exact base64URLEncode_valid bytes

end Ghost.OAuth2
