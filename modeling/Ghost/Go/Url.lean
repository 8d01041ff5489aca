import Ghost.Go.Encoding
import Mathlib.Data.List.Nodup
import Mathlib.Data.List.Sort
import Mathlib.Data.String.Basic
import Mathlib.Data.List.TakeWhile

/-!
# Query strings (net/url)

A query is a list of pairs `key=value` joined by `&`. `QueryEscape` writes every
byte of a key or a value that could be taken for a separator as `%XX`, so
`ParseQuery` reads back the pairs that `Encode` has written. A query that was put
after the `?` of an address is found again when the URL is parsed.
-/

namespace Go.Url
open Encoding

/-! ### Escapes -/

def unreserved (c : Char) : Bool := c.isAlphanum || c == '-' || c == '_' || c == '.' || c == '~'

def escapeByte (b : UInt8) : List Char := '%' :: (Hex.digits [b]).map upperDigits.digit

def escapeChar (c : Char) : List Char :=
  if unreserved c then [c] else if c = ' ' then ['+'] else (String.utf8EncodeChar c).flatMap escapeByte

def escape (s : String) : List Char := s.toList.flatMap escapeChar

def queryEscape (s : String) : String := String.ofList (escape s)

/- The bytes that a text with escapes stands for. -/
def unescape : List Char → Option (List UInt8)
  | [] => some []
  | c :: rest =>
    if c = '%' then
      match rest with
      | a :: b :: rest => do
        let x ← upperDigits.value a
        let y ← upperDigits.value b
        let bytes ← unescape rest
        return UInt8.ofNat (16 * x.val + y.val) :: bytes
      | _ => none
    else if c = '+' then (unescape rest).map (32 :: ·)
    else (unescape rest).map (String.utf8EncodeChar c ++ ·)

/- A text of bytes that are no UTF-8 is no `String`, so it is refused here. -/
def queryUnescape (cs : List Char) : Option String :=
  (unescape cs).bind fun bytes => String.fromUTF8? bytes.toByteArray

theorem unescape_cons {c : Char} (hc : c ≠ '%') (rest : List Char) : unescape (c :: rest) =
    if c = '+' then (unescape rest).map (32 :: ·) else (unescape rest).map (String.utf8EncodeChar c ++ ·) := by
  rw [unescape.eq_def]
  simp only [if_neg hc]

theorem escapeByte_eq (b : UInt8) : escapeByte b =
    ['%', upperDigits.digit (Fin.ofNat 16 (b.toNat / 16)), upperDigits.digit (Fin.ofNat 16 b.toNat)] := rfl

theorem unescape_escapeByte (b : UInt8) (rest : List Char) :
    unescape (escapeByte b ++ rest) = (unescape rest).map (b :: ·) := by
  have hlt : b.toNat < 2 ^ 8 := b.toNat_lt
  have hbyte : UInt8.ofNat (16 * (b.toNat / 16 % 16) + b.toNat % 16) = b := by
    rw [← UInt8.toNat_inj, UInt8.toNat_ofNat']
    omega
  rw [escapeByte_eq, List.cons_append, List.cons_append, List.cons_append, List.nil_append, unescape, if_pos rfl,
    upperDigits.value_digit, upperDigits.value_digit]
  simp only [Option.bind_eq_bind, Option.bind_some, Fin.val_ofNat, hbyte]
  cases unescape rest <;> rfl

theorem unescape_escapeBytes (bytes : List UInt8) (rest : List Char) :
    unescape (bytes.flatMap escapeByte ++ rest) = (unescape rest).map (bytes ++ ·) := by
  induction bytes with
  | nil => simp
  | cons b bytes ih =>
    rw [List.flatMap_cons, List.append_assoc, unescape_escapeByte, ih, Option.map_map]
    rfl

theorem unescape_escapeChar (c : Char) (rest : List Char) :
    unescape (escapeChar c ++ rest) = (unescape rest).map (String.utf8EncodeChar c ++ ·) := by
  unfold escapeChar
  split
  · rename_i hc
    have hpercent : c ≠ '%' := by
      rintro rfl
      exact absurd hc (by decide)
    have hplus : c ≠ '+' := by
      rintro rfl
      exact absurd hc (by decide)
    rw [List.cons_append, List.nil_append, unescape_cons hpercent, if_neg hplus]
  · split
    · rename_i hc
      subst hc
      rw [List.cons_append, List.nil_append, unescape_cons (by decide), if_pos rfl]
      rfl
    · exact unescape_escapeBytes _ rest

theorem unescape_escape (s : String) : unescape (escape s) = some (s.toList.flatMap String.utf8EncodeChar) := by
  unfold escape
  induction s.toList with
  | nil => rfl
  | cons c cs ih =>
    rw [List.flatMap_cons, unescape_escapeChar, ih]
    rfl

theorem queryUnescape_escape (s : String) : queryUnescape (escape s) = some s := by
  have hbytes : (s.toList.flatMap String.utf8EncodeChar).toByteArray = s.toByteArray := String.utf8Encode_toList
  rw [queryUnescape, unescape_escape, Option.bind_some, hbytes, String.fromUTF8?, dif_pos s.isValidUTF8]
  rfl

/- What an escaped text is written with. -/
theorem mem_escape {s : String} {c : Char} (h : c ∈ escape s) : unreserved c = true ∨ c = '%' ∨ c = '+' := by
  obtain ⟨x, -, hx⟩ := List.mem_flatMap.mp h
  have hdigit : ∀ d, unreserved (upperDigits.digit d) = true := by decide
  unfold escapeChar at hx
  split at hx
  · rename_i hx'
    rw [List.mem_singleton] at hx
    subst hx
    exact .inl hx'
  · split at hx
    · exact .inr (.inr (List.mem_singleton.mp hx))
    · obtain ⟨b, -, hb⟩ := List.mem_flatMap.mp hx
      rcases List.mem_cons.mp hb with rfl | hb
      · exact .inr (.inl rfl)
      · obtain ⟨d, -, rfl⟩ := List.mem_map.mp hb
        exact .inl (hdigit d)

theorem not_mem_escape {c : Char} (s : String) (hc : unreserved c = false) (hpercent : c ≠ '%') (hplus : c ≠ '+') :
    c ∉ escape s := by
  intro h
  rcases mem_escape h with h | h | h
  · rw [hc] at h
    cases h
  · exact hpercent h
  · exact hplus h

/-! ### Queries -/

-- `strings.Cut`
def cut (sep : Char) (cs : List Char) : List Char × List Char :=
  (cs.takeWhile (· != sep), (cs.dropWhile (· != sep)).drop 1)

theorem cut_append {sep : Char} {key : List Char} (hkey : sep ∉ key) (rest : List Char) :
    cut sep (key ++ sep :: rest) = (key, rest) := by
  have hall : ∀ c ∈ key, (c != sep) = true := by
    intro c hc
    rw [bne_iff_ne]
    rintro rfl
    exact hkey hc
  have htake : (key ++ sep :: rest).takeWhile (· != sep) = key := by
    rw [List.takeWhile_append_of_pos hall]
    simp
  have hdrop : (key ++ sep :: rest).dropWhile (· != sep) = sep :: rest := by
    rw [List.dropWhile_append_of_pos hall]
    simp
  rw [cut, htake, hdrop]
  rfl

def encodePair (p : String × String) : List Char := escape p.1 ++ '=' :: escape p.2

def encodeQuery (values : List (String × String)) : List Char := ['&'].intercalate (values.map encodePair)

/- A pair with a semicolon or a broken escape is left out. -/
def parsePair (cs : List Char) : Option (String × String) :=
  if ';' ∈ cs ∨ cs = [] then none
  else do
    let key ← queryUnescape (cut '=' cs).1
    let value ← queryUnescape (cut '=' cs).2
    return (key, value)

def parseQuery (cs : List Char) : List (String × String) := (cs.splitOn '&').filterMap parsePair

/-- `Values.Get`: the first value, or the empty string. -/
def get (values : List (String × String)) (key : String) : String :=
  ((values.find? fun p => p.1 == key).map Prod.snd).getD ""

theorem parsePair_encodePair (p : String × String) : parsePair (encodePair p) = some p := by
  have hsemi : ';' ∉ encodePair p := by
    simp [encodePair, not_mem_escape p.1 (by decide : unreserved ';' = false),
      not_mem_escape p.2 (by decide : unreserved ';' = false)]
  have hne : encodePair p ≠ [] := by simp [encodePair]
  have hcut : cut '=' (encodePair p) = (escape p.1, escape p.2) :=
    cut_append (not_mem_escape p.1 (by decide) (by decide) (by decide)) _
  rw [parsePair, if_neg (not_or.mpr ⟨hsemi, hne⟩), hcut, queryUnescape_escape, queryUnescape_escape]
  rfl

theorem amp_not_mem_encodePair (p : String × String) : '&' ∉ encodePair p := by
  simp [encodePair, not_mem_escape p.1 (by decide : unreserved '&' = false),
    not_mem_escape p.2 (by decide : unreserved '&' = false)]

/-- What was encoded is read back, in the same order. -/
theorem parseQuery_encodeQuery (values : List (String × String)) : parseQuery (encodeQuery values) = values := by
  unfold parseQuery encodeQuery
  cases values with
  | nil => rfl
  | cons p values =>
    rw [List.splitOn_intercalate]
    · simp [List.filterMap_map, parsePair_encodePair]
    · intro cs hcs
      obtain ⟨q, -, rfl⟩ := List.mem_map.mp hcs
      exact amp_not_mem_encodePair q
    · simp

theorem get_of_mem {values : List (String × String)} {key value : String} (hkeys : (values.map Prod.fst).Nodup)
    (h : (key, value) ∈ values) : get values key = value := by
  induction values with
  | nil => cases h
  | cons p values ih =>
    obtain ⟨hp, hrest⟩ := List.nodup_cons.mp hkeys
    rcases List.mem_cons.mp h with rfl | h
    · simp [get]
    · have hne : p.1 ≠ key := by
        rintro rfl
        exact hp (List.mem_map.mpr ⟨_, h, rfl⟩)
      have hskip : get (p :: values) key = get values key := by
        simp [get, hne]
      rw [hskip]
      exact ih hrest h

/-! ### URLs -/

/- The query of a URL: after the first `?` of what stands before the fragment. -/
def rawQuery (url : List Char) : List Char := (cut '?' (cut '#' url).1).2

/-- `Query().Get(key)` of a parsed URL. -/
def queryParam (url key : String) : String := get (parseQuery (rawQuery url.toList)) key

/-- `Values.Encode`, sorted by key. -/
def encode (values : List (String × String)) : String :=
  String.ofList (encodeQuery (values.insertionSort fun p q => p.1 ≤ q.1))

def withQuery (address : String) (values : List (String × String)) : String := address ++ "?" ++ encode values

theorem hash_not_mem_encodeQuery (values : List (String × String)) : '#' ∉ encodeQuery values := by
  have hpair (p : String × String) : '#' ∉ encodePair p := by
    simp [encodePair, not_mem_escape p.1 (by decide : unreserved '#' = false),
      not_mem_escape p.2 (by decide : unreserved '#' = false)]
  intro h
  unfold encodeQuery at h
  induction values with
  | nil => cases h
  | cons p values ih =>
    cases values with
    | nil =>
      simp only [List.map_cons, List.map_nil, List.intercalate_singleton] at h
      exact hpair p h
    | cons q values =>
      simp only [List.map_cons, List.intercalate_cons_cons, List.mem_append, List.mem_singleton] at h
      rcases h with (h | h) | h
      · exact hpair p h
      · exact absurd h (by decide)
      · exact ih (by simpa only [List.map_cons] using h)

theorem queryParam_withQuery {address key value : String} {values : List (String × String)}
    (hquery : '?' ∉ address.toList) (hfragment : '#' ∉ address.toList) (hkeys : (values.map Prod.fst).Nodup)
    (h : (key, value) ∈ values) : queryParam (withQuery address values) key = value := by
  obtain ⟨sorted, hsorted⟩ : ∃ sorted, sorted = values.insertionSort fun p q => p.1 ≤ q.1 := ⟨_, rfl⟩
  have hperm : sorted.Perm values := hsorted ▸ List.perm_insertionSort _ values
  have htext : (withQuery address values).toList = address.toList ++ '?' :: encodeQuery sorted := by
    simp [withQuery, encode, hsorted]
  have hall : (cut '#' (address.toList ++ '?' :: encodeQuery sorted)).1 = address.toList ++ '?' :: encodeQuery sorted := by
    have hnone : '#' ∉ address.toList ++ '?' :: encodeQuery sorted := by
      simp [hfragment, hash_not_mem_encodeQuery]
    refine List.takeWhile_eq_self_iff.mpr ?_
    intro c hc
    rw [bne_iff_ne]
    rintro rfl
    exact hnone hc
  rw [queryParam, htext, rawQuery, hall, cut_append hquery, parseQuery_encodeQuery]
  exact get_of_mem ((hperm.map Prod.fst).nodup_iff.mpr hkeys) (hperm.mem_iff.mpr h)

end Go.Url
