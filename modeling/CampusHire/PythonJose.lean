import CampusHire.Base64url
import CampusHire.Jwt

/-!
# The tokens of python-jose

`jwt.decode` cuts the token at its last dot and what is before it at its first one,
decodes the three segments, and compares the signature with the HMAC of everything
before the last dot, as it is written.  So it reads the signature segment for its
bytes alone.  JSON and the HMAC are parameters.
-/

namespace CampusHire

open Base64url

/-! ## Segments -/

/-- `split(separator, 1)` in two parts, `none` when there is no separator. -/
def splitFirst {α : Type*} [DecidableEq α] (separator : α) : List α → Option (List α × List α)
  | [] => none
  | c :: rest =>
    if c = separator then some ([], rest)
    else (splitFirst separator rest).map fun parts => (c :: parts.1, parts.2)

/-- `rsplit(separator, 1)` in two parts. -/
def splitLast {α : Type*} [DecidableEq α] (separator : α) : List α → Option (List α × List α)
  | [] => none
  | c :: rest =>
    match splitLast separator rest with
    | some parts => some (c :: parts.1, parts.2)
    | none => if c = separator then some ([], rest) else none

section Segments

variable {α : Type*} [DecidableEq α] {separator : α}

theorem splitFirst_append {l : List α} (h : separator ∉ l) (rest : List α) :
    splitFirst separator (l ++ separator :: rest) = some (l, rest) := by
  induction l with
  | nil => simp [splitFirst]
  | cons c l ih =>
    have hc : c ≠ separator := Ne.symm (List.ne_of_not_mem_cons h)
    have hl : separator ∉ l := List.not_mem_of_not_mem_cons h
    rw [List.cons_append, splitFirst, if_neg hc, ih hl]
    rfl

theorem splitLast_eq_none {l : List α} (h : separator ∉ l) : splitLast separator l = none := by
  induction l with
  | nil => rfl
  | cons c l ih =>
    have hc : c ≠ separator := Ne.symm (List.ne_of_not_mem_cons h)
    have hl : separator ∉ l := List.not_mem_of_not_mem_cons h
    rw [splitLast, ih hl, if_neg hc]

/-- What is written behind the last segment belongs to it. -/
theorem splitLast_append {l : List α} (h : separator ∉ l) (front : List α) :
    splitLast separator (front ++ l) =
      (splitLast separator front).map fun parts => (parts.1, parts.2 ++ l) := by
  induction front with
  | nil => rw [List.nil_append, splitLast_eq_none h, splitLast, Option.map_none]
  | cons c front ih =>
    rw [List.cons_append, splitLast, ih, splitLast]
    rcases splitLast separator front with _ | parts
    · dsimp only [Option.map_none]
      split
      · rfl
      · rfl
    · rfl

theorem splitLast_separator {l : List α} (h : separator ∉ l) (front : List α) :
    splitLast separator (front ++ separator :: l) = some (front, l) := by
  have hlast : splitLast separator (separator :: l) = some ([], l) := by
    rw [splitLast, splitLast_eq_none h, if_pos rfl]
  induction front with
  | nil => exact hlast
  | cons c front ih => rw [List.cons_append, splitLast, ih]

end Segments

/-! ## Bytes of a token -/

def dot : UInt8 := 46

/-- `token.encode("utf-8")` -/
def utf8 (token : String) : List UInt8 := token.toList.flatMap String.utf8EncodeChar

def ofAscii (bytes : List UInt8) : String :=
  String.ofList (bytes.map fun b => Char.ofNat b.toNat)

theorem utf8_append (token rest : String) : utf8 (token ++ rest) = utf8 token ++ utf8 rest := by
  rw [utf8, String.toList_append, List.flatMap_append]
  rfl

theorem encodeChar_ascii : ∀ n < 128, String.utf8EncodeChar (Char.ofNat n) = [UInt8.ofNat n] := by
  decide +kernel

theorem utf8_ofAscii {bytes : List UInt8} (h : ∀ b ∈ bytes, b.toNat < 128) :
    utf8 (ofAscii bytes) = bytes := by
  rw [utf8, ofAscii, String.toList_ofList]
  induction bytes with
  | nil => rfl
  | cons b rest ih =>
    have hb := encodeChar_ascii b.toNat (h b List.mem_cons_self)
    rw [List.map_cons, List.flatMap_cons, hb, UInt8.ofNat_toNat,
      ih fun b' hb' => h b' (List.mem_cons_of_mem b hb'), List.singleton_append]

theorem digit_plain : ∀ n < 64, digit n ≠ dot ∧ (digit n).toNat < 128 := by decide +kernel

/-! ## `jws` and `jwt` -/

/-- The libraries under python-jose: the JSON of the header with its algorithm, that of
    the claims, and the HMAC of an algorithm and a key. -/
structure Backend where
  writeHeader : String → List UInt8
  readAlgorithm : List UInt8 → Option String
  writeClaims : Payload → List UInt8
  readClaims : List UInt8 → Option Payload
  hmac : String → String → List UInt8 → List UInt8

namespace Backend

/-- `jws._load`: header, payload, what is signed, and the signature. -/
structure Loaded where
  header : List UInt8
  payload : List UInt8
  signingInput : List UInt8
  signature : List UInt8

def load (token : List UInt8) : Option Loaded := do
  let (signingInput, cryptoSegment) ← splitLast dot token
  let (headerSegment, claimsSegment) ← splitFirst dot signingInput
  let header ← decode headerSegment
  let payload ← decode claimsSegment
  let signature ← decode cryptoSegment
  return ⟨header, payload, signingInput, signature⟩

variable (backend : Backend)

/-- `jws.verify` with one algorithm, and the claims that the payload is read as. -/
def verify (token key algorithm : String) : Option Payload :=
  (load (utf8 token)).bind fun loaded =>
    if backend.readAlgorithm loaded.header = some algorithm ∧
        backend.hmac algorithm key loaded.signingInput = loaded.signature then
      backend.readClaims loaded.payload
    else none

def signingInput (claims : Payload) (algorithm : String) : List UInt8 :=
  encode (backend.writeHeader algorithm) ++ dot :: encode (backend.writeClaims claims)

/-- `jws.sign` -/
def sign (claims : Payload) (key algorithm : String) : String :=
  ofAscii (backend.signingInput claims algorithm ++
    dot :: encode (backend.hmac algorithm key (backend.signingInput claims algorithm)))

def jose : Jose where
  encode := backend.sign
  verify := backend.verify

theorem jose_encode (claims : Payload) (key algorithm : String) :
    backend.jose.encode claims key algorithm = backend.sign claims key algorithm := rfl

theorem jose_verify (token key algorithm : String) :
    backend.jose.verify token key algorithm = backend.verify token key algorithm := rfl

theorem dot_not_mem_encode (bytes : List UInt8) : dot ∉ encode bytes := by
  intro h
  obtain ⟨n, hn, hdot⟩ := mem_encode h
  exact (digit_plain n hn).1 hdot.symm

theorem ascii_encode {bytes : List UInt8} {b : UInt8} (h : b ∈ encode bytes) : b.toNat < 128 := by
  obtain ⟨n, hn, rfl⟩ := mem_encode h
  exact (digit_plain n hn).2

theorem ascii_join {front back : List UInt8} (hfront : ∀ b ∈ front, b.toNat < 128)
    (hback : ∀ b ∈ back, b.toNat < 128) : ∀ b ∈ front ++ dot :: back, b.toNat < 128 := by
  intro b hb
  rcases List.mem_append.mp hb with h | h
  · exact hfront b h
  · rcases List.mem_cons.mp h with rfl | h
    · decide
    · exact hback b h

/-- Bytes that the decoder skips, by fours, may follow the signature segment. -/
theorem load_append {rest : List UInt8} (hskip : ∀ b ∈ rest, significant b = false)
    (hdot : dot ∉ rest) (hlength : rest.length % 4 = 0) (token : List UInt8) :
    load (token ++ rest) = load token := by
  have hsegment : ∀ segment, decode (segment ++ rest) = decode segment := by
    intro segment
    apply decode_congr
    · have hnone : rest.filter significant = [] :=
        List.filter_eq_nil_iff.mpr fun b hb => by simp [hskip b hb]
      rw [List.filter_append, hnone, List.append_nil]
    · rw [List.length_append, Nat.add_mod, hlength, Nat.add_zero, Nat.mod_mod]
  rw [load, load, splitLast_append hdot]
  rcases splitLast dot token with _ | ⟨signingInput, cryptoSegment⟩
  · rfl
  · simp only [Option.map_some, Option.bind_eq_bind, Option.bind_some, hsegment]

theorem verify_append {rest : String} (hskip : ∀ b ∈ utf8 rest, significant b = false)
    (hdot : dot ∉ utf8 rest) (hlength : (utf8 rest).length % 4 = 0)
    (token key algorithm : String) :
    backend.verify (token ++ rest) key algorithm = backend.verify token key algorithm := by
  rw [verify, verify, utf8_append, load_append hskip hdot hlength]

/-- What is signed is loaded as it was. -/
theorem load_sign (claims : Payload) (key algorithm : String) :
    load (utf8 (backend.sign claims key algorithm)) =
      some ⟨backend.writeHeader algorithm, backend.writeClaims claims,
        backend.signingInput claims algorithm,
        backend.hmac algorithm key (backend.signingInput claims algorithm)⟩ := by
  have hascii : ∀ b ∈ backend.signingInput claims algorithm, b.toNat < 128 :=
    ascii_join (fun _ => ascii_encode) fun _ => ascii_encode
  rw [sign, utf8_ofAscii (ascii_join hascii fun _ => ascii_encode), load,
    splitLast_separator (dot_not_mem_encode _)]
  simp only [Option.bind_eq_bind, Option.bind_some]
  rw [signingInput, splitFirst_append (dot_not_mem_encode _)]
  simp only [Option.bind_some, decode_encode]
  rfl

/-- A signed token is read back as its claims are from their own JSON. -/
theorem verify_sign {claims : Payload} {algorithm : String}
    (hheader : backend.readAlgorithm (backend.writeHeader algorithm) = some algorithm)
    (key : String) :
    backend.verify (backend.sign claims key algorithm) key algorithm =
      backend.readClaims (backend.writeClaims claims) := by
  rw [verify, load_sign, Option.bind_some, if_pos ⟨hheader, rfl⟩]

/-- What the models of the services take from their jose, it does. -/
theorem returnsEncoded
    (hclaims : ∀ claims claims',
      backend.readClaims (backend.writeClaims claims) = some claims' → claims' = claims) :
    backend.jose.ReturnsEncoded := by
  intro claims key algorithm claims' h
  rw [jose_verify, jose_encode, verify, load_sign, Option.bind_some] at h
  split at h
  · exact hclaims claims claims' h
  · cases h

end Backend

end CampusHire
