import CampusHire.JsonText
import CampusHire.PythonJose
import CampusHire.Sessions

/-!
# The text of a token

python-jose over the JSON of the standard library: header and claims are written by
`json.dumps`, which escapes every character beyond ASCII, and read by `json.loads`.  Only
the HMAC is left open.  The claims of any user come back as they were signed
(`readClaims_writeClaims`), so a token of `issue_tokens` names its user to every service
until it expires (`access_token_names_user`).
-/

namespace CampusHire.TokenTexts

open CampusHire
open CampusHire.AuthDeps (Environ Credentials getCurrentUser identityHeaders)
open CampusHire.AuthService (Deployment Issue PwdContext Settings refreshJti tokenPair)
open JsonText (Value)

/-! ## Objects as bytes -/

/-- `bytes.decode("utf-8")` -/
def decodeUtf8 (bytes : List UInt8) : Option String := String.fromUTF8? bytes.toByteArray

theorem decodeUtf8_utf8 (text : String) : decodeUtf8 (utf8 text) = some text := by
  have hbytes : (utf8 text).toByteArray = text.toByteArray := text.utf8Encode_toList
  rw [decodeUtf8, hbytes, String.fromUTF8?, dif_pos text.isValidUTF8]
  rfl

/-- `json.dumps(mapping, separators=(",", ":")).encode("utf-8")` -/
def dumps (fields : List (String × Value)) : List UInt8 :=
  utf8 (String.ofList (JsonText.write true (.obj fields)))

/-- `json.loads(bytes.decode("utf-8"))`, which must be a mapping. -/
def loadMapping (bytes : List UInt8) : Option (List (String × Value)) :=
  match (decodeUtf8 bytes).bind fun text => JsonText.loads text.toList with
  | some (.obj fields) => some fields
  | _ => none

theorem loadMapping_dumps {fields : List (String × Value)} (hflat : ∀ field ∈ fields, field.2.Flat)
    (hkeys : (fields.map Prod.fst).Nodup) : loadMapping (dumps fields) = some fields := by
  have hloads := JsonText.loads_write_flat true hflat hkeys
  have hread : ((decodeUtf8 (dumps fields)).bind fun text => JsonText.loads text.toList) =
      some (.obj fields) := by
    rw [dumps, decodeUtf8_utf8, Option.bind_some, String.toList_ofList, hloads]
  unfold loadMapping
  rw [hread]

/-- A claim that may be missing. -/
def entry (key : String) (o : Option Value) : List (String × Value) :=
  (o.map fun v => (key, v)).toList

theorem lookup_entry (key key' : String) (o : Option Value) :
    (entry key o).lookup key' = if key' = key then o else none := by
  cases o with
  | none => simp [entry]
  | some v =>
    by_cases hkey : key' = key
    · simp [entry, hkey]
    · have hbeq : (key' == key) = false := by simpa using hkey
      simp [entry, List.lookup_cons, hkey, hbeq]

theorem keys_entry (key : String) (o : Option Value) :
    ((entry key o).map Prod.fst).Sublist [key] := by
  cases o with
  | none => exact List.nil_sublist _
  | some v => exact List.Sublist.refl _

theorem mem_entry {key : String} {o : Option Value} {field : String × Value}
    (h : field ∈ entry key o) : ∃ v, o = some v ∧ field = (key, v) := by
  rw [entry, Option.mem_toList] at h
  obtain ⟨v, hv, rfl⟩ := Option.map_eq_some_iff.mp h
  exact ⟨v, hv, rfl⟩

/-! ## The header -/

def header (algorithm : String) : List (String × Value) :=
  [("alg", .str algorithm), ("typ", .str "JWT")]

/-- `header.get("alg")`, which must be there. -/
def algorithmOf (fields : List (String × Value)) : Option String :=
  match fields.lookup "alg" with
  | some (.str algorithm) => if algorithm = "" then none else some algorithm
  | _ => none

/-! ## Claims -/

/-- A claim that jose wants to be a text. -/
def textClaim : Option Value → Option (Option String)
  | none => some none
  | some (.str text) => some (some text)
  | some _ => none

/-- jose applies `int` to `exp`.  Nobody signs anything but a number here. -/
def intClaim : Option Value → Option (Option Int)
  | none => some none
  | some (.int z) => some (some z)
  | some _ => none

/-- A claim that only the services read, as a text. -/
def plainClaim : Option Value → Option String
  | some (.str text) => some text
  | _ => none

def claimsOf (payload : Payload) : List (String × Value) :=
  entry "sub" (payload.sub.map .str) ++ entry "role" (payload.role.map .str) ++
    entry "jti" (payload.jti.map .str) ++ entry "type" (payload.type.map .str) ++
    entry "exp" (payload.exp.map .int)

def payloadOf (fields : List (String × Value)) : Option Payload := do
  let sub ← textClaim (fields.lookup "sub")
  let jti ← textClaim (fields.lookup "jti")
  let exp ← intClaim (fields.lookup "exp")
  return ⟨sub, plainClaim (fields.lookup "role"), plainClaim (fields.lookup "type"), jti, exp⟩

theorem textClaim_str (o : Option String) : textClaim (o.map .str) = some o := by
  cases o <;> rfl

theorem intClaim_int (o : Option Int) : intClaim (o.map .int) = some o := by
  cases o <;> rfl

theorem plainClaim_str (o : Option String) : plainClaim (o.map .str) = o := by
  cases o <;> rfl

theorem payloadOf_claimsOf (payload : Payload) : payloadOf (claimsOf payload) = some payload := by
  simp [payloadOf, claimsOf, List.lookup_append, lookup_entry, textClaim_str, intClaim_int,
    plainClaim_str]

theorem flat_claimsOf (payload : Payload) : ∀ field ∈ claimsOf payload, field.2.Flat := by
  intro field hfield
  simp only [claimsOf, List.mem_append] at hfield
  rcases hfield with (((h | h) | h) | h) | h
  all_goals
    obtain ⟨v, hv, rfl⟩ := mem_entry h
    obtain ⟨_, -, rfl⟩ := Option.map_eq_some_iff.mp hv
    trivial

theorem keys_claimsOf (payload : Payload) : ((claimsOf payload).map Prod.fst).Nodup := by
  have hkeys : ((claimsOf payload).map Prod.fst).Sublist ["sub", "role", "jti", "type", "exp"] := by
    simp only [claimsOf, List.map_append]
    exact (((keys_entry "sub" _).append (keys_entry "role" _)).append (keys_entry "jti" _)).append
      (keys_entry "type" _) |>.append (keys_entry "exp" _)
  exact hkeys.nodup (by decide)

/-! ## python-jose over them -/

/-- The HMAC of an algorithm, a key and a text. -/
abbrev Hmac := String → String → List UInt8 → List UInt8

def backend (hmac : Hmac) : Backend where
  writeHeader algorithm := dumps (header algorithm)
  readAlgorithm bytes := (loadMapping bytes).bind algorithmOf
  writeClaims payload := dumps (claimsOf payload)
  readClaims bytes := (loadMapping bytes).bind payloadOf
  hmac := hmac

section Tokens

variable (hmac : Hmac)

theorem readAlgorithm_writeHeader {algorithm : String} (h : algorithm ≠ "") :
    (backend hmac).readAlgorithm ((backend hmac).writeHeader algorithm) = some algorithm := by
  have hload : loadMapping (dumps (header algorithm)) = some (header algorithm) := by
    refine loadMapping_dumps ?_ (by decide : ["alg", "typ"].Nodup)
    intro field hfield
    simp only [header, List.mem_cons, List.not_mem_nil, or_false] at hfield
    rcases hfield with rfl | rfl <;> trivial
  have halgorithm : algorithmOf (header algorithm) = some algorithm := by
    simp [algorithmOf, header, h]
  simp only [backend, hload, Option.bind_some, halgorithm]

theorem readClaims_writeClaims (payload : Payload) :
    (backend hmac).readClaims ((backend hmac).writeClaims payload) = some payload := by
  have hload := loadMapping_dumps (flat_claimsOf payload) (keys_claimsOf payload)
  simp only [backend, hload, Option.bind_some, payloadOf_claimsOf]

/-- The models of the services ask no more of their jose. -/
theorem returnsEncoded : (backend hmac).jose.ReturnsEncoded := by
  apply Backend.returnsEncoded
  intro claims claims' h
  rw [readClaims_writeClaims] at h
  exact (Option.some.inj h).symm

/-- A token is read back until it expires. -/
theorem decode_encode {algorithm : String} (h : algorithm ≠ "") (claims : Payload) (key : String)
    (now : Time) : (backend hmac).jose.decode ((backend hmac).jose.encode claims key algorithm) key
      algorithm now = if Jose.expired claims now then none else some claims := by
  have hverify : (backend hmac).verify ((backend hmac).sign claims key algorithm) key algorithm =
      some claims :=
    ((backend hmac).verify_sign (readAlgorithm_writeHeader hmac h) key).trans
      (readClaims_writeClaims hmac claims)
  rw [Jose.decode, Backend.jose_verify, Backend.jose_encode, hverify]

theorem space_free_digit : ∀ n < 64,
    PythonText.isSpace (Char.ofNat (Base64url.digit n).toNat) = false := by
  decide +kernel

theorem space_free_encode {bytes : List UInt8} {b : UInt8} (h : b ∈ Base64url.encode bytes) :
    PythonText.isSpace (Char.ofNat b.toNat) = false := by
  obtain ⟨n, hn, rfl⟩ := Base64url.mem_encode h
  exact space_free_digit n hn

theorem space_free_sign (claims : Payload) (key algorithm : String) :
    ∀ c ∈ ((backend hmac).sign claims key algorithm).toList, PythonText.isSpace c = false := by
  intro c hc
  rw [Backend.sign, ofAscii, String.toList_ofList] at hc
  obtain ⟨b, hb, rfl⟩ := List.mem_map.mp hc
  have hdot : PythonText.isSpace (Char.ofNat dot.toNat) = false := by decide
  simp only [Backend.signingInput, List.mem_append, List.mem_cons] at hb
  rcases hb with (h | rfl | h) | rfl | h
  · exact space_free_encode h
  · exact hdot
  · exact space_free_encode h
  · exact hdot
  · exact space_free_encode h

theorem sign_ne_empty (claims : Payload) (key algorithm : String) :
    (backend hmac).sign claims key algorithm ≠ "" := by
  intro hempty
  have hlist := congrArg String.toList hempty
  rw [Backend.sign, ofAscii, String.toList_ofList] at hlist
  simp at hlist

theorem bearerToken_of_space_free {token : String}
    (h : ∀ c ∈ token.toList, PythonText.isSpace c = false) :
    bearerToken ("Bearer " ++ token) = some token := by
  have hprefix : PythonText.removePrefix? "Bearer ".toList ("Bearer " ++ token).toList =
      some token.toList := by
    rw [PythonText.removePrefix?, String.toList_append,
      if_pos (List.isPrefixOf_iff_prefix.mpr (List.prefix_append _ _)), List.drop_left]
  rw [bearerToken, hprefix, Option.map_some, PythonText.strip, PythonText.stripBy_eq_self h,
    String.ofList_toList]

end Tokens

/-! ## Token pairs -/

/-- An identity service over these tokens. -/
def deployment (hmac : Hmac) (pwdContext : PwdContext) (settings : Settings) : Deployment :=
  ⟨(backend hmac).jose, pwdContext, settings⟩

/-- The request carries the token, in a header or else in the cookie. -/
def Carries (environ : Environ) (credentials : Credentials) (token : String) : Prop :=
  credentials.authorization = some ("Bearer " ++ token) ∨
    credentials.authorization = none ∧
      credentials.cookies.lookup environ.accessTokenCookieName = some token

/-- The caller that a token names, once it is found in the request. -/
theorem caller_of_token {jose : Jose} {environ : Environ} {credentials : Credentials}
    {token : String} {now : Time} {userId : UUID} {role : UserRole} {minutes : Int} {t : Time}
    (hheaders : identityHeaders credentials = none) (hne : token ≠ "")
    (hextract : AuthDeps.extractAccessToken environ credentials.authorization
      credentials.cookies = some token)
    (hdecode : jose.decode token environ.jwtSecretKey environ.jwtAlgorithm now =
      if Jose.expired (accessClaims userId.str role.value minutes t) now then none
      else some (accessClaims userId.str role.value minutes t)) :
    getCurrentUser jose environ now credentials =
      if ⌊t + minutes * 60⌋ < ⌊now⌋ then .error (.http 401 "Missing authentication")
      else .ok ⟨userId, role⟩ := by
  have hexpired : Jose.expired (accessClaims userId.str role.value minutes t) now =
      decide (⌊t + minutes * 60⌋ < ⌊now⌋) := rfl
  simp only [getCurrentUser, hheaders, hextract, AuthDeps.decodeAccessToken, hne, if_false,
    hdecode, hexpired]
  by_cases hlive : ⌊t + minutes * 60⌋ < ⌊now⌋
  · simp [hlive]
  · simp [hlive, accessClaims]

/-- The record that a refresh token names. -/
theorem jti_of_token {d : Deployment} {token : String} {now : Time} {i : Issue}
    (hdecode : d.decode token now =
      if Jose.expired (i.refreshClaims d) now then none else some (i.refreshClaims d)) :
    refreshJti d now token =
      if ⌊i.time + d.settings.refreshTokenExpireDays * 86400⌋ < ⌊now⌋ then
        .error (.http 401 "Invalid refresh token")
      else .ok (i.refreshClaims d, i.jti.str) := by
  have hexpired : Jose.expired (i.refreshClaims d) now =
      decide (⌊i.time + d.settings.refreshTokenExpireDays * 86400⌋ < ⌊now⌋) := rfl
  have htype : (i.refreshClaims d).type = some "refresh" := rfl
  have hjti : (i.refreshClaims d).jti = some i.jti.str := rfl
  rw [refreshJti, hdecode, hexpired]
  by_cases hlive : ⌊i.time + d.settings.refreshTokenExpireDays * 86400⌋ < ⌊now⌋
  · simp [hlive]
  · simp [hlive, htype, hjti, UUID.str_ne_empty]

section Pairs

variable (hmac : Hmac) (pwdContext : PwdContext) (settings : Settings)

theorem extract_of_carries {environ : Environ} {credentials : Credentials} {claims : Payload}
    {key algorithm : String}
    (h : Carries environ credentials ((backend hmac).jose.encode claims key algorithm)) :
    AuthDeps.extractAccessToken environ credentials.authorization credentials.cookies =
      some ((backend hmac).jose.encode claims key algorithm) := by
  unfold AuthDeps.extractAccessToken
  rcases h with hheader | ⟨hheader, hcookie⟩
  · rw [hheader, Option.bind_some, Backend.jose_encode,
      bearerToken_of_space_free (space_free_sign hmac claims key algorithm)]
  · rw [hheader, Option.bind_none]
    exact hcookie

/-- **A token pair names its issue.**  The access token gives its user's identity to every
    service that shares the key, and the refresh token its record, until they expire. -/
theorem pair_names_issue (halgorithm : settings.jwtAlgorithm ≠ "") (environ : Environ)
    (hshared : Sessions.SharesKey (deployment hmac pwdContext settings) environ) (i : Issue)
    (now : Time) :
    (∀ credentials, identityHeaders credentials = none →
      Carries environ credentials (tokenPair (deployment hmac pwdContext settings) i).1 →
      getCurrentUser (backend hmac).jose environ now credentials =
        if ⌊i.time + settings.accessTokenExpireMinutes * 60⌋ < ⌊now⌋ then
          .error (.http 401 "Missing authentication")
        else .ok ⟨i.user.id, i.user.role⟩) ∧
    refreshJti (deployment hmac pwdContext settings) now
        (tokenPair (deployment hmac pwdContext settings) i).2 =
      if ⌊i.time + settings.refreshTokenExpireDays * 86400⌋ < ⌊now⌋ then
        .error (.http 401 "Invalid refresh token")
      else .ok (i.refreshClaims (deployment hmac pwdContext settings), i.jti.str) := by
  constructor
  · intro credentials hheaders hcarries
    have hdecode := decode_encode hmac halgorithm
      (i.accessClaims (deployment hmac pwdContext settings)) settings.jwtSecretKey now
    have hne := sign_ne_empty hmac (i.accessClaims (deployment hmac pwdContext settings))
      settings.jwtSecretKey settings.jwtAlgorithm
    refine caller_of_token hheaders hne (extract_of_carries hmac hcarries) ?_
    rw [hshared.1, hshared.2]
    exact hdecode
  · exact jti_of_token (decode_encode hmac halgorithm
      (i.refreshClaims (deployment hmac pwdContext settings)) settings.jwtSecretKey now)

end Pairs

/-- A student logs in at time 0, where the HMAC is the key with the text. -/
def firstIssue : Issue := ⟨⟨.ofNat 1, "s@campus", "hash", .student, true⟩, .ofNat 2, 0⟩

def joined : Hmac := fun _ key text => utf8 key ++ text

def firstDeployment : Deployment :=
  deployment joined ⟨fun _ password => password, fun _ _ => true⟩ { jwtSecretKey := "secret" }

theorem first_pair_names_student :
    getCurrentUser (backend joined).jose { jwtSecretKey := "secret" } 100
      ⟨none, none, none, [("access_token", (tokenPair firstDeployment firstIssue).1)]⟩ =
        .ok ⟨.ofNat 1, .student⟩ := by
  have hpair := pair_names_issue joined ⟨fun _ password => password, fun _ _ => true⟩
    { jwtSecretKey := "secret" } (by decide) { jwtSecretKey := "secret" } ⟨rfl, rfl⟩ firstIssue 100
  have hcaller := hpair.1
    ⟨none, none, none, [("access_token", (tokenPair firstDeployment firstIssue).1)]⟩ rfl
    (Or.inr ⟨rfl, List.lookup_cons_self⟩)
  rw [hcaller, if_neg (by decide +kernel)]
  rfl

end CampusHire.TokenTexts
