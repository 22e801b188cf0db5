import CampusHire.PythonJose
import CampusHire.Revocation
import Mathlib.Data.Set.Finite.Basic

/-!
# Other spellings of a revoked token

The blacklist is keyed by the token as it is written; `jwt.decode` reads its last
segment for the bytes that the segment decodes to.  An entry therefore refuses one
spelling of the token, and every token has others.
-/

namespace CampusHire.TokenSpellings

open CampusHire AuthService Base64url Revocation

/-! ## Spellings -/

/-- `!` is outside of the alphabet. -/
def ignored (n : Nat) : String := String.ofList (List.replicate (4 * n) '!')

def spelling (token : String) (n : Nat) : String := token ++ ignored n

theorem utf8_ignored (n : Nat) : utf8 (ignored n) = List.replicate (4 * n) 33 := by
  have hchar : String.utf8EncodeChar '!' = [33] := by decide
  rw [utf8, ignored, String.toList_ofList]
  induction 4 * n with
  | zero => rfl
  | succ k ih => rw [List.replicate_succ, List.flatMap_cons, ih, hchar, List.replicate_succ]; rfl

theorem verify_spelling (backend : Backend) (token key algorithm : String) (n : Nat) :
    backend.verify (spelling token n) key algorithm = backend.verify token key algorithm := by
  apply backend.verify_append
  · intro b hb
    rw [utf8_ignored] at hb
    rw [List.eq_of_mem_replicate hb]
    decide
  · intro hb
    rw [utf8_ignored] at hb
    exact absurd (List.eq_of_mem_replicate hb) (by decide)
  · rw [utf8_ignored, List.length_replicate, Nat.mul_mod_right]

theorem length_spelling (token : String) (n : Nat) :
    (spelling token n).toList.length = token.toList.length + 4 * n := by
  rw [spelling, ignored, String.toList_append, String.toList_ofList, List.length_append,
    List.length_replicate]

theorem spelling_injective (token : String) : Function.Injective (spelling token) := by
  intro m n h
  have hlength := congrArg (fun s : String => s.toList.length) h
  simp only [length_spelling] at hlength
  omega

theorem spelling_succ_ne (token : String) (n : Nat) : spelling token (n + 1) ≠ token := by
  intro h
  have hlength := congrArg (fun s : String => s.toList.length) h
  simp only [length_spelling] at hlength
  omega

/-- The keys in Redis are finitely many. -/
theorem exists_spelling_free (redis : List RedisEntry) (token : String) :
    ∃ n, ∀ t, isTokenBlacklisted redis t (spelling token (n + 1)) = false := by
  have hinjective : Function.Injective fun n => blacklistKey (spelling token (n + 1)) := by
    intro m n h
    exact Nat.succ_injective (spelling_injective token (blacklistKey_injective h))
  obtain ⟨key, ⟨n, rfl⟩, hfree⟩ := (Set.infinite_range_of_injective hinjective).exists_notMem_finset
    (redis.map RedisEntry.key).toFinset
  refine ⟨n, fun t => ?_⟩
  rw [isTokenBlacklisted, redisExists, List.any_eq_false]
  intro e he
  have hne : e.key ≠ blacklistKey (spelling token (n + 1)) := by
    rintro hkey
    exact hfree (List.mem_toFinset.mpr (List.mem_map.mpr ⟨e, he, hkey⟩))
  simp [hne]

/-! ## Revocation -/

def deployment (backend : Backend) (pwdContext : PwdContext) (settings : Settings) :
    Deployment where
  jose := backend.jose
  pwdContext := pwdContext
  settings := settings

theorem decode_spelling (backend : Backend) (pwdContext : PwdContext) (settings : Settings)
    (token : String) (n : Nat) (t : Time) :
    (deployment backend pwdContext settings).decode (spelling token n) t =
      (deployment backend pwdContext settings).decode token t := by
  rw [Deployment.decode, Deployment.decode, Jose.decode, Jose.decode, deployment,
    Backend.jose_verify, Backend.jose_verify, verify_spelling]

/-- The entry of a token says nothing about another string. -/
theorem isTokenBlacklisted_other {d : Deployment} (redis : List RedisEntry) (t t' : Time)
    {token other : String} (hne : other ≠ token) :
    isTokenBlacklisted (blacklistToken d redis t token) t' other =
      isTokenBlacklisted redis t' other := by
  rcases blacklistToken_cases d redis t token with ⟨-, heq⟩ | ⟨-, ttl, -, heq⟩
  · rw [heq]
  · rw [heq, isTokenBlacklisted,
      redisExists_setex_other fun h => hne (blacklistKey_injective h)]
    rfl

theorem refused_other_iff {d : Deployment} {redis : List RedisEntry} {t t' : Time}
    {token other : String} {claims : Payload} {exp : Int} (haccess : IsAccess claims)
    (hexp : claims.exp = some exp) (hother : d.decode other t' = some claims)
    (hentry : isTokenBlacklisted (blacklistToken d redis t token) t' token = true) :
    Refused d (blacklistToken d redis t token) t' other ↔
      other = token ∨ isTokenBlacklisted redis t' other = true := by
  have hlive : t' < exp + 1 := (decode_isSome_iff hother hexp).mp hother
  rw [refused_iff hother haccess hexp]
  by_cases hsame : other = token
  · subst hsame
    exact iff_of_true (fun _ => hentry) (Or.inl rfl)
  · rw [isTokenBlacklisted_other redis t t' hsame]
    simp [hlive, hsame]

/-- **An entry refuses the token as it was written, and no other spelling.**  While the
    entry that `blacklist_token` wrote for an access token exists, a string that decodes
    to the same claims is refused exactly when it is that very token or has an entry of
    its own; and all of them are refused only once the token has expired. -/
theorem spellings_refused_iff (backend : Backend) (pwdContext : PwdContext) (settings : Settings)
    (redis : List RedisEntry) (token : String) (claims : Payload) (exp : Int) (t t' : Time)
    (h : (deployment backend pwdContext settings).decode token t = some claims)
    (haccess : IsAccess claims) (hexp : claims.exp = some exp)
    (hentry : isTokenBlacklisted
      (blacklistToken (deployment backend pwdContext settings) redis t token) t' token = true) :
    (∀ other, (deployment backend pwdContext settings).decode other t' = some claims →
      (Refused (deployment backend pwdContext settings)
          (blacklistToken (deployment backend pwdContext settings) redis t token) t' other ↔
        other = token ∨ isTokenBlacklisted redis t' other = true)) ∧
    ((∀ other, (deployment backend pwdContext settings).decode other t' = some claims →
      Refused (deployment backend pwdContext settings)
        (blacklistToken (deployment backend pwdContext settings) redis t token) t' other) ↔
      (exp : ℚ) + 1 ≤ t') := by
  constructor
  · intro other hother
    exact refused_other_iff haccess hexp hother hentry
  constructor
  · intro hall
    by_contra hlive
    -- a spelling that nobody has revoked
    obtain ⟨n, hfree⟩ := exists_spelling_free redis token
    have hother : (deployment backend pwdContext settings).decode (spelling token (n + 1)) t' =
        some claims := by
      rw [decode_spelling]
      exact (decode_isSome_iff h hexp).mpr (not_le.mp hlive)
    rcases (refused_other_iff haccess hexp hother hentry).mp (hall _ hother) with hsame | hlisted
    · exact spelling_succ_ne token n hsame
    · rw [hfree t'] at hlisted
      cases hlisted
  · intro hexpired other hother
    exact absurd ((decode_isSome_iff hother hexp).mp hother) (not_lt.mpr hexpired)

/-! ## A token -/

def studentClaims : Payload := accessClaims (UUID.ofNat 1).str "student" 15 0

def headerJson : List UInt8 := utf8 "\x7b\"alg\":\"HS256\",\"typ\":\"JWT\"\x7d"

def claimsJson : List UInt8 :=
  utf8 ("\x7b\"sub\":\"00000000-0000-0000-0000-000000000001\",\"role\":\"student\"," ++
    "\"type\":\"access\",\"exp\":900\x7d")

/-- HMAC-SHA256 of the encoded header and claims, with the key "secret". -/
def studentHmac : List UInt8 :=
  [154, 251, 20, 34, 29, 11, 85, 191, 217, 221, 221, 178, 67, 80, 252, 207, 163, 145, 226, 147,
    226, 74, 129, 164, 125, 123, 86, 224, 80, 19, 218, 227]

/-- What JSON and HMAC give on the token of `studentClaims`. -/
def studentBackend : Backend where
  writeHeader := fun _ => headerJson
  readAlgorithm := fun bytes => if bytes = headerJson then some "HS256" else none
  writeClaims := fun claims => if claims = studentClaims then claimsJson else []
  readClaims := fun bytes => if bytes = claimsJson then some studentClaims else none
  hmac := fun _ _ _ => studentHmac

def studentDeployment : Deployment :=
  deployment studentBackend
    ⟨fun _ password => password, fun password hash => decide (password = hash)⟩
    { jwtSecretKey := "secret" }

def studentToken : String :=
  createAccessToken studentBackend.jose (UUID.ofNat 1).str "student" "secret" "HS256" 15 0

theorem studentToken_decodes : studentDeployment.decode studentToken 60 = some studentClaims := by
  have hheader : studentBackend.readAlgorithm (studentBackend.writeHeader "HS256") =
      some "HS256" := by simp [studentBackend]
  have hverify : studentBackend.jose.verify studentToken "secret" "HS256" = some studentClaims := by
    rw [Backend.jose_verify, studentToken, createAccessToken, Backend.jose_encode,
      studentBackend.verify_sign hheader, ← studentClaims]
    simp [studentBackend]
  exact Jose.decode_eq_some.mpr ⟨hverify, by decide +kernel⟩

theorem studentClaims_isAccess : IsAccess studentClaims :=
  ⟨rfl, ⟨.ofNat 1, .student⟩, by simp [studentClaims, accessClaims], rfl⟩

theorem studentClaims_exp : studentClaims.exp = some 900 := by decide +kernel

theorem studentToken_listed :
    isTokenBlacklisted (blacklistToken studentDeployment [] 60 studentToken) 61 studentToken =
      true := by
  have hset : blacklistToken studentDeployment [] 60 studentToken =
      setex [] (blacklistKey studentToken) 840 60 := by
    have httl : max (truncate (((900 : Int) : ℚ) - 60)) 1 = 840 := by decide +kernel
    rw [blacklistToken, studentToken_decodes]
    simp only [studentClaims_exp]
    rw [if_neg (by decide), httl]
  rw [isTokenBlacklisted, hset, redisExists_setex (by norm_num)]
  norm_num

/-- Revoked at 60, the token is accepted at 61 with four characters more. -/
theorem revoked_token_accepted :
    ¬ ∀ other, studentDeployment.decode other 61 = some studentClaims →
      Refused studentDeployment (blacklistToken studentDeployment [] 60 studentToken) 61 other := by
  intro hall
  have haccepted : studentDeployment.decode (spelling studentToken 1) 61 = some studentClaims := by
    rw [studentDeployment, decode_spelling, ← studentDeployment]
    exact (decode_isSome_iff studentToken_decodes studentClaims_exp).mpr (by norm_num)
  rcases (refused_other_iff studentClaims_isAccess studentClaims_exp haccepted
    studentToken_listed).mp (hall _ haccepted) with hsame | hlisted
  · exact spelling_succ_ne studentToken 0 hsame
  · cases hlisted

/-- The token itself is refused. -/
theorem revoked_token_refused :
    Refused studentDeployment (blacklistToken studentDeployment [] 60 studentToken) 61
      studentToken :=
  ((spellings_refused_iff studentBackend _ _ [] studentToken studentClaims 900 60 61
    studentToken_decodes studentClaims_isAccess studentClaims_exp studentToken_listed).1
    studentToken ((decode_isSome_iff studentToken_decodes studentClaims_exp).mpr
      (by norm_num))).mpr (Or.inl rfl)

end CampusHire.TokenSpellings
