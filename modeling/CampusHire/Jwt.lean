import CampusHire.Common

/-!
# Tokens

`campushire_common.jwt` over python-jose.  The library is a parameter: `encode`
signs a set of claims, `verify` checks a signature and returns the claims.  What
`jwt.decode` does on top of that is to refuse a token whose `exp` is before the
current second.
-/

namespace CampusHire

/-- The claims that the code reads.  A claim of another type is `none`: jose refuses
    a `sub` or a `jti` that is not a string and an `exp` that is not a number, and
    for `role` and `type` the code treats any other value as it treats none. -/
structure Payload where
  sub : Option String
  role : Option String
  type : Option String
  jti : Option String
  exp : Option Int
deriving DecidableEq

/-- python-jose: from claims, key and algorithm to a token, and from token, key and
    algorithm to the claims, `none` when the token is not one signed with them. -/
structure Jose where
  encode : Payload → String → String → String
  verify : String → String → String → Option Payload

namespace Jose

/-- A token returns the claims it was made from, if it returns any. -/
def ReturnsEncoded (jose : Jose) : Prop :=
  ∀ claims key algorithm claims',
    jose.verify (jose.encode claims key algorithm) key algorithm = some claims' → claims' = claims

/-- The expiry check of `jwt.decode`, in whole seconds. -/
def expired (claims : Payload) (now : Time) : Bool :=
  claims.exp.any fun exp => decide (exp < ⌊now⌋)

theorem expired_eq_false {claims : Payload} {now : Time} :
    expired claims now = false ↔ ∀ exp, claims.exp = some exp → ⌊now⌋ ≤ exp := by
  unfold expired
  rcases claims.exp with _ | exp
  · simp
  · simp

/-- `jwt.decode(token, key, algorithms=[algorithm])` at time `now`, `none` for
    `JWTError`. -/
def decode (jose : Jose) (token key algorithm : String) (now : Time) : Option Payload :=
  match jose.verify token key algorithm with
  | none => none
  | some claims => if expired claims now then none else some claims

theorem decode_eq_some {jose : Jose} {token key algorithm : String} {now : Time}
    {claims : Payload} : jose.decode token key algorithm now = some claims ↔
      jose.verify token key algorithm = some claims ∧ expired claims now = false := by
  unfold decode
  rcases jose.verify token key algorithm with _ | found
  · simp
  · dsimp only
    constructor
    · intro h
      split at h
      · cases h
      · rename_i hlive
        cases h
        exact ⟨rfl, by simpa using hlive⟩
    · rintro ⟨heq, hlive⟩
      cases heq
      rw [hlive]
      rfl

/-- A jose that knows some tokens: it is used to run the services on given inputs. -/
def ofTable (table : List (String × Payload)) : Jose where
  encode := fun claims _ _ =>
    ((table.find? fun row => decide (row.2 = claims)).map Prod.fst).getD ""
  verify := fun token _ _ => table.lookup token

/-- It returns what was encoded, if no two claims share a token and none is empty. -/
theorem returnsEncoded_ofTable {table : List (String × Payload)}
    (hunique : ∀ row ∈ table, table.lookup row.1 = some row.2) (hempty : table.lookup "" = none) :
    (ofTable table).ReturnsEncoded := by
  intro claims key algorithm claims' h
  simp only [ofTable] at h
  rcases hfound : table.find? (fun row => decide (row.2 = claims)) with _ | row
  · rw [hfound, Option.map_none, Option.getD_none, hempty] at h
    cases h
  · rw [hfound, Option.map_some, Option.getD_some,
      hunique row (List.mem_of_find?_eq_some hfound)] at h
    have hclaims : row.2 = claims := by simpa using List.find?_some hfound
    exact (Option.some.inj h).symm.trans hclaims

end Jose

/-! ## The two kinds of token -/

/-- The claims of `create_access_token`; jose writes `exp` in whole seconds. -/
def accessClaims (userId role : String) (expireMinutes : Int) (now : Time) : Payload where
  sub := some userId
  role := some role
  type := some "access"
  jti := none
  exp := some ⌊now + expireMinutes * 60⌋

def refreshClaims (userId role tokenId : String) (expireDays : Int) (now : Time) : Payload where
  sub := some userId
  role := some role
  type := some "refresh"
  jti := some tokenId
  exp := some ⌊now + expireDays * 86400⌋

def createAccessToken (jose : Jose) (userId role secretKey algorithm : String)
    (expireMinutes : Int) (now : Time) : String :=
  jose.encode (accessClaims userId role expireMinutes now) secretKey algorithm

def createRefreshToken (jose : Jose) (userId role tokenId secretKey algorithm : String)
    (expireDays : Int) (now : Time) : String :=
  jose.encode (refreshClaims userId role tokenId expireDays now) secretKey algorithm

/-! ## Where a request carries its token -/

/-- The rest of an `Authorization` header after `Bearer `, stripped. -/
def bearerToken (authorization : String) : Option String :=
  (PythonText.removePrefix? "Bearer ".toList authorization.toList).map fun rest =>
    String.ofList (PythonText.strip rest)

end CampusHire
