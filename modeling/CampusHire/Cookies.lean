import Mathlib.Algebra.Order.Field.Rat

/-!
# The cookies of a browser

A server sets cookies by `Set-Cookie` lines.  A cookie is known by its name, its domain and
its path: a line replaces the cookie that it is about, and one with a `Max-Age` of zero or
less removes it.  A cookie without a `Max-Age` lives until the browser is closed.  One that
is meant for a secure origin, or for another domain, is not taken.
-/

namespace Cookies

/-- A `Set-Cookie` line. -/
structure SetCookie where
  name : String
  value : String
  maxAge : Option Int := none
  httpOnly : Bool
  secure : Bool
  sameSite : String
  domain : Option String
  path : String

structure Origin where
  host : String
  https : Bool

/-- The domain, which may start with a dot, is the host or a parent of it. -/
def domainMatches (host domain : String) : Bool :=
  let bare := match domain.toList with
    | '.' :: rest => rest
    | characters => characters
  decide (host.toList = bare) || ('.' :: bare).isSuffixOf host.toList

def Origin.takes (origin : Origin) (line : SetCookie) : Bool :=
  (!line.secure || origin.https) && line.domain.all (domainMatches origin.host)

/-- A cookie, with the time from which on it is not sent. -/
structure Cookie where
  name : String
  value : String
  domain : Option String
  path : String
  till : Option ℚ

/-- The line is about the cookie. -/
def SetCookie.sets (line : SetCookie) (cookie : Cookie) : Bool :=
  decide (cookie.name = line.name) && decide (cookie.domain = line.domain) &&
    decide (cookie.path = line.path)

def SetCookie.cookie (line : SetCookie) (now : ℚ) : Cookie where
  name := line.name
  value := line.value
  domain := line.domain
  path := line.path
  till := line.maxAge.map fun age : Int => now + (age : ℚ)

/-- A line without a positive `Max-Age` that says when to drop the cookie. -/
def SetCookie.drops (line : SetCookie) : Bool := line.maxAge.any fun age => decide (age ≤ 0)

def Origin.store (origin : Origin) (now : ℚ) (jar : List Cookie) (line : SetCookie) :
    List Cookie :=
  if origin.takes line then
    let others := jar.filter fun cookie => !line.sets cookie
    if line.drops then others else others ++ [line.cookie now]
  else jar

def Origin.receive (origin : Origin) (now : ℚ) (jar : List Cookie) (lines : List SetCookie) :
    List Cookie :=
  lines.foldl (origin.store now) jar

def Cookie.live (now : ℚ) (cookie : Cookie) : Bool := cookie.till.all fun t => decide (now < t)

/-- The path is that of the cookie or below it. -/
def pathMatches (path cookiePath : String) : Bool :=
  decide (path = cookiePath) ||
    (cookiePath.toList.isPrefixOf path.toList &&
      (decide (cookiePath.toList.getLast? = some '/') ||
        decide ((path.toList.drop cookiePath.toList.length).head? = some '/')))

/-- What the browser says in the `Cookie` header of a request for the path. -/
def send (jar : List Cookie) (now : ℚ) (path : String) : List (String × String) :=
  (jar.filter fun cookie => cookie.live now && pathMatches path cookie.path).map fun cookie =>
    (cookie.name, cookie.value)

/-- The cookies that a browser still has after it was closed. -/
def close (jar : List Cookie) : List Cookie := jar.filter fun cookie => cookie.till.isSome

/-! ## What a line does -/

variable {origin : Origin} {now : ℚ} {jar : List Cookie} {line : SetCookie}

theorem store_of_kept (htakes : origin.takes line = true) (hkeeps : line.drops = false) :
    origin.store now jar line =
      (jar.filter fun cookie => !line.sets cookie) ++ [line.cookie now] := by
  simp [Origin.store, htakes, hkeeps]

theorem store_of_drops (htakes : origin.takes line = true) (hdrops : line.drops = true) :
    origin.store now jar line = jar.filter fun cookie => !line.sets cookie := by
  simp [Origin.store, htakes, hdrops]

/-- A line is about the cookie that it has set before. -/
theorem sets_cookie_iff {other : SetCookie} (hdomain : other.domain = line.domain)
    (hpath : other.path = line.path) (t : ℚ) :
    line.sets (other.cookie t) = decide (other.name = line.name) := by
  simp [SetCookie.sets, SetCookie.cookie, hdomain, hpath]

/-- Two lines that the browser takes, about all that it has. -/
theorem receive_pair {first second : SetCookie} (htakes : origin.takes first = true)
    (htakes' : origin.takes second = true) (hkeeps : first.drops = false)
    (hkeeps' : second.drops = false) (hother : second.sets (first.cookie now) = false)
    (hjar : ∀ cookie ∈ jar, first.sets cookie = true ∨ second.sets cookie = true) :
    origin.receive now jar [first, second] = [first.cookie now, second.cookie now] := by
  have hnone : (jar.filter fun cookie => !first.sets cookie).filter
      (fun cookie => !second.sets cookie) = [] := by
    rw [List.filter_filter, List.filter_eq_nil_iff]
    intro cookie hcookie
    rcases hjar cookie hcookie with h | h
    · simp [h]
    · simp [h]
  rw [Origin.receive, List.foldl_cons, List.foldl_cons, List.foldl_nil,
    store_of_kept htakes hkeeps, store_of_kept htakes' hkeeps', List.filter_append, hnone]
  simp [hother]

theorem drop_pair {first second : SetCookie} (htakes : origin.takes first = true)
    (htakes' : origin.takes second = true) (hdrops : first.drops = true)
    (hdrops' : second.drops = true)
    (hjar : ∀ cookie ∈ jar, first.sets cookie = true ∨ second.sets cookie = true) :
    origin.receive now jar [first, second] = [] := by
  rw [Origin.receive, List.foldl_cons, List.foldl_cons, List.foldl_nil,
    store_of_drops htakes hdrops, store_of_drops htakes' hdrops', List.filter_filter,
    List.filter_eq_nil_iff]
  intro cookie hcookie
  rcases hjar cookie hcookie with h | h
  · simp [h]
  · simp [h]

theorem pathMatches_root {path : String} (h : path.toList.head? = some '/') :
    pathMatches path "/" = true := by
  rcases hpath : path.toList with _ | ⟨c, rest⟩
  · rw [hpath] at h
    cases h
  · rw [hpath] at h
    cases h
    simp [pathMatches, hpath]

end Cookies
