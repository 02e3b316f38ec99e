import Matchmaker.Error

/-!
# Asking for a connection

A client asks for a connection with a request target and perhaps an origin.  The origin has to begin
with one of those that are accepted, if any are listed.  The target carries a token in its query,
taken as it stands; who the token stands for is up to an `Authenticator`.
-/

namespace Matchmaker.Server

structure Upgrade where
  /-- path and query -/
  target : String
  /-- the origin header, as it was sent -/
  origin : Option String
  deriving DecidableEq, Repr

/-- the player that a token stands for -/
abbrev Authenticator := String → Except ClientError SteamId

/-- takes a token to be an identity, for want of anything that could be checked -/
def byIdentity : Authenticator := fun token =>
  match SteamId.ofText? token with
  | some p => .ok p
  | none => .error (.authFailed "token must be a steam id")

/-! ## origins -/

def isHeaderBlank (c : Char) : Bool := c == ' ' || c == '\t'

/-- may stand in the text of a header -/
def isHeaderText (c : Char) : Bool := c == '\t' || (' ' ≤ c && c ≤ '~')

/-- a header without the blanks around it -/
def headerValue (s : List Char) : List Char :=
  ((s.dropWhile isHeaderBlank).reverse.dropWhile isHeaderBlank).reverse

/-- A list without entries accepts everyone.  Otherwise an origin is needed, of plain text, which
begins with one of the entries. -/
def acceptsOrigin (allowed : List String) (origin : Option String) : Bool :=
  allowed.isEmpty ||
    match origin with
    | none => false
    | some o =>
      let o := headerValue o.toList
      o.all isHeaderText && allowed.any fun a => a.toList.isPrefixOf o

/-! ## tokens -/

/-- the query of a request target: what is behind its question mark -/
def query (target : List Char) : List Char :=
  ((target.takeWhile (· != '#')).dropWhile (· != '?')).drop 1

/-- the parts between ampersands -/
def parts (s : List Char) : List (List Char) := s.splitOn '&'

/-- the value of a part that has the key, which ends at the first equals sign -/
def valueOf? (key : List Char) (s : List Char) : Option (List Char) :=
  match s.span (· != '=') with
  | (k, _ :: v) => if k = key then some v else none
  | (_, []) => none

/-- the value of the first part that has the key -/
def parameter? (key : List Char) (query : List Char) : Option (List Char) :=
  (parts query).findSome? (valueOf? key)

/-- the token in a request target; an empty one is none -/
def token? (target : String) : Option String :=
  match parameter? ['t', 'o', 'k', 'e', 'n'] (query target.toList) with
  | some [] => none
  | some v => some (String.ofList v)
  | none => none

/-- The player who asks.  An identity that names no individual is none. -/
def identify (authenticator : Authenticator) (u : Upgrade) : Except QueueError SteamId :=
  match token? u.target with
  | none => .error (.client (.authFailed "missing token"))
  | some token =>
    match authenticator token with
    | .error e => .error (.client e)
    | .ok p => if p.isValid then .ok p else .error .unauthenticated

end Matchmaker.Server
