import Matchmaker.Profile

/-!
# Sessions

A player on a connection: who it is, as looked up when the connection was made, and what the player
may do in the chat, which may change while the session lasts.  Sessions are told apart by their
connection, since a player who comes again gets another one.
-/

namespace Matchmaker

/-- a player on a connection -/
structure Session where
  /-- every connection has a number of its own -/
  connection : Nat
  profile : Profile
  chatStatus : ChatStatus
  deriving DecidableEq, Repr

namespace Session

/-- the session of a player who has just connected -/
def new (connection : Nat) (p : Profile) : Session := ⟨connection, p, p.chatStatus⟩

def steamId (s : Session) : SteamId := s.profile.steamId

/-- the number that the session of a player is kept under -/
def playerKey (s : Session) : Nat := s.steamId.toNat

/-- the connection as it is shown -/
def connectionName (s : Session) : String :=
  "conn-" ++ String.ofList (Decimal.write s.connection)

def member (s : Session) : Protocol.Member := s.profile.member

def hasMessageAccess (s : Session) : Bool := s.chatStatus.hasMessageAccess

end Session

end Matchmaker
