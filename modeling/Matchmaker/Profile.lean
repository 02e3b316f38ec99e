import Matchmaker.Protocol.Response

/-!
# Profiles

What is known of a player beyond the identity: the name and avatar that others see, the permission
level, and the chat status.
-/

namespace Matchmaker

structure Profile where
  steamId : SteamId
  name : String
  avatarHash : String
  permissionLevel : Int
  chatStatus : ChatStatus
  deriving DecidableEq, Repr

namespace Profile

/-- the level of a regular player -/
def userLevel : Int := 10
/-- the least level that may moderate the chat -/
def moderatorLevel : Int := 50

/-- a regular player with full access to the chat -/
def regular (steamId : SteamId) (name : String) : Profile :=
  ⟨steamId, name, "", userLevel, .readwrite⟩

/-- the part that others see -/
def member (p : Profile) : Protocol.Member := ⟨p.name, p.steamId, p.avatarHash⟩

end Profile

end Matchmaker
