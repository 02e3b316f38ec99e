import Matchmaker.Profile

/-!
# Moderation

What moderators do to players, and who may: a moderator may act on everyone of a strictly lower
level, and on nobody else.
-/

namespace Matchmaker

inductive Moderation where
  | setChatStatus (target : Profile) (status : ChatStatus)
  /-- removes at most `count` of the newest messages -/
  | purge (target : Profile) (count : Nat)
  | deleteMessage (target : Profile) (messageId : Int)
  deriving DecidableEq, Repr

namespace Moderation

/-- the player who is acted on -/
def target : Moderation → Profile
  | setChatStatus target _ => target
  | purge target _ => target
  | deleteMessage target _ => target

/-- a moderation policy: whether a player may do something -/
abbrev Policy := Profile → Moderation → Bool

/-- moderators may act on those below them -/
def byLevel : Policy := fun actor action =>
  Profile.moderatorLevel ≤ actor.permissionLevel &&
    action.target.permissionLevel < actor.permissionLevel &&
    actor.steamId != action.target.steamId

end Moderation

end Matchmaker
