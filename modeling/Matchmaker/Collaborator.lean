import Matchmaker.Error
import Matchmaker.Profile

/-!
# Services outside the queue

The queue keeps nothing for good.  Profiles, stored messages and the list of servers belong to
services that are reached only through the classes below.  A call gives a result and the state of the
service after it, or an error; a call that fails leaves the service as it was, which is why an
error comes without a state.

`WithOutages` makes some calls of a service fail, for trying out what happens then.
-/

namespace Matchmaker

/-- the outcome of a call of a service with state `σ` -/
abbrev Called (σ α : Type) := Except CollaboratorError (α × σ)

/-- keeps chat messages -/
class ChatStore (σ : Type) where
  /-- stores a message under a new number -/
  save : σ → ChatEntry → Called σ ChatEntry
  message : σ → Int → Called σ ChatEntry
  /-- marks messages as deleted -/
  delete : σ → List Int → Called σ Unit
  /-- the newest messages that are not deleted, the oldest of them first -/
  recent : σ → Nat → Called σ (List ChatEntry)

/-- keeps profiles of players -/
class ProfileProvider (σ : Type) where
  /-- the profile of a player, made up if there is none -/
  profile : σ → SteamId → Called σ Profile
  setChatStatus : σ → SteamId → ChatStatus → Called σ Unit

/-- reports the servers and how full they are -/
class LobbyFeed (σ : Type) where
  currentLobbies : σ → Called σ (List LobbyInfo)

/-! ## outages -/

/-- the calls that can be made to fail -/
inductive Call where
  | save
  | message
  | delete
  | recent
  | profile
  | setChatStatus
  | feed
  deriving DecidableEq, Repr

def Call.name : Call → String
  | save => "save"
  | message => "message"
  | delete => "delete"
  | recent => "recent"
  | profile => "profile"
  | setChatStatus => "set_chat_status"
  | feed => "feed"

structure WithOutages (σ : Type) where
  service : σ
  down : List Call

namespace WithOutages
variable {σ α : Type}

/-- makes a call, unless it is down -/
def call (s : WithOutages σ) (c : Call) (f : σ → Called σ α) : Called (WithOutages σ) α :=
  if c ∈ s.down then .error (.unavailable (c.name ++ " down"))
  else (f s.service).map fun (a, t) => (a, { s with service := t })

instance [ChatStore σ] : ChatStore (WithOutages σ) where
  save s e := s.call .save fun t => ChatStore.save t e
  message s id := s.call .message fun t => ChatStore.message t id
  delete s ids := s.call .delete fun t => ChatStore.delete t ids
  recent s limit := s.call .recent fun t => ChatStore.recent t limit

instance [ProfileProvider σ] : ProfileProvider (WithOutages σ) where
  profile s p := s.call .profile fun t => ProfileProvider.profile t p
  setChatStatus s p status :=
    s.call .setChatStatus fun t => ProfileProvider.setChatStatus t p status

instance [LobbyFeed σ] : LobbyFeed (WithOutages σ) where
  currentLobbies s := s.call .feed LobbyFeed.currentLobbies

end WithOutages

end Matchmaker
