import Matchmaker.Ascending
import Matchmaker.Collaborator

/-!
# Profiles and servers kept in memory

A table of profiles, in which a player who is asked for and not found gets a regular profile, and a
feed that reports a fixed list of servers until it is given another one.
-/

namespace Matchmaker

/-! ## profiles -/

/-- the number that a profile is kept under -/
def Profile.key (p : Profile) : Nat := p.steamId.toNat

structure ProfileTable where
  profiles : Ascending Profile Profile.key
  deriving DecidableEq

namespace ProfileTable

def empty : ProfileTable := ⟨.empty⟩

def insert (t : ProfileTable) (p : Profile) : ProfileTable := ⟨t.profiles.insert p⟩

def get? (t : ProfileTable) (p : SteamId) : Option Profile := t.profiles.get? p.toNat

/-- the profile that an unknown player gets -/
def newcomer (p : SteamId) : Profile := .regular p ("player-" ++ p.text)

/-- the profile of a player, who is added if unknown -/
def profile (t : ProfileTable) (p : SteamId) : Profile × ProfileTable :=
  match t.get? p with
  | some found => (found, t)
  | none => (newcomer p, t.insert (newcomer p))

/-- changes the chat status of a known player -/
def setChatStatus? (t : ProfileTable) (p : SteamId) (status : ChatStatus) : Option ProfileTable :=
  (t.get? p).map fun found => t.insert { found with chatStatus := status }

instance : ProfileProvider ProfileTable where
  profile t p := .ok (t.profile p)
  setChatStatus t p status :=
    match t.setChatStatus? p status with
    | some t => .ok ((), t)
    | none => .error (.notFound ("profile " ++ p.text))

end ProfileTable

/-! ## servers -/

structure StaticFeed where
  lobbies : List LobbyInfo
  deriving DecidableEq

instance : LobbyFeed StaticFeed where
  currentLobbies f := .ok (f.lobbies, f)

end Matchmaker
