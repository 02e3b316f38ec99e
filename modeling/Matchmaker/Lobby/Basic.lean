import Matchmaker.Ascending
import Matchmaker.Lobby.Info

/-!
# Lobbies

The queue of one game server: its record, and the players who want to play there.  A lobby can start
when enough players wait and all of them fit onto the server.
-/

namespace Matchmaker

structure Lobby where
  info : LobbyInfo
  members : Ascending SteamId SteamId.toNat
  deriving DecidableEq

namespace Lobby

/-- the empty queue of a server -/
def ofInfo (info : LobbyInfo) : Lobby := ⟨info, .empty⟩

def serverId (l : Lobby) : ServerId := l.info.serverId

def contains (l : Lobby) (p : SteamId) : Bool := l.members.hasKey p.toNat

def join (l : Lobby) (p : SteamId) : Lobby := { l with members := l.members.insert p }

def leave (l : Lobby) (p : SteamId) : Lobby := { l with members := l.members.erase p.toNat }

/-- takes a new record of the same server, and keeps the queue -/
def refresh (l : Lobby) (info : LobbyInfo) : Lobby := { l with info := info }

/-- places that are left when all members have joined the server; negative if they do not fit -/
def freeSlots (l : Lobby) : Int :=
  l.info.maxPlayers.toNat - l.info.playerCount.toNat - l.members.size

def isEligible (l : Lobby) (minMembers : Nat) : Bool :=
  minMembers ≤ l.members.size && 0 ≤ l.freeSlots

def state (l : Lobby) : Protocol.LobbyState := ⟨l.serverId, l.members.toList⟩

@[simp] theorem contains_iff {l : Lobby} {p : SteamId} : l.contains p = true ↔ p ∈ l.members := by
  rw [contains, Ascending.hasKey_iff]
  constructor
  · rintro ⟨q, hq, h⟩
    exact SteamId.ext_toNat h ▸ hq
  · exact fun h => ⟨p, h, rfl⟩

theorem mem_join {l : Lobby} {p q : SteamId} :
    q ∈ (l.join p).members ↔ q = p ∨ q ∈ l.members := by
  rw [join, Ascending.mem_insert]
  by_cases h : q = p
  · simp [h]
  · simp [h, mt SteamId.ext_toNat h]

theorem mem_leave {l : Lobby} {p q : SteamId} :
    q ∈ (l.leave p).members ↔ q ∈ l.members ∧ q ≠ p := by
  rw [leave, Ascending.mem_erase]
  exact and_congr_right fun _ => not_congr ⟨SteamId.ext_toNat, congrArg SteamId.toNat⟩

theorem join_join (l : Lobby) (p : SteamId) : (l.join p).join p = l.join p := by
  show (⟨l.info, _⟩ : Lobby) = ⟨l.info, _⟩
  congr 1
  refine Ascending.ext_mem fun q => ?_
  exact ⟨fun h => mem_join.2 ((mem_join.1 h).elim .inl mem_join.1), fun h => mem_join.2 (.inr h)⟩

theorem leave_leave (l : Lobby) (p : SteamId) : (l.leave p).leave p = l.leave p := by
  show (⟨l.info, _⟩ : Lobby) = ⟨l.info, _⟩
  congr 1
  refine Ascending.ext_mem fun q => ?_
  exact ⟨fun h => (mem_leave.1 h).1, fun h => mem_leave.2 ⟨h, (mem_leave.1 h).2⟩⟩

@[simp] theorem serverId_join (l : Lobby) (p : SteamId) : (l.join p).serverId = l.serverId := rfl
@[simp] theorem serverId_leave (l : Lobby) (p : SteamId) : (l.leave p).serverId = l.serverId := rfl

end Lobby

end Matchmaker
