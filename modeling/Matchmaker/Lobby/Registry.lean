import Matchmaker.Lobby.Basic

/-!
# All lobbies

The lobbies of all servers that the feed reports, in ascending order of the server.  `reconcile`
takes over what the feed says; everything else changes queues only.

Joining and leaving name servers in a list, in which unknown ones and repetitions do no harm.
-/

namespace Matchmaker

/-- the number that a lobby is kept under -/
def Lobby.key (l : Lobby) : Nat := l.serverId.toNat

structure Registry where
  lobbies : Ascending Lobby Lobby.key
  deriving DecidableEq

namespace Registry

def empty : Registry := ⟨.empty⟩

def size (r : Registry) : Nat := r.lobbies.size

def get? (r : Registry) (s : ServerId) : Option Lobby := r.lobbies.get? s.toNat

/-! ## queues -/

/-- changes the lobby of one server, if it is known -/
def update (r : Registry) (s : ServerId) (f : Lobby → Lobby)
    (h : ∀ l, (f l).key = l.key) : Registry :=
  ⟨r.lobbies.map (fun l => if l.serverId = s then f l else l) fun l => by
    split
    · exact h l
    · rfl⟩

/-- queues a player for each of the named servers; whether anything changed -/
def join (r : Registry) (p : SteamId) (servers : List ServerId) : Registry × Bool :=
  servers.foldl (fun (r, changed) s =>
    match r.get? s with
    | some l => (r.update s (·.join p) fun _ => rfl, changed || !l.contains p)
    | none => (r, changed)) (r, false)

/-- takes a player out of the queues of the named servers; whether anything changed -/
def leave (r : Registry) (p : SteamId) (servers : List ServerId) : Registry × Bool :=
  servers.foldl (fun (r, changed) s =>
    match r.get? s with
    | some l => (r.update s (·.leave p) fun _ => rfl, changed || l.contains p)
    | none => (r, changed)) (r, false)

/-- takes a player out of all queues; whether there was any -/
def leaveAll (r : Registry) (p : SteamId) : Registry × Bool :=
  (⟨r.lobbies.map (·.leave p) fun _ => rfl⟩, r.lobbies.toList.any (·.contains p))

/-! ## the feed -/

/-- which servers came and went -/
structure Reconciled where
  added : List ServerId
  removed : List ServerId
  deriving DecidableEq, Repr

def Reconciled.changed (c : Reconciled) : Bool := !c.added.isEmpty || !c.removed.isEmpty

/-- Takes over the servers of a feed.  A known lobby takes the new record and keeps its queue, a
lobby that is not in the feed is dropped with its queue, and any other record starts an empty queue.
The old lobby is handed to the first record of its server, so a repeated record starts anew. -/
def reconcile (r : Registry) (feed : List LobbyInfo) : Registry × Reconciled :=
  let step := fun ((old, new, added) : Ascending Lobby Lobby.key × Ascending Lobby Lobby.key ×
      List ServerId) (info : LobbyInfo) =>
    match old.get? info.serverId.toNat with
    | some l => (old.erase info.serverId.toNat, new.insert (l.refresh info), added)
    | none => (old, new.insert (.ofInfo info), added ++ [info.serverId])
  let (old, new, added) := feed.foldl step (r.lobbies, .empty, [])
  (⟨new⟩, ⟨added, old.toList.map Lobby.serverId⟩)

/-! ## views -/

/-- the lobbies that can start and all of whose members are live, in order of the server -/
def eligible (r : Registry) (minMembers : Nat) (isLive : SteamId → Bool) : List Lobby :=
  r.lobbies.toList.filter fun l => l.isEligible minMembers && l.members.toList.all isLive

def states (r : Registry) : List Protocol.LobbyState := r.lobbies.toList.map Lobby.state

end Registry

end Matchmaker
