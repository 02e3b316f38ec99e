import Matchmaker.Coordinator.Basic

/-!
# Queues and matches

A match takes two steps.  First the lobbies that can start are listed, with their records and their
members (`candidates`).  Then one after the other is tried: its address is looked up, which takes
time, and the match is started (`startMatch`) if the lobby can still start and has the very same
members.  A lobby without an address is passed over.  What is sent is taken from the list, so it is
as old as the list.

Starting a match takes its players out of all queues, and a pass over the list ends there.
-/

namespace Matchmaker.Coordinator

/-! ## queues -/

/-- Queues a player; none if that changes nothing. -/
def enqueue? (c : Coordinator) (p : SteamId) (servers : List ServerId) : Option Outcome :=
  if c.isConnected p then
    match c.lobbies.join p servers with
    | (lobbies, true) => let d := { c with lobbies }; some ⟨d, d.broadcastAll d.serversUpdate⟩
    | (_, false) => none
  else none

/-- Takes a player out of queues. -/
def leave (c : Coordinator) (p : SteamId) (servers : List ServerId) : Outcome :=
  match c.lobbies.leave p servers with
  | (lobbies, true) => let d := { c with lobbies }; ⟨d, d.broadcastAll d.serversUpdate⟩
  | (_, false) => .still c

/-- Takes over what the feed reports. -/
def reconcile (c : Coordinator) (feed : List LobbyInfo) : Outcome :=
  let (lobbies, change) := c.lobbies.reconcile feed
  let d := { c with lobbies }
  ⟨d, if change.changed then d.broadcastAll d.serversUpdate else []⟩

/-! ## matches -/

/-- the lobbies that can start, in ascending order of the server -/
def candidates (c : Coordinator) : List Lobby :=
  c.lobbies.eligible c.settings.minQueueSize c.isConnected

/-- the lobby of the same server can start and has the same members, all of them registered -/
def isUnchanged (c : Coordinator) (l : Lobby) : Bool :=
  match c.lobbies.get? l.serverId with
  | some m =>
    m.isEligible c.settings.minQueueSize && m.members.toList == l.members.toList &&
      l.members.toList.all c.isConnected
  | none => false

/-- Starts the match of a lobby that was listed, at its address; none if the lobby has changed. -/
def startMatch? (c : Coordinator) (l : Lobby) (address : Address) : Option Outcome :=
  if c.isUnchanged l then
    let players := l.members.toList.filterMap c.client?
    let start : Protocol.Response :=
      .startGame (l.info.server address) (players.map Session.member)
    let d := { c with lobbies := l.members.toList.foldl (fun r p => (r.leaveAll p).1) c.lobbies }
    some ⟨d, (players.map fun s => .deliver s.connection start) ++ d.broadcastAll d.serversUpdate⟩
  else none

/-- Tries a lobby whose lookup has ended. -/
def tryMatch? (c : Coordinator) (l : Lobby) (address : Except LobbyError Address) :
    Option Outcome :=
  match address with
  | .ok a => c.startMatch? l a
  | .error _ => none

/-- how far a pass over the candidates has come -/
inductive Pass where
  /-- the address of a lobby is being looked up; the others come after it -/
  | lookup (l : Lobby) (rest : List Lobby)
  /-- the pass is over, and a match was started or not -/
  | ended (started : Option ServerId)
  deriving DecidableEq

/-- Goes on with a pass until it is over or waits for a lookup that takes time.  Until then nothing
else happens. -/
def scan (lookup : Lookup) (isSlow : LobbyInfo → Bool) (c : Coordinator) :
    List Lobby → Outcome × Pass
  | [] => (.still c, .ended none)
  | l :: rest =>
    if isSlow l.info then (.still c, .lookup l rest)
    else match c.tryMatch? l (l.info.resolve lookup) with
      | some o => (o, .ended (some l.serverId))
      | none => scan lookup isSlow c rest

/-- Goes on with a pass after the lookup that it waited for has ended. -/
def resume (lookup : Lookup) (isSlow : LobbyInfo → Bool) (c : Coordinator) :
    Pass → Outcome × Pass
  | .lookup l rest =>
    match c.tryMatch? l (l.info.resolve lookup) with
    | some o => (o, .ended (some l.serverId))
    | none => scan lookup isSlow c rest
  | .ended started => (.still c, .ended started)

/-- A pass that no other step interrupts: the match that it started, if any. -/
def matchPass (lookup : Lookup) (c : Coordinator) : Outcome × Option ServerId :=
  match scan lookup (fun _ => false) c c.candidates with
  | (o, .ended started) => (o, started)
  | (o, .lookup _ _) => (o, none)

/-- Queues a player and looks for a match, without interruption. -/
def join (lookup : Lookup) (c : Coordinator) (p : SteamId) (servers : List ServerId) : Outcome :=
  match c.enqueue? p servers with
  | some o => o.andThen fun d => (matchPass lookup d).1
  | none => .still c

/-- Takes over what the feed reports and looks for a match, without interruption.  Should the feed
fail, nothing happens. -/
def update (lookup : Lookup) (c : Coordinator)
    (feed : Except CollaboratorError (List LobbyInfo)) : Outcome :=
  match feed with
  | .ok lobbies => (c.reconcile lobbies).andThen fun d => (matchPass lookup d).1
  | .error _ => .still c

end Matchmaker.Coordinator
