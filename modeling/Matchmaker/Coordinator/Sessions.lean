import Matchmaker.Coordinator.Basic

/-!
# Coming and going

A player has one session at a time: who connects again replaces the session before, which is closed.
A session that is closed from outside finds that out in its own time and then asks to be taken out;
if it is not the registered one any more, the registry is left alone.
-/

namespace Matchmaker.Coordinator

/-- Registers a session and starts its writer.  The player gets the recent chat, if allowed to read
it, and then everyone is told. -/
def connect (c : Coordinator) (s : Session) : Outcome :=
  let previous := c.client? s.steamId
  let aside := match previous with
    | some p => c.aside.insert p
    | none => c.aside
  let d := { c with clients := c.clients.insert s, aside := aside.erase s.connection }
  ⟨d, (previous.toList.map fun p => .close p.connection) ++ [.start s.connection] ++
    (if c.released then [.release] else []) ++
    (if s.hasMessageAccess then d.replay s.connection else []) ++ d.broadcastAll d.fullUpdate⟩

/-- the registered session of a player is over this connection -/
def isCurrent (c : Coordinator) (p : SteamId) (connection : Nat) : Bool :=
  (c.client? p).any fun s => s.connection == connection

/-- Takes a session out and closes its connection.  Closing comes last, when the lock on the
coordinator was given back. -/
def disconnect (c : Coordinator) (p : SteamId) (connection : Nat) : Outcome :=
  if c.isCurrent p connection then
    let d := c.remove p
    ⟨d, d.broadcastAll d.fullUpdate ++ [.close connection]⟩
  else ⟨c, [.close connection]⟩

/-- has not been heard of for longer than the timeout -/
def isIdle (c : Coordinator) (now : Nat) (lastSeen : Nat → Nat) (s : Session) : Bool :=
  c.settings.idleTimeout < now - lastSeen s.connection

/-- the registered sessions that are idle -/
def idle (c : Coordinator) (now : Nat) (lastSeen : Nat → Nat) : List Session :=
  c.clients.toList.filter (c.isIdle now lastSeen)

/-- Takes out and closes every session whose connection was not heard of for too long; the players
who were taken out. -/
def evict (c : Coordinator) (now : Nat) (lastSeen : Nat → Nat) : Outcome × List SteamId :=
  let gone := c.idle now lastSeen
  let d := gone.foldl (fun c s => c.remove s.steamId) c
  (⟨d, (gone.map fun s => .close s.connection) ++
      if gone.isEmpty then [] else d.broadcastAll d.fullUpdate⟩,
    gone.map Session.steamId)

/-- the notice at shutdown -/
def byeMessage : String := "Server shutting down... run!!!"

/-- Says goodbye to everyone and lets all writers finish. -/
def shutDown (c : Coordinator) : Outcome :=
  ⟨{ c with released := true }, c.broadcastAll (.bye byeMessage) ++ [.release]⟩

end Matchmaker.Coordinator
