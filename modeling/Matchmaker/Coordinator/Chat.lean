import Matchmaker.Coordinator.Basic

/-!
# The chat of the connected

Messages go to every client that may read the chat, removals to every client whatever its status,
since it may still show what it got before.  A client that gets back its access to the chat is sent
all of the recent messages again.
-/

namespace Matchmaker.Coordinator

/-- Takes stored messages into the history, the oldest first, without telling anyone. -/
def seed (c : Coordinator) (entries : List ChatEntry) : Coordinator :=
  { c with chat := entries.foldl (fun h e => (h.push e).1) c.chat }

/-- Takes a new message into the history and sends it to those who may read it. -/
def message (c : Coordinator) (e : ChatEntry) : Outcome :=
  let d := { c with chat := (c.chat.push e).1 }
  ⟨d, d.broadcast (.message e) Session.hasMessageAccess⟩

/-- Drops messages from the history and tells everyone to do the same; the numbers of those that
were there. -/
def purge (c : Coordinator) (ids : List Int) : Outcome × List Int :=
  if ids.isEmpty then (.still c, [])
  else
    let (chat, removed) := c.chat.remove ids
    let d := { c with chat }
    (⟨d, d.broadcastAll (.purge ids)⟩, removed)

/-- Changes the chat status of a connected player, who is told why; the status before, or none if
the player is not connected. -/
def updateChatStatus (c : Coordinator) (p : SteamId) (status : ChatStatus) (reason : String) :
    Outcome × Option ChatStatus :=
  match c.client? p with
  | some s =>
    let d := { c with clients := c.clients.insert { s with chatStatus := status } }
    (⟨d, .deliver s.connection (.chatStatusChange status reason) ::
        if !s.hasMessageAccess && status.hasMessageAccess then d.replay s.connection else []⟩,
      some s.chatStatus)
  | none => (.still c, none)

end Matchmaker.Coordinator
