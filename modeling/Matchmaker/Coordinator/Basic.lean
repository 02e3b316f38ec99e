import Matchmaker.Chat.History
import Matchmaker.Config
import Matchmaker.Coordinator.Effect
import Matchmaker.Lobby.Registry

/-!
# The coordinator

The one owner of who is connected, who is queued where, and the recent chat.  Everything that
happens to these is a sequence of steps, each of which takes a coordinator to another one and says
what is asked of the connections (`Outcome`).  A step is never interrupted; other steps may come
between two steps of the same task.

At most one session per player is registered.  A session that is not, because it was replaced or has
ended, is kept aside: whoever serves its connection may still act in its name, and finds the chat
status that it had.
-/

namespace Matchmaker

open Protocol (Response)

namespace Coordinator

structure Settings where
  /-- the members that a lobby needs to start -/
  minQueueSize : Nat
  /-- between two looks at the feed, in nanoseconds -/
  reconcileInterval : Nat
  /-- between two searches for idle clients -/
  evictionInterval : Nat
  /-- after which a client that is not heard of is idle -/
  idleTimeout : Nat
  deriving DecidableEq, Repr

/-- A match needs one player at least. -/
def Settings.ofConfig (c : Config) : Settings where
  minQueueSize := max c.minQueueSize.toNat 1
  reconcileInterval := c.reconcileSecs.toNat * Client.nanosPerSecond
  evictionInterval := c.evictionSecs.toNat * Client.nanosPerSecond
  idleTimeout := c.idleTimeoutSecs.toNat * Client.nanosPerSecond

end Coordinator

structure Coordinator where
  settings : Coordinator.Settings
  /-- the registered sessions, by player -/
  clients : Ascending Session Session.playerKey
  /-- other sessions, by connection -/
  aside : Ascending Session Session.connection
  lobbies : Registry
  chat : Chat.History
  /-- the whole process shuts down, and writers stop when they have written what waits -/
  released : Bool := false

namespace Coordinator

def new (config : Config) : Coordinator where
  settings := .ofConfig config
  clients := .empty
  aside := .empty
  lobbies := .empty
  chat := .empty config.chatHistorySize.toNat

/-- a coordinator after a step, and what the step asks of the connections -/
structure Outcome where
  state : Coordinator
  effects : List Effect

namespace Outcome

/-- nothing happens -/
def still (c : Coordinator) : Outcome := ⟨c, []⟩

/-- one step after another -/
def andThen (o : Outcome) (f : Coordinator → Outcome) : Outcome :=
  let p := f o.state
  ⟨p.state, o.effects ++ p.effects⟩

end Outcome

/-! ## sessions -/

/-- the registered session of a player -/
def client? (c : Coordinator) (p : SteamId) : Option Session := c.clients.get? p.toNat

def isConnected (c : Coordinator) (p : SteamId) : Bool := c.clients.hasKey p.toNat

/-- the session of a connection, registered or not -/
def session? (c : Coordinator) (connection : Nat) : Option Session :=
  (c.clients.toList.find? fun s => s.connection == connection).or (c.aside.get? connection)

/-- keeps a session aside until it is registered -/
def introduce (c : Coordinator) (s : Session) : Coordinator := { c with aside := c.aside.insert s }

/-- takes the session of a player out of the registry and the player out of all queues -/
def remove (c : Coordinator) (p : SteamId) : Coordinator :=
  match c.client? p with
  | some s =>
    { c with
      clients := c.clients.erase p.toNat
      aside := c.aside.insert s
      lobbies := (c.lobbies.leaveAll p).1 }
  | none => c

/-! ## what clients are sent -/

/-- a response for every registered client that passes -/
def broadcast (c : Coordinator) (r : Response) (p : Session → Bool) : List Effect :=
  (c.clients.toList.filter p).map fun s => .deliver s.connection r

def broadcastAll (c : Coordinator) (r : Response) : List Effect := c.broadcast r fun _ => true

/-- the registered players as others see them, in ascending order of their identity -/
def users (c : Coordinator) : List Protocol.Member := c.clients.toList.map Session.member

def lobbyStates (c : Coordinator) : List Protocol.LobbyState := c.lobbies.states

/-- the state of users and queues -/
def fullUpdate (c : Coordinator) : Response :=
  .stateUpdate {
    updateUsers := true
    updateServers := true
    servers := c.lobbyStates
    users := c.users }

/-- the state of the queues alone -/
def serversUpdate (c : Coordinator) : Response :=
  .stateUpdate {
    updateUsers := false
    updateServers := true
    servers := c.lobbyStates
    users := [] }

/-- the recent chat for one connection, the oldest message first -/
def replay (c : Coordinator) (connection : Nat) : List Effect :=
  c.chat.entries.map fun e => .deliver connection (.message e)

end Coordinator

end Matchmaker
