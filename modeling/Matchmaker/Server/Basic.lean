import Matchmaker.Coordinator.Endpoint
import Matchmaker.Coordinator.Matching
import Matchmaker.Coordinator.Sessions
import Matchmaker.Server.Upgrade
import Matchmaker.Service

/-!
# The server

Connections from end to end.  Whoever asks for one is identified and looked up, and becomes a client
that is registered with the coordinator.  A handler then takes one request of the client after
another and turns it into a call.  Frames that are no requests, and requests that are refused, end
nothing; the handler returns when reading ends, and takes its session out of the registry.

All connections share one service.  What a call asks of them is carried out before anything else
happens.
-/

namespace Matchmaker

/-- a connection and the handler that serves it -/
structure Served (κ : Type) where
  client : Client κ
  /-- what the handler waits for; none once it has returned -/
  waiting : Option Client.Waiting

namespace Served
variable {κ : Type} [Client.Quantity κ]

def connection (s : Served κ) : Nat := s.client.session.connection

instance : Endpoint (Served κ) where
  connection := connection
  start s now := { s with client := Endpoint.start s.client now }
  take s r := { s with client := Endpoint.take s.client r }
  close s := { s with client := Endpoint.close s.client }
  release s := { s with client := Endpoint.release s.client }
  connection_start s now := Endpoint.connection_start s.client now
  connection_take s r := Endpoint.connection_take s.client r
  connection_close s := Endpoint.connection_close s.client
  connection_release s := Endpoint.connection_release s.client

end Served

/-- one instant on all the clocks -/
structure Moment where
  now : Nat
  /-- for when clients were last heard of -/
  wall : Nat
  /-- for what is stored -/
  date : Timestamp

structure Server (σ π κ : Type) [Client.Quantity κ] where
  service : Service σ π
  authenticator : Server.Authenticator
  lookup : Lookup
  clock : Clock
  settings : Client.Settings
  allowedOrigins : List String
  served : Endpoints (Served κ) := .empty
  /-- how many connections there have been -/
  connections : Nat := 0

namespace Server
variable {σ π κ : Type} [Client.Quantity κ]

/-- A server over a service whose history is filled from what is stored.  The configuration is
validated first, and where that overflows nothing is built. -/
def build [ChatStore σ] (config : Config) (store : σ) (profiles : π) (policy : Moderation.Policy)
    (authenticator : Authenticator) (lookup : Lookup) (clock : Clock) :
    Except Overflow (Except QueueError (Server σ π κ)) := do
  let config ← config.validated
  return match Service.seedHistory.run (Service.new config store profiles policy) with
  | (.ok _, service) => .ok {
      service, authenticator, lookup, clock
      settings := config.clientSettings
      allowedOrigins := config.allowedOrigins }
  | (.error e, _) => .error e

/-- What the service asks of the connections is carried out. -/
def carryOut (s : Server σ π κ) (m : Moment) : Server σ π κ :=
  { s with
    service := { s.service with effects := [] }
    served := s.served.applyAll m.now s.service.effects }

/-- A call of the service; what it comes to. -/
def call {α : Type} (s : Server σ π κ) (m : Moment) (f : Serving σ π α) :
    Server σ π κ × Except QueueError α :=
  let (r, service) := f.run s.service
  (carryOut { s with service } m, r)

/-- A step of the coordinator. -/
def step (s : Server σ π κ) (m : Moment) (f : Coordinator → Coordinator.Outcome) : Server σ π κ :=
  (s.call m (Service.onCoordinator fun c => (f c, ()))).1

/-- when the client of a connection was last heard of -/
def lastSeen (s : Server σ π κ) (connection : Nat) : Nat :=
  match s.served.get? connection with
  | some v => v.client.lastSeen
  | none => 0

/-! ## connecting -/

/-- what becomes of a request for a connection -/
inductive Upgraded where
  /-- refused, with an HTTP status -/
  | refused (status : Nat) (body : String)
  /-- accepted, and closed for want of an identity or a profile -/
  | closed (e : QueueError)
  | opened (connection : Nat)
  deriving DecidableEq, Repr

/-- Someone asks for a connection. -/
def upgrade [ProfileProvider π] (s : Server σ π κ) (m : Moment) (u : Upgrade) :
    Server σ π κ × Upgraded :=
  if acceptsOrigin s.allowedOrigins u.origin then
    let n := s.connections + 1
    let s := { s with connections := n }
    match identify s.authenticator u with
    | .error e => (s, .closed e)
    | .ok p =>
      match s.call m (Service.onProfiles (ProfileProvider.profile · p)) with
      | (s, .error e) => (s, .closed e)
      | (s, .ok profile) =>
        let client := { Client.new n profile s.settings m.now m.wall with activity := some m.wall }
        let s := { s with served := s.served.insert ⟨client, some .frame⟩ }
        (s.step m (·.connect client.session), .opened n)
  else (s, .refused 403 "origin not allowed")

/-! ## handling -/

/-- A request of a session takes effect.  One that is refused has none. -/
def handle [ChatStore σ] (s : Server σ π κ) (m : Moment) (e : Session) :
    Protocol.Request → Server σ π κ
  | .joinQueue servers => s.step m fun c => c.join s.lookup e.steamId servers
  | .leaveQueue servers => s.step m (·.leave e.steamId servers)
  | .message body =>
    match s.service.coordinator.session? e.connection with
    | some e => (s.call m (Service.addMessage e m.date body)).1
    | none => s

/-- The handler of a connection takes up to `n` requests, until it has to wait or reading ends. -/
def goOn [ChatStore σ] (m : Moment) (connection : Nat) : Nat → Server σ π κ → Server σ π κ
  | 0, s => s
  | n + 1, s =>
    match s.served.get? connection with
    | some ⟨c, some w⟩ =>
      let (c, progress) := c.goOn s.clock m.now m.wall w
      match progress with
      | .waiting w => { s with served := s.served.insert ⟨c, some w⟩ }
      | .ended (.ok r) =>
        goOn m connection n
          (handle { s with served := s.served.insert ⟨c, some .frame⟩ } m c.session r)
      | .ended (.error e) =>
        if e.isFatal then
          step { s with served := s.served.insert ⟨c, none⟩ } m
            (·.disconnect c.session.steamId connection)
        else goOn m connection n { s with served := s.served.insert ⟨c, some .frame⟩ }
    | _ => s

/-- The handler of a connection goes on as far as it can. -/
def attend [ChatStore σ] (m : Moment) (s : Server σ π κ) (connection : Nat) : Server σ π κ :=
  match s.served.get? connection with
  | some v => goOn m connection (v.client.inbound.arrivals.length + 1) s
  | none => s

/-- Every writer does what it can.  A connection that it closes is hung up by the other side. -/
def write (m : Moment) (s : Server σ π κ) : Server σ π κ :=
  { s with
    served := s.served.map (fun v =>
      let c := v.client.settle m.now
      { v with
        client := { c with
          inbound := if 0 < c.outbound.link.closes then c.inbound.hangUp else c.inbound } })
      fun _ => rfl }

/-- Writers and handlers take turns, `n` times. -/
def rounds [ChatStore σ] (m : Moment) : Nat → Server σ π κ → Server σ π κ
  | 0, s => s.write m
  | n + 1, s =>
    let s := s.write m
    rounds m n ((s.served.toList.map Served.connection).foldl (attend m) s)

/-- Everyone does what can be done now.  A handler that returns may let the writer of another
connection go on, and a writer that stops lets the handler of its own connection return. -/
def settle [ChatStore σ] (s : Server σ π κ) (m : Moment) : Server σ π κ :=
  s.rounds m (s.served.size + 1)

/-! ## from outside -/

/-- The other side sends frames over a connection. -/
def deliver (s : Server σ π κ) (connection : Nat) (frames : List ByteArray) : Server σ π κ :=
  match s.served.get? connection with
  | some v =>
    let inbound := frames.foldl (fun i b => i.deliver (.frame b)) v.client.inbound
    { s with served := s.served.insert { v with client := { v.client with inbound } } }
  | none => s

/-- The other side closes a connection. -/
def hangUp (s : Server σ π κ) (connection : Nat) : Server σ π κ :=
  match s.served.get? connection with
  | some v =>
    { s with
      served := s.served.insert
        { v with client := { v.client with inbound := v.client.inbound.hangUp } } }
  | none => s

end Server

end Matchmaker
