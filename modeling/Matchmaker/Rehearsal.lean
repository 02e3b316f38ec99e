import Matchmaker.Chat.Log
import Matchmaker.Coordinator.Endpoint
import Matchmaker.Coordinator.Passes
import Matchmaker.Coordinator.Upkeep
import Matchmaker.ProfileTable
import Matchmaker.Service

/-!
# Rehearsals

A whole queue without a network, for trying out what happens.  The services are kept in memory and
can be made to fail, recorders take the place of clients, and time passes only when it is told to.
A client was last heard of just now, unless it is backdated.

A pass over the candidates can be held up at a slow lookup while other things happen.
-/

namespace Matchmaker

structure Rehearsal where
  service : Service (WithOutages Chat.Log) (WithOutages ProfileTable)
  feed : WithOutages StaticFeed
  lookup : Lookup
  /-- the lookups that take time -/
  isSlow : LobbyInfo → Bool
  recorders : Endpoints Recorder := .empty
  /-- when clients were last heard of, by connection -/
  backdated : List (Nat × Nat) := []
  upkeep : Option Coordinator.Upkeep := none
  now : Nat := 0
  /-- the clock that tells when clients were last heard of -/
  wall : Nat
  /-- how many clients there have been -/
  connections : Nat := 0
  held : Option Coordinator.HeldPass := none

namespace Rehearsal

def new (config : Config) (profiles : ProfileTable) (lookup : Lookup) (isSlow : LobbyInfo → Bool)
    (wall : Nat) : Rehearsal where
  service := .new config ⟨.empty, []⟩ ⟨profiles, []⟩ Moderation.byLevel
  feed := ⟨⟨[]⟩, []⟩
  lookup := lookup
  isSlow := isSlow
  wall := wall

def coordinator (s : Rehearsal) : Coordinator := s.service.coordinator

/-- A step of the coordinator takes effect. -/
def outcome (s : Rehearsal) (o : Coordinator.Outcome) : Rehearsal :=
  { s with
    service := { s.service with coordinator := o.state }
    recorders := s.recorders.applyAll s.now o.effects }

/-- A call of the service takes effect. -/
def call {α : Type} (s : Rehearsal)
    (f : Serving (WithOutages Chat.Log) (WithOutages ProfileTable) α) :
    Rehearsal × Except QueueError α :=
  let (r, service) := f.run s.service
  ({ s with
      service := { service with effects := [] }
      recorders := s.recorders.applyAll s.now service.effects }, r)

/-- Makes these calls of the services fail, and no others. -/
def setOutages (s : Rehearsal) (down : List Call) : Rehearsal :=
  { s with
    feed := { s.feed with down }
    service := { s.service with
      store := { s.service.store with down }
      profiles := { s.service.profiles with down } } }

/-! ## services in memory -/

def log (s : Rehearsal) : Chat.Log := s.service.store.service

def profiles (s : Rehearsal) : ProfileTable := s.service.profiles.service

def setLog (s : Rehearsal) (log : Chat.Log) : Rehearsal :=
  { s with service := { s.service with store := { s.service.store with service := log } } }

def setProfiles (s : Rehearsal) (t : ProfileTable) : Rehearsal :=
  { s with service := { s.service with profiles := { s.service.profiles with service := t } } }

def setLobbies (s : Rehearsal) (lobbies : List LobbyInfo) : Rehearsal :=
  { s with feed := { s.feed with service := ⟨lobbies⟩ } }

/-- what the feed reports -/
def report (s : Rehearsal) : Except CollaboratorError (List LobbyInfo) :=
  (LobbyFeed.currentLobbies s.feed).map (·.1)

/-! ## clients -/

/-- A recorder in the name of a player, which is not connected yet, and its connection. -/
def addClient (s : Rehearsal) (p : Profile) (capacity : Option Nat) : Rehearsal × Nat :=
  let n := s.connections + 1
  ({ s.outcome (.still (s.coordinator.introduce (.new n p))) with
      connections := n
      recorders := s.recorders.insert { connection := n, capacity } }, n)

def connect (s : Rehearsal) (connection : Nat) : Rehearsal :=
  match s.coordinator.session? connection with
  | some e => s.outcome (s.coordinator.connect e)
  | none => s

def disconnect (s : Rehearsal) (connection : Nat) : Rehearsal :=
  match s.coordinator.session? connection with
  | some e => s.outcome (s.coordinator.disconnect e.steamId connection)
  | none => s

/-- the responses that a recorder has taken -/
def taken (s : Rehearsal) (connection : Nat) : List Protocol.Response :=
  match s.recorders.get? connection with
  | some r => r.taken
  | none => []

/-- A client was last heard of so many nanoseconds ago. -/
def backdate (s : Rehearsal) (connection age : Nat) : Rehearsal :=
  { s with backdated := (connection, s.wall - age) :: s.backdated }

def lastSeen (s : Rehearsal) (connection : Nat) : Nat :=
  match s.backdated.find? fun b => b.1 == connection with
  | some b => b.2
  | none => s.wall

def evict (s : Rehearsal) : Rehearsal × List SteamId :=
  let (o, gone) := s.coordinator.evict s.wall s.lastSeen
  (s.outcome o, gone)

/-! ## matches -/

/-- A pass over the candidates, from its start to its end. -/
def pass (s : Rehearsal) : Rehearsal × Option ServerId :=
  match s.held with
  | some h =>
    let (o, h, started) := h.another s.lookup s.isSlow s.coordinator
    ({ s.outcome o with held := some h }, started)
  | none => let (o, started) := s.coordinator.matchPass s.lookup; (s.outcome o, started)

/-- A pass over the candidates that is held up at its first slow lookup. -/
def hold (s : Rehearsal) : Rehearsal :=
  let (o, h) := Coordinator.HeldPass.start s.lookup s.isSlow s.coordinator
  { s.outcome o with held := some h }

/-- The pass that was held up goes on to its end; the match that it started. -/
def release (s : Rehearsal) : Rehearsal × Option ServerId :=
  match s.held with
  | some h =>
    let (o, h) := h.finish s.lookup s.isSlow s.coordinator
    ({ s.outcome o with held := none }, h.started?)
  | none => (s, none)

/-- Queues a player; whether a pass is to follow. -/
def enqueue (s : Rehearsal) (p : SteamId) (servers : List ServerId) : Rehearsal × Bool :=
  match s.coordinator.enqueue? p servers with
  | some o => (s.outcome o, true)
  | none => (s, false)

/-- Takes over what the feed reports; whether a pass is to follow. -/
def reconcile (s : Rehearsal) : Rehearsal × Bool :=
  match s.report with
  | .ok lobbies => (s.outcome (s.coordinator.reconcile lobbies), true)
  | .error _ => (s, false)

/-! ## time -/

/-- Starts the upkeep, with a look at the feed. -/
def run (s : Rehearsal) : Rehearsal :=
  let s := s.outcome (s.coordinator.update s.lookup s.report)
  { s with upkeep := some (.start s.coordinator.settings 0 s.now) }

/-- Lets time pass. -/
def sleep (s : Rehearsal) (span : Nat) : Rehearsal :=
  let till := s.now + span
  match s.upkeep with
  | some u =>
    let (u, s) := u.pass .millis till
      (fun job s => s.outcome (s.coordinator.perform s.lookup s.report s.wall s.lastSeen job))
      (Coordinator.Upkeep.bound s.coordinator.settings span) s.now s
    { s with upkeep := some u, now := till }
  | none => { s with now := till }

/-- Ends the upkeep and says goodbye; whether there was any. -/
def cancel (s : Rehearsal) : Rehearsal × Bool :=
  match s.upkeep with
  | some _ => ({ s.outcome s.coordinator.shutDown with upkeep := none }, true)
  | none => (s, false)

end Rehearsal

end Matchmaker
