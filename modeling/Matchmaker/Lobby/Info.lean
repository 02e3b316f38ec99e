import Matchmaker.Json.Record
import Matchmaker.Net.Address
import Matchmaker.Protocol.Response
import Matchmaker.Text.Utf8

/-!
# Server records

What is known of one game server: its names, where it is, and how full it is.  The record comes from
a feed and is read from JSON, where the country and the number of players may be left out.

A server is reached by an address.  `resolve` finds it: a literal stands for itself, a name is looked
up, and of several addresses the first with four octets is preferred.
-/

namespace Matchmaker

structure LobbyInfo where
  serverId : ServerId
  title : String
  shortName : String
  hostname : String
  port : UInt16
  cc : String
  playerCount : UInt32
  maxPlayers : UInt32
  deriving DecidableEq, Repr

/-- why a server has no address -/
inductive LobbyError where
  /-- looking its name up failed, for a reason given by the lookup -/
  | resolve (hostname : String) (reason : String)
  /-- the lookup found nothing -/
  | noAddress (hostname : String)
  deriving DecidableEq, Repr

def LobbyError.message : LobbyError → String
  | resolve hostname reason => "failed to resolve " ++ hostname ++ ": " ++ reason
  | noAddress hostname => "no address for " ++ hostname

/-- looks names up: the addresses of a name, or why there are none -/
abbrev Lookup := String → Except String (List Address)

namespace LobbyInfo

/-! ## records -/

def port? (v : Json.Value) : Option UInt16 := (v.asNat? UInt16.size).map UInt16.ofNat

def count? (v : Json.Value) : Option UInt32 := (v.asNat? UInt32.size).map UInt32.ofNat

def fields : List Json.Field :=
  [.nat "server_id" UInt32.size, .text "title", .text "short_name", .text "hostname",
    .nat "port" UInt16.size, { Json.Field.text "cc" with absent := some (.text "") },
    { Json.Field.nat "player_count" UInt32.size with absent := some (.nat 0) },
    .nat "max_players" UInt32.size]

def toValue (i : LobbyInfo) : Json.Value :=
  .object [("server_id", i.serverId.toValue), ("title", .text i.title),
    ("short_name", .text i.shortName), ("hostname", .text i.hostname),
    ("port", .nat i.port.toNat), ("cc", .text i.cc), ("player_count", .nat i.playerCount.toNat),
    ("max_players", .nat i.maxPlayers.toNat)]

def ofValue? (v : Json.Value) : Option LobbyInfo := do
  let fields ← v.asFields? ["server_id", "title", "short_name", "hostname", "port", "cc",
    "player_count", "max_players"]
  match fields with
  | [some id, some title, some short, some host, some port, cc, players, some max] =>
    some {
      serverId := ← ServerId.ofValue? id
      title := ← title.asText?
      shortName := ← short.asText?
      hostname := ← host.asText?
      port := ← port? port
      cc := ← match cc with
        | none => some ""
        | some c => c.asText?
      playerCount := ← match players with
        | none => some 0
        | some n => count? n
      maxPlayers := ← count? max }
  | _ => none

def read (s : Json.Input) : Except Json.Fault (LobbyInfo × Json.Input) :=
  Json.readRecord Json.maxDepth fields s >>= Json.shaped ofValue?

def decode (bytes : ByteArray) : Except Json.Fault LobbyInfo := Json.whole read (Text.chars bytes)

def text (i : LobbyInfo) : String := i.toValue.render

/-! ## addresses -/

/-- the preferred one of several addresses -/
def preferred? (addresses : List Address) : Option Address :=
  (addresses.find? Address.isV4).or addresses.head?

/-- where the server is -/
def resolve (lookup : Lookup) (i : LobbyInfo) : Except LobbyError Address :=
  match Address.ofText? i.hostname with
  | some a => .ok a
  | none =>
    match lookup i.hostname with
    | .error reason => .error (.resolve i.hostname reason)
    | .ok addresses =>
      match preferred? addresses with
      | some a => .ok a
      | none => .error (.noAddress i.hostname)

def portText (i : LobbyInfo) : String := String.ofList (Decimal.write i.port.toNat)

/-- the link that starts the game and connects it -/
def connectUrl (i : LobbyInfo) (a : Address) : String :=
  "steam://connect/" ++ a.text ++ ":" ++ i.portText

/-- the command that connects a running game -/
def connectCommand (i : LobbyInfo) : String := "connect " ++ i.hostname ++ ":" ++ i.portText

/-- what the players of a match are told of the server -/
def server (i : LobbyInfo) (a : Address) : Protocol.LobbyServer where
  name := i.title
  shortName := i.shortName
  cc := i.cc
  connectUrl := i.connectUrl a
  connectCommand := i.connectCommand

end LobbyInfo

end Matchmaker
