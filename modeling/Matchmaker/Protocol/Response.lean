import Matchmaker.Chat.Entry
import Matchmaker.ChatStatus
import Matchmaker.Protocol.Request

/-!
# Responses

What is sent to clients: the state of the queues and of the user list, the start of a match, chat
messages and their removal, a change of one's own chat status, and the notice at shutdown.

A state update is partial where a flag says so: a client then keeps the list that it has.
-/

namespace Matchmaker.Protocol

/-- a player as others see them -/
structure Member where
  name : String
  steamId : SteamId
  hash : String
  deriving DecidableEq, Repr

/-- the players queued for one lobby -/
structure LobbyState where
  serverId : ServerId
  members : List SteamId
  deriving DecidableEq, Repr

structure StateUpdate where
  updateUsers : Bool
  updateServers : Bool
  servers : List LobbyState
  users : List Member
  deriving DecidableEq, Repr

/-- where the players of a match should go -/
structure LobbyServer where
  name : String
  shortName : String
  cc : String
  connectUrl : String
  connectCommand : String
  deriving DecidableEq, Repr

inductive Response where
  | stateUpdate (update : StateUpdate)
  | startGame (server : LobbyServer) (users : List Member)
  | message (entry : ChatEntry)
  | purge (messageIds : List Int)
  | bye (message : String)
  | chatStatusChange (status : ChatStatus) (reason : String)
  deriving DecidableEq, Repr

/-! ## payloads -/

namespace Member

def toValue (m : Member) : Json.Value :=
  .object [("name", .text m.name), ("steam_id", m.steamId.toValue), ("hash", .text m.hash)]

def ofValue? (v : Json.Value) : Option Member := do
  match ← v.asFields? ["name", "steam_id", "hash"] with
  | [some name, some id, some hash] =>
    some ⟨← name.asText?, ← SteamId.ofValue? id, ← hash.asText?⟩
  | _ => none

end Member

namespace LobbyState

def toValue (s : LobbyState) : Json.Value :=
  .object [("server_id", s.serverId.toValue), ("members", .array (s.members.map SteamId.toValue))]

def ofValue? (v : Json.Value) : Option LobbyState := do
  match ← v.asFields? ["server_id", "members"] with
  | [some id, some members] =>
    some ⟨← ServerId.ofValue? id, ← members.asListOf? SteamId.ofValue?⟩
  | _ => none

end LobbyState

namespace StateUpdate

def toValue (u : StateUpdate) : Json.Value :=
  .object [("update_users", .bool u.updateUsers), ("update_servers", .bool u.updateServers),
    ("servers", .array (u.servers.map LobbyState.toValue)),
    ("users", .array (u.users.map Member.toValue))]

def ofValue? (v : Json.Value) : Option StateUpdate := do
  match ← v.asFields? ["update_users", "update_servers", "servers", "users"] with
  | [some users, some servers, some states, some members] =>
    some ⟨← users.asBool?, ← servers.asBool?, ← states.asListOf? LobbyState.ofValue?,
      ← members.asListOf? Member.ofValue?⟩
  | _ => none

end StateUpdate

namespace LobbyServer

def toValue (s : LobbyServer) : Json.Value :=
  .object [("name", .text s.name), ("short_name", .text s.shortName), ("cc", .text s.cc),
    ("connect_url", .text s.connectUrl), ("connect_command", .text s.connectCommand)]

def ofValue? (v : Json.Value) : Option LobbyServer := do
  match ← v.asFields? ["name", "short_name", "cc", "connect_url", "connect_command"] with
  | [some name, some short, some cc, some url, some command] =>
    some ⟨← name.asText?, ← short.asText?, ← cc.asText?, ← url.asText?, ← command.asText?⟩
  | _ => none

end LobbyServer

namespace Response

def op : Response → Op
  | stateUpdate _ => .stateUpdate
  | startGame _ _ => .startGame
  | message _ => .message
  | purge _ => .purge
  | bye _ => .bye
  | chatStatusChange _ _ => .chatStatusChange

def payload : Response → Json.Value
  | stateUpdate u => u.toValue
  | startGame server users =>
    .object [("server", server.toValue), ("users", .array (users.map Member.toValue))]
  | message e => e.toValue
  | purge ids => .object [("message_ids", .array (ids.map Json.Value.int))]
  | bye text => .object [("message", .text text)]
  | chatStatusChange status reason =>
    .object [("status", status.toValue), ("reason", .text reason)]

def startGameOf? (v : Json.Value) : Option Response := do
  match ← v.asFields? ["server", "users"] with
  | [some server, some users] =>
    some (startGame (← LobbyServer.ofValue? server) (← users.asListOf? Member.ofValue?))
  | _ => none

def purgeOf? (v : Json.Value) : Option Response := do
  match ← v.asFields? ["message_ids"] with
  | [some ids] => some (purge (← ids.asListOf? ChatEntry.messageId?))
  | _ => none

def byeOf? (v : Json.Value) : Option Response := do
  match ← v.asFields? ["message"] with
  | [some text] => some (bye (← text.asText?))
  | _ => none

def chatStatusChangeOf? (v : Json.Value) : Option Response := do
  match ← v.asFields? ["status", "reason"] with
  | [some status, some reason] =>
    some (chatStatusChange (← ChatStatus.ofValue? status) (← reason.asText?))
  | _ => none

/-! ## frames -/

def toFrame (r : Response) : Frame := ⟨r.op.code, r.payload⟩

def toValue (r : Response) : Json.Value := r.toFrame.toValue

def text (r : Response) : String := r.toFrame.text

/-- the response of an operation; operations that only a client may ask for are refused, whatever
their payload -/
def ofOp (op : Op) (payload : Json.Value) : Except ProtocolError Response :=
  match op with
  | .stateUpdate => Request.orPayload op ((StateUpdate.ofValue? payload).map stateUpdate)
  | .startGame => Request.orPayload op (startGameOf? payload)
  | .message => Request.orPayload op ((ChatEntry.ofValue? payload).map message)
  | .purge => Request.orPayload op (purgeOf? payload)
  | .bye => Request.orPayload op (byeOf? payload)
  | .chatStatusChange => Request.orPayload op (chatStatusChangeOf? payload)
  | op => .error (.unexpectedOp op)

def ofFrame (f : Frame) : Except ProtocolError Response :=
  match Op.ofCode? f.op with
  | some op => ofOp op f.payload
  | none => .error (.unknownOp f.op)

/-- reads a frame and then the response in it -/
def decodeStaged (bytes : ByteArray) : Except ProtocolError Response :=
  match Frame.decode bytes with
  | .ok f => ofFrame f
  | .error fault => .error (.decode fault)

/-- reads a response in one go -/
def decode (bytes : ByteArray) : Except Json.Fault Response :=
  Json.whole (fun s => Frame.read s >>= fun (f, r) =>
    match ofFrame f with
    | .ok q => .ok (q, r)
    | .error _ => .error .mismatch) (Text.chars bytes)

end Response

end Matchmaker.Protocol
