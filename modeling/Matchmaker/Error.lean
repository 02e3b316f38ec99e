import Matchmaker.Lobby.Info
import Matchmaker.Protocol.Error

/-!
# Errors

One type per layer, each constructor a cause, and `QueueError` for whatever is reported to a caller
from outside.  An error of a lower layer keeps its own text there.  `QueueError.statusCode` is the
code with which a moderation endpoint answers.
-/

namespace Matchmaker

/-- a connection or its setup failed -/
inductive TransportError where
  | connectionClosed (reason : String)
  | sendFailed (reason : String)
  | receiveFailed (reason : String)
  | acceptFailed (reason : String)
  /-- the upgrade of a connection was refused -/
  | rejected (reason : String)
  deriving DecidableEq, Repr

def TransportError.message : TransportError → String
  | connectionClosed reason => "connection closed: " ++ reason
  | sendFailed reason => "send failed: " ++ reason
  | receiveFailed reason => "receive failed: " ++ reason
  | acceptFailed reason => "accept failed: " ++ reason
  | rejected reason => "upgrade rejected: " ++ reason

/-- serving one client failed -/
inductive ClientError where
  | authFailed (reason : String)
  /-- the connection was closed, by either side -/
  | closed
  /-- reading from the connection failed -/
  | transport (reason : String)
  /-- one frame was refused -/
  | protocol (e : ProtocolError)
  /-- a response was dropped, since too many are waiting to be sent -/
  | queueFull (steamId : SteamId)
  deriving DecidableEq, Repr

namespace ClientError

def message : ClientError → String
  | authFailed reason => "authentication failed: " ++ reason
  | closed => "connection closed"
  | transport reason => "transport error: " ++ reason
  | protocol e => e.message
  | queueFull p => "outbound queue full for " ++ p.text

/-- ends the session; after any other error reading goes on -/
def isFatal : ClientError → Bool
  | closed => true
  | transport _ => true
  | _ => false

end ClientError

/-- a service outside the queue failed -/
inductive CollaboratorError where
  | notFound (what : String)
  | unavailable (what : String)
  deriving DecidableEq, Repr

def CollaboratorError.message : CollaboratorError → String
  | notFound what => what ++ " not found"
  | unavailable what => "collaborator unavailable: " ++ what

/-- what is reported to callers -/
inductive QueueError where
  | transport (e : TransportError)
  | protocol (e : ProtocolError)
  | client (e : ClientError)
  | lobby (e : LobbyError)
  | collaborator (e : CollaboratorError)
  | badInput (reason : String)
  /-- the caller is nobody in particular -/
  | unauthenticated
  | permissionDenied
  /-- the change asked for is none -/
  | duplicate (reason : String)
  | config (reason : String)
  deriving DecidableEq, Repr

namespace QueueError

def message : QueueError → String
  | transport e => e.message
  | protocol e => e.message
  | client e => e.message
  | lobby e => e.message
  | collaborator e => e.message
  | badInput reason => "bad input: " ++ reason
  | unauthenticated => "unauthenticated"
  | permissionDenied => "permission denied"
  | duplicate reason => "duplicate: " ++ reason
  | config reason => "config error: " ++ reason

def statusCode : QueueError → Nat
  | badInput _ => 400
  | unauthenticated => 401
  | client (.authFailed _) => 401
  | permissionDenied => 403
  | collaborator (.notFound _) => 404
  | duplicate _ => 409
  | _ => 500

end QueueError

end Matchmaker
