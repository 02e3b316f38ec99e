import Matchmaker.Identity
import Matchmaker.Protocol.Error
import Matchmaker.Protocol.Frame

/-!
# Requests

What a client may ask for: to be queued for some lobbies, to leave the queues of some lobbies, and
to say something in the chat.

A request is read from a frame (`ofFrame`).  `decode` does this in one go and then has one kind of
refusal only: a frame that is no request does not have the shape that was asked for.
-/

namespace Matchmaker.Protocol

inductive Request where
  | joinQueue (servers : List ServerId)
  | leaveQueue (servers : List ServerId)
  | message (body : String)
  deriving DecidableEq, Repr

namespace Request

def op : Request → Op
  | joinQueue _ => .joinQueue
  | leaveQueue _ => .leaveQueue
  | message _ => .message

/-! ## payloads -/

/-- the payload of an operation on queues: a list of lobbies -/
def serversOf? (v : Json.Value) : Option (List ServerId) := do
  match ← v.asFields? ["servers"] with
  | [some s] => s.asListOf? ServerId.ofValue?
  | _ => none

/-- the payload of a chat message: its text -/
def bodyOf? (v : Json.Value) : Option String := do
  match ← v.asFields? ["body_md"] with
  | [some b] => b.asText?
  | _ => none

def payload : Request → Json.Value
  | joinQueue servers => .object [("servers", .array (servers.map ServerId.toValue))]
  | leaveQueue servers => .object [("servers", .array (servers.map ServerId.toValue))]
  | message body => .object [("body_md", .text body)]

/-! ## frames -/

def toFrame (r : Request) : Frame := ⟨r.op.code, r.payload⟩

def text (r : Request) : String := r.toFrame.text

/-- the payload of a known operation, or the refusal of it -/
def orPayload {α : Type} (op : Op) : Option α → Except ProtocolError α
  | some a => .ok a
  | none => .error (.payload op)

/-- the request of an operation; operations that are only sent to clients are refused, whatever
their payload -/
def ofOp (op : Op) (payload : Json.Value) : Except ProtocolError Request :=
  match op with
  | .joinQueue => orPayload op ((serversOf? payload).map joinQueue)
  | .leaveQueue => orPayload op ((serversOf? payload).map leaveQueue)
  | .message => orPayload op ((bodyOf? payload).map message)
  | op => .error (.unexpectedOp op)

def ofFrame (f : Frame) : Except ProtocolError Request :=
  match Op.ofCode? f.op with
  | some op => ofOp op f.payload
  | none => .error (.unknownOp f.op)

/-- reads a frame and then the request in it -/
def decodeStaged (bytes : ByteArray) : Except ProtocolError Request :=
  match Frame.decode bytes with
  | .ok f => ofFrame f
  | .error fault => .error (.decode fault)

/-- reads a request in one go -/
def decode (bytes : ByteArray) : Except Json.Fault Request :=
  Json.whole (fun s => Frame.read s >>= fun (f, r) =>
    match ofFrame f with
    | .ok q => .ok (q, r)
    | .error _ => .error .mismatch) (Text.chars bytes)

end Request

end Matchmaker.Protocol
