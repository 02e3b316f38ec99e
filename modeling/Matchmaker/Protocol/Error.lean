import Matchmaker.Identity
import Matchmaker.Protocol.Op
import Matchmaker.Text.Quoted

/-!
# Why a frame is refused

Every one of these is the fault of a single frame: it is dropped, and the connection stays open.
-/

namespace Matchmaker

inductive ProtocolError where
  /-- the frame is not an envelope with an operation code -/
  | decode (fault : Json.Fault)
  /-- no operation has this code -/
  | unknownOp (code : Int)
  /-- the operation is only sent the other way -/
  | unexpectedOp (op : Protocol.Op)
  /-- the payload does not have the shape that its operation calls for -/
  | payload (op : Protocol.Op)
  /-- a well-formed value breaks a rule -/
  | invalidMessage (text : String)
  deriving DecidableEq, Repr

namespace ProtocolError

/-- the refusal of a text that names no player -/
def invalidSteamId (s : String) : ProtocolError :=
  .invalidMessage ("invalid steam id " ++ Text.quoted s)

/-- what is said about the error; a fault in the JSON is told by its kind alone -/
def message : ProtocolError → String
  | decode .malformed => "decode failed: malformed"
  | decode .truncated => "decode failed: truncated"
  | decode .mismatch => "decode failed: wrong shape"
  | unknownOp code => "unknown op " ++ String.ofList (Decimal.writeInt code)
  | unexpectedOp op => "op " ++ op.name ++ " is not valid in this direction"
  | payload op => "invalid " ++ op.name ++ " payload"
  | invalidMessage text => "invalid message: " ++ text

end ProtocolError

/-- the identity that a text stands for; a text that stands for none is refused -/
def SteamId.parse (s : String) : Except ProtocolError SteamId :=
  match SteamId.ofText? s with
  | some p => .ok p
  | none => .error (.invalidSteamId s)

end Matchmaker
