import Matchmaker.Json.Record
import Matchmaker.Text.Utf8
import Matchmaker.Word

/-!
# Frames

Every frame is an object with an operation code and a payload whose shape depends on it.  A frame is
read first, with the payload as a plain value, and the payload is looked at only when the operation
is known.  A frame without a payload has the payload null.
-/

namespace Matchmaker.Protocol

structure Frame where
  op : Int
  payload : Json.Value

namespace Frame

def fields : List Json.Field := [.int "op" Word.minInt64 Word.maxInt64, .any "payload"]

def toValue (f : Frame) : Json.Value := .object [("op", .int f.op), ("payload", f.payload)]

def ofValue? : Json.Value → Option Frame
  | .object [(_, .num (.int op)), (_, payload)] => some ⟨op, payload⟩
  | _ => none

def read (s : Json.Input) : Except Json.Fault (Frame × Json.Input) :=
  Json.readRecord Json.maxDepth fields s >>= Json.shaped ofValue?

def decode (bytes : ByteArray) : Except Json.Fault Frame := Json.whole read (Text.chars bytes)

/-- the text of a frame -/
def text (f : Frame) : String := f.toValue.render

end Frame

end Matchmaker.Protocol
