import Matchmaker.Json.Reader

/-!
# Chat permission tiers

What a player may do in the chat: read and write, only read, or neither.  A player without access
still gets the state of the queue, the start of a match and the notice at shutdown.
-/

namespace Matchmaker

inductive ChatStatus where
  | readwrite
  | readonly
  | noaccess
  deriving DecidableEq, Repr, Inhabited

namespace ChatStatus

def hasMessageAccess (s : ChatStatus) : Bool := s != noaccess

def canPost (s : ChatStatus) : Bool := s == readwrite

def name : ChatStatus → String
  | readwrite => "readwrite"
  | readonly => "readonly"
  | noaccess => "noaccess"

def ofName? (s : String) : Option ChatStatus :=
  [readwrite, readonly, noaccess].find? fun t => t.name == s

def toValue (s : ChatStatus) : Json.Value := .text s.name

def ofValue? : Json.Value → Option ChatStatus := Json.Value.asName? ofName?

def read : Json.Input → Except Json.Fault (ChatStatus × Json.Input) := Json.readName ofName?

theorem ofName?_name (s : ChatStatus) : ofName? s.name = some s := by cases s <;> decide

end ChatStatus

end Matchmaker
