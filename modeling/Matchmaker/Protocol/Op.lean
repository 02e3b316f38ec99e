import Matchmaker.Json.Value

/-!
# Operations of the protocol

Every frame names its operation by a small number.  Three operations may be asked for by a client;
all others are only ever sent to clients.
-/

namespace Matchmaker.Protocol

inductive Op where
  | joinQueue
  | leaveQueue
  | message
  | stateUpdate
  | startGame
  | purge
  | bye
  | chatStatusChange
  deriving DecidableEq, Repr

namespace Op

def code : Op → Nat
  | joinQueue => 0
  | leaveQueue => 1
  | message => 2
  | stateUpdate => 3
  | startGame => 4
  | purge => 5
  | bye => 6
  | chatStatusChange => 7

def name : Op → String
  | joinQueue => "JoinQueue"
  | leaveQueue => "LeaveQueue"
  | message => "Message"
  | stateUpdate => "StateUpdate"
  | startGame => "StartGame"
  | purge => "Purge"
  | bye => "Bye"
  | chatStatusChange => "ChatStatusChange"

def ofCode? (n : Int) : Option Op :=
  match n with
  | 0 => some joinQueue
  | 1 => some leaveQueue
  | 2 => some message
  | 3 => some stateUpdate
  | 4 => some startGame
  | 5 => some purge
  | 6 => some bye
  | 7 => some chatStatusChange
  | _ => none

def toValue (op : Op) : Json.Value := .nat op.code

theorem ofCode?_code (op : Op) : ofCode? op.code = some op := by cases op <;> rfl

theorem ofCode?_eq_some {n : Int} {op : Op} (h : ofCode? n = some op) : n = op.code := by
  unfold ofCode? at h
  split at h <;> first | (cases h; rfl) | cases h

end Op

end Matchmaker.Protocol
