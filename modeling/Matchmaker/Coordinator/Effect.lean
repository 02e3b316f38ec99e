import Matchmaker.Session

/-!
# What is asked of connections

To the coordinator a client is a `Session`, and its connection is out of reach.  What should happen to
the connection is said by effects, and what becomes of them does not matter here: a response that a
full queue drops is dropped.

Effects of one step are listed in the order in which they take place, which for every connection is
the order in which it gets its responses.
-/

namespace Matchmaker

open Protocol (Response)

inductive Effect where
  /-- the writer of a connection starts -/
  | start (connection : Nat)
  /-- a response is put into the queue of a connection -/
  | deliver (connection : Nat) (r : Response)
  /-- a connection is closed -/
  | close (connection : Nat)
  /-- every writer stops when it has written what waits -/
  | release
  deriving DecidableEq, Repr

namespace Effect

/-- the response that an effect brings to a connection -/
def response? (connection : Nat) : Effect → Option Response
  | deliver c r => if c = connection then some r else none
  | _ => none

/-- the responses brought to a connection, in order -/
def responses (connection : Nat) (es : List Effect) : List Response :=
  es.filterMap (response? connection)

theorem responses_nil (c : Nat) : responses c [] = [] := rfl

theorem responses_append (c : Nat) (es fs : List Effect) :
    responses c (es ++ fs) = responses c es ++ responses c fs := List.filterMap_append

end Effect

end Matchmaker
