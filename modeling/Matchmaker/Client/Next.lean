import Matchmaker.Client.Basic

/-!
# Waiting for a request

A call for the next request takes as long as it takes: until a frame arrives, until there is a token
for it, or until the client is closed.  Meanwhile the writer goes on.  Here such a call is followed
from one instant at which something happens to the next, with a time at which it is given up and
perhaps one at which the client is closed from outside.

Of what happens at the same instant the writer comes first, then the reader, then giving up, then
closing from outside.  A client that is closed is seen to be closed, whatever could be read.
-/

namespace Matchmaker.Client

variable {κ : Type} [Quantity κ]

/-- a call for the next request, and what is still to happen to it -/
structure Call (κ : Type) where
  client : Client κ
  now : Nat
  /-- the instant `now` on the clock that tells when clients were last heard of -/
  wall : Nat
  /-- none once it was given up -/
  progress : Option Progress
  giveUpAt : Nat
  closeAt : Option Nat

namespace Call

def isOver (a : Call κ) : Bool :=
  match a.progress with
  | some (.waiting _) => false
  | _ => true

/-- what the call came to, none if it was given up -/
def result? (a : Call κ) : Option (Except ClientError Protocol.Request) :=
  match a.progress with
  | some (.ended r) => some r
  | _ => none

/-- The writer does what it can do now. -/
def write (a : Call κ) : Call κ := { a with client := a.client.settle a.now }

/-- The reader does what it can do now. -/
def read (a : Call κ) (clock : Clock) : Call κ :=
  match a.progress with
  | some (.waiting w) =>
    let c := a.client
    let (inbound, p) :=
      c.inbound.goOn clock c.outbound.closed .closed .closed a.now a.wall w
    { a with client := { c with inbound }, progress := some p }
  | _ => a

/-- The call is given up if it has waited long enough. -/
def giveUp (a : Call κ) : Call κ :=
  if !a.isOver && a.giveUpAt ≤ a.now then { a with progress := none } else a

/-- The client is closed if it is time to. -/
def close (a : Call κ) (clock : Clock) : Call κ :=
  match a.closeAt with
  | some t =>
    if t ≤ a.now then read { a with client := a.client.close, closeAt := none } clock else a
  | none => a

/-- the instants at which something may happen next -/
def instants (a : Call κ) (clock : Clock) : List Nat :=
  (a.client.outbound.pingDue?.map clock).toList ++ a.closeAt.toList ++
    match a.progress with
    | some (.waiting (.token _ wake)) => [a.giveUpAt, wake]
    | some (.waiting .frame) => [a.giveUpAt]
    | _ => []

/-- Follows the call until it is over and closing from outside has happened, through at most `n`
instants. -/
def follow (clock : Clock) : Nat → Call κ → Call κ
  | 0, a => a
  | n + 1, a =>
    let a := (((a.write.read clock).giveUp).close clock).write
    if a.isOver && a.closeAt.isNone then a
    else match (a.instants clock).min? with
      | some t => follow clock n { a with now := max t a.now }
      | none => a

/-- a bound on the instants of a call: pings and tokens are both waited for a millisecond at least -/
def bound (a : Call κ) : Nat :=
  2 * ((max a.giveUpAt (a.closeAt.getD 0) - a.now) / TokenBucket.minSleep) + 6

end Call

/-- Asks for the next request at `now`, for `patience` nanoseconds, and closes the client after
`closeAfter` nanoseconds. -/
def next (c : Client κ) (clock : Clock) (now wall patience : Nat) (closeAfter : Option Nat) :
    Call κ :=
  let a : Call κ :=
    { client := c
      now := now
      wall := wall
      progress := some (.waiting .frame)
      giveUpAt := clock.wake now (now + patience)
      closeAt := closeAfter.map fun d => clock.wake now (now + d) }
  a.follow clock a.bound

end Matchmaker.Client
