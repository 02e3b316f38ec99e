import Matchmaker.Client.Settings
import Matchmaker.Error
import Matchmaker.Profile
import Matchmaker.Time.Clock

/-!
# The way out

What a client is to be sent waits in a queue of bounded length, and a writer carries it over the
connection, first come first served.  Putting a response into the queue never waits: with the queue
full the response is dropped, and the sender is told.

The writer takes one turn at a time, and in each of them the first of these that applies: it stops
if the client was closed, writes the oldest response, stops if the whole process shuts down, or
pings if a ping is due.  So a shutdown comes after all that waits has been written, and closing does
not.  A write or a ping that fails closes the client.

The connection is closed by the writer when it stops.  A client that is closed before its writer was
started has none, and then closing the connection is left as a task of its own (`closing`).  In
either case there is no second time.
-/

namespace Matchmaker.Client

open Protocol (Response)

/-! ## connections -/

/-- What has been done with a connection, and which calls of it fail from now on. -/
structure Link where
  /-- the texts written, the first of them first -/
  written : List String := []
  pings : Nat := 0
  /-- how often it was told to close -/
  closes : Nat := 0
  writeFails : Bool := false
  pingFails : Bool := false
  deriving DecidableEq, Repr

namespace Link

/-- Writes a text, and says if that worked. -/
def write (l : Link) (text : String) : Link × Bool :=
  if l.writeFails then (l, false) else ({ l with written := l.written ++ [text] }, true)

/-- Sends a ping, and says if that worked. -/
def ping (l : Link) : Link × Bool :=
  if l.pingFails then (l, false) else ({ l with pings := l.pings + 1 }, true)

def close (l : Link) : Link := { l with closes := l.closes + 1 }

end Link

/-! ## the queue and its writer -/

inductive Writer where
  /-- not started, and it may still be -/
  | idle
  /-- at work; the next ping is due then -/
  | running (pingDue : Nat)
  /-- stopped for good, or never to be started -/
  | stopped
  deriving DecidableEq, Repr

structure Outbound where
  owner : SteamId
  /-- the responses that may wait -/
  capacity : Nat
  /-- between two pings, in nanoseconds -/
  period : Nat
  /-- the responses that wait, the oldest of them first -/
  queue : List Response := []
  writer : Writer := .idle
  closed : Bool := false
  /-- the whole process shuts down -/
  shutdown : Bool := false
  /-- the connection is still to be closed, and no writer will do it -/
  closing : Bool := false
  link : Link := {}

namespace Outbound

/-- pings are not sent more often than that -/
def minPeriod : Nat := 100 * nanosPerMilli

/-- At least one response may wait. -/
def new (owner : SteamId) (s : Settings) : Outbound where
  owner := owner
  capacity := max s.outboundCapacity 1
  period := max s.keepaliveInterval minPeriod

def isStopped (o : Outbound) : Bool := o.writer == .stopped

/-- Puts a response into the queue. -/
def send (o : Outbound) (r : Response) : Except ClientError Outbound :=
  if o.closed || o.isStopped then .error .closed
  else if o.queue.length < o.capacity then .ok { o with queue := o.queue ++ [r] }
  else .error (.queueFull o.owner)

/-- Starts the writer, once.  Instants are numbers without a bound, so the clock is taken to reach as
far as the first ping, however long the period is. -/
def start (o : Outbound) (now : Nat) : Outbound :=
  match o.writer with
  | .idle => { o with writer := .running (now + o.period) }
  | _ => o

/-- Closes the client.  What still waits is not written any more. -/
def close (o : Outbound) : Outbound :=
  match o.writer with
  | .idle => { o with closed := true, writer := .stopped, queue := [], closing := true }
  | _ => { o with closed := true }

/-- The whole process shuts down. -/
def shutDown (o : Outbound) : Outbound := { o with shutdown := true }

/-! ## turns -/

/-- The writer stops and closes the connection. -/
def stop (o : Outbound) : Outbound :=
  { o with writer := .stopped, queue := [], link := o.link.close }

/-- Writes a response; a failure closes the client. -/
def write (o : Outbound) (r : Response) : Outbound :=
  let (link, worked) := o.link.write r.text
  { o with link, closed := o.closed || !worked }

/-- Pings, and again a period later; a failure closes the client. -/
def ping (o : Outbound) (now : Nat) : Outbound :=
  let (link, worked) := o.link.ping
  { o with link, closed := o.closed || !worked, writer := .running (now + o.period) }

/-- A turn of the writer, or the end of closing without one; none while there is nothing to do. -/
def turn? (o : Outbound) (now : Nat) : Option Outbound :=
  match o.writer with
  | .running pingDue =>
    if o.closed then some o.stop
    else match o.queue with
      | r :: rest => some ({ o with queue := rest }.write r)
      | [] =>
        if o.shutdown then some o.stop
        else if pingDue ≤ now then some (o.ping now)
        else none
  | _ => if o.closing then some { o with closing := false, link := o.link.close } else none

/-- a bound on the turns until there is nothing to do: each one shortens the queue, pings, stops the
writer or ends closing, and another ping is due only later -/
def work (o : Outbound) : Nat := o.queue.length + 3

/-- Takes turns as long as there is something to do, and at most `n`. -/
def turns (now : Nat) : Nat → Outbound → Outbound
  | 0, o => o
  | n + 1, o =>
    match o.turn? now with
    | some o => turns now n o
    | none => o

/-- Takes turns until there is nothing to do. -/
def settle (o : Outbound) (now : Nat) : Outbound := turns now o.work o

/-! ## time -/

/-- when there is a ping to send, if nothing else happens before -/
def pingDue? (o : Outbound) : Option Nat :=
  match o.writer with
  | .running pingDue => some pingDue
  | _ => none

/-- Lets time pass up to `till` and sends the pings that become due, at most `n`. -/
def pass (clock : Clock) (till : Nat) : Nat → Outbound → Outbound
  | 0, o => o
  | n + 1, o =>
    match o.pingDue?.map clock with
    | some due => if due ≤ till then pass clock till n (o.settle due) else o
    | none => o

/-- Lets the time between `now` and `till` pass.  Pings are at least `period` apart, which bounds
their number. -/
def advance (o : Outbound) (clock : Clock) (now till : Nat) : Outbound :=
  o.pass clock till ((till - now) / o.period + 2)

end Outbound

end Matchmaker.Client
