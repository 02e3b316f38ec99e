import Matchmaker.Client.Inbound
import Matchmaker.Client.Outbound
import Matchmaker.Session

/-!
# Clients

A client is a session together with the two directions of its connection.
-/

namespace Matchmaker

structure Client (κ : Type) where
  /-- the number of the connection; a player who comes again has another one -/
  session : Session
  outbound : Client.Outbound
  inbound : Client.Inbound κ
  /-- when the other side was last heard of, as far as the connection itself keeps track -/
  activity : Option Nat := none

namespace Client
variable {κ : Type} [Quantity κ]

/-- A client of which nothing has been read yet and to which nothing is written until it is
started. -/
def new (connection : Nat) (p : Profile) (s : Settings) (now wall : Nat) : Client κ where
  session := .new connection p
  outbound := .new p.steamId s
  inbound := .new s now wall

/-- when the other side was last heard of -/
def lastSeen (c : Client κ) : Nat :=
  match c.activity with
  | some t => max t c.inbound.touched
  | none => c.inbound.touched

def send (c : Client κ) (r : Protocol.Response) : Except ClientError (Client κ) :=
  (c.outbound.send r).map fun outbound => { c with outbound }

def start (c : Client κ) (now : Nat) : Client κ := { c with outbound := c.outbound.start now }

def close (c : Client κ) : Client κ := { c with outbound := c.outbound.close }

def shutDown (c : Client κ) : Client κ := { c with outbound := c.outbound.shutDown }

/-- A call for the next request goes on, and the connection keeps track of what is read.  Of a client
that is closed and something to go on with the former is seen. -/
def goOn (c : Client κ) (clock : Clock) (now wall : Nat) (w : Waiting) : Client κ × Progress :=
  let heard := w.reads && !c.inbound.arrivals.isEmpty
  let (inbound, progress) :=
    c.inbound.goOn clock c.outbound.closed .closed .closed now wall w
  ({ c with inbound, activity := if heard then some wall else c.activity }, progress)

def settle (c : Client κ) (now : Nat) : Client κ := { c with outbound := c.outbound.settle now }

/-- Lets the time between `now` and `till` pass while nobody asks for a request. -/
def advance (c : Client κ) (clock : Clock) (now till : Nat) : Client κ :=
  { c with outbound := c.outbound.advance clock now till }

end Client

end Matchmaker
