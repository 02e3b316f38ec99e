import Matchmaker.Client.Settings
import Matchmaker.Client.TokenBucket
import Matchmaker.Error
import Matchmaker.Protocol.Request

/-!
# The way in

A reader takes one frame after another from the connection, pays a token for it, and decodes it.
Frames that cannot be decoded cost a token too.

A call for the next request may have to wait twice, for a frame and then for a token.  Both waits end
early when the client is closed.  Should the client be closed while the frame or the token is there
as well, then either may win: which of them is a choice (`Favour`) that the reader does not make, so
it is an argument here.  A call that is given up while it waits for a token loses its frame.
-/

namespace Matchmaker.Client

open Protocol (Request)

/-- What a connection delivers. -/
inductive Arrival where
  | frame (bytes : ByteArray)
  /-- a read that fails -/
  | failure (reason : String)

/-- What a call for the next request waits for. -/
inductive Waiting where
  | frame
  /-- a token, for a frame that has been read; it is not looked for before `wake` -/
  | token (bytes : ByteArray) (wake : Nat)

/-- what is delivered is read meanwhile -/
def Waiting.reads : Waiting → Bool
  | frame => true
  | token _ _ => false

/-- How far a call for the next request has come. -/
inductive Progress where
  | waiting (w : Waiting)
  | ended (r : Except ClientError Request)

/-- Of a client that is closed and something to go on with, which one is seen. -/
inductive Favour where
  | closed
  | goingOn
  deriving DecidableEq, Repr

structure Inbound (κ : Type) where
  /-- what has been delivered and not read, the oldest first -/
  arrivals : List Arrival := []
  /-- nothing will be delivered any more -/
  hungUp : Bool := false
  /-- none if requests are not limited -/
  limiter : Option (TokenBucket κ)
  /-- when a frame was last read -/
  touched : Nat

namespace Inbound
variable {κ : Type} [Quantity κ]

def new (s : Settings) (now wall : Nat) : Inbound κ where
  limiter := TokenBucket.full? s.rateLimitBurst s.rateLimitRefill now
  touched := wall

/-- The connection delivers something, unless it was hung up. -/
def deliver (i : Inbound κ) (a : Arrival) : Inbound κ :=
  if i.hungUp then i else { i with arrivals := i.arrivals ++ [a] }

/-- The other side will not send anything any more. -/
def hangUp (i : Inbound κ) : Inbound κ := { i with hungUp := true }

/-- the request in a frame -/
def decode (bytes : ByteArray) : Except ClientError Request :=
  match Request.decodeStaged bytes with
  | .ok r => .ok r
  | .error e => .error (.protocol e)

/-- Pays the token for a frame and decodes it. -/
def pay (i : Inbound κ) (clock : Clock) (closed : Bool) (favour : Favour) (now : Nat)
    (bytes : ByteArray) : Inbound κ × Progress :=
  match i.limiter with
  | none => (i, .ended (decode bytes))
  | some b =>
    if closed && favour == .closed then (i, .ended (.error .closed))
    else match b.tryAcquire now with
      | (b, true) => ({ i with limiter := some b }, .ended (decode bytes))
      | (b, false) =>
        ({ i with limiter := some b },
          if closed then .ended (.error .closed)
          else .waiting (.token bytes (clock.wake now (now + b.shortage))))

/-- Goes on with a call as far as it can go at `now`, which is `wall` on the clock of `touched`.
The two choices are for the wait for a frame and the wait for a token. -/
def goOn (i : Inbound κ) (clock : Clock) (closed : Bool) (forFrame forToken : Favour)
    (now wall : Nat) : Waiting → Inbound κ × Progress
  | .frame =>
    if closed && (forFrame == .closed || (i.arrivals.isEmpty && !i.hungUp)) then
      (i, .ended (.error .closed))
    else match i.arrivals with
      | .frame bytes :: rest =>
        { i with arrivals := rest, touched := wall }.pay clock closed forToken now bytes
      | .failure reason :: rest =>
        ({ i with arrivals := rest }, .ended (.error (.transport reason)))
      | [] => (i, if i.hungUp then .ended (.error .closed) else .waiting .frame)
  | .token bytes wake =>
    if now < wake then
      (i, if closed then .ended (.error .closed) else .waiting (.token bytes wake))
    else i.pay clock closed forToken now bytes

end Inbound

end Matchmaker.Client
