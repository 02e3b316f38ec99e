import Matchmaker.Decimal.Shortest
import Matchmaker.Time.Clock

/-!
# Token buckets

Every request of a client costs one token.  A bucket holds up to `capacity` tokens and is refilled
steadily at a fixed rate; who finds it empty waits, and nothing is dropped.  The bucket is a pure
function of the instants at which it is asked, so idle time may be looked at as often as one likes.

Tokens are counted in any kind of number with the operations of `Quantity`.  Doubles are what a
running service uses, and rationals show what is meant, without rounding.
-/

namespace Matchmaker.Client

/-! ## numbers -/

class Quantity (κ : Type) extends Add κ, Sub κ, Mul κ, Div κ where
  ofNat : Nat → κ
  /-- nanoseconds as seconds -/
  seconds : Nat → κ
  atLeast : κ → κ → Bool
  /-- seconds as nanoseconds, to the nearest -/
  nanos : κ → Nat

namespace Quantity

/-- the whole number nearest to `n / d`, of two the even one -/
def nearest (n d : Nat) : Nat :=
  let q := n / d
  let r := 2 * (n % d)
  if r < d then q else if d < r then q + 1 else if q % 2 == 0 then q else q + 1

instance : Quantity Rat where
  ofNat n := n
  seconds n := (n : Rat) / 1000000000
  atLeast a b := b ≤ a
  nanos a :=
    let b := a * 1000000000
    nearest b.num.toNat b.den

/-- the nanoseconds nearest to a number of seconds that is not negative -/
def nanosOfFloat (x : Float) : Nat :=
  let (_, m, q) := Decimal.parts x
  let r := Decimal.Ratio.scaled (m * 1000000000) 2 q
  nearest r.num r.den

instance : Quantity Float where
  ofNat n := n.toUInt64.toFloat
  seconds n := (n / 1000000000).toUInt64.toFloat + (n % 1000000000).toUInt64.toFloat / 1e9
  atLeast a b := b ≤ a
  nanos := nanosOfFloat

end Quantity

/-! ## buckets -/

structure TokenBucket (κ : Type) where
  capacity : κ
  tokens : κ
  /-- tokens per second -/
  rate : κ
  /-- when the tokens were counted -/
  last : Nat

namespace TokenBucket
variable {κ : Type} [Quantity κ]
open Quantity

/-- A full bucket that gets one token per `refill` nanoseconds.  If either is zero there is no
bucket, and requests are not limited. -/
def full? (capacity refill now : Nat) : Option (TokenBucket κ) :=
  if capacity == 0 || refill == 0 then none
  else some {
    capacity := ofNat capacity
    tokens := ofNat capacity
    rate := ofNat 1 / seconds refill
    last := now }

/-- the smaller of two quantities -/
def least (a b : κ) : κ := if atLeast a b then b else a

/-- adds what has come in since the tokens were last counted -/
def refill (b : TokenBucket κ) (now : Nat) : TokenBucket κ :=
  if b.last < now then
    { b with
      tokens := least (b.tokens + seconds (now - b.last) * b.rate) b.capacity
      last := now }
  else b

/-- takes a token if there is one right now -/
def tryAcquire (b : TokenBucket κ) (now : Nat) : TokenBucket κ × Bool :=
  let b := b.refill now
  if atLeast b.tokens (ofNat 1) then ({ b with tokens := b.tokens - ofNat 1 }, true) else (b, false)

/-- the shortest sleep, so that rounding never makes a waiter spin -/
def minSleep : Nat := nanosPerMilli

/-- how long to sleep for the next token -/
def shortage (b : TokenBucket κ) : Nat := max (nanos ((ofNat 1 - b.tokens) / b.rate)) minSleep

/-- Takes a token, sleeping as long as there is none; the instant at which it was taken.  Where
rounding leaves the bucket a little short after a sleep there is another one, and `rounds` bounds
their number. -/
def acquire (clock : Clock) : Nat → TokenBucket κ → Nat → Option (TokenBucket κ × Nat)
  | 0, _, _ => none
  | rounds + 1, b, now =>
    match b.tryAcquire now with
    | (b, true) => some (b, now)
    | (b, false) => acquire clock rounds b (clock.wake now (now + b.shortage))

/-- Takes tokens until there is none, at most `n`; how many that were. -/
def drain (now : Nat) : Nat → TokenBucket κ → TokenBucket κ × Nat
  | 0, b => (b, 0)
  | n + 1, b =>
    match b.tryAcquire now with
    | (b, true) => let (b, k) := drain now n b; (b, k + 1)
    | (b, false) => (b, 0)

end TokenBucket

end Matchmaker.Client
