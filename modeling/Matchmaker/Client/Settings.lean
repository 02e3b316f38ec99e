/-!
# Settings of a connection

What every connection is set up with.  Times are whole numbers of nanoseconds here and wherever
clocks are compared.
-/

namespace Matchmaker.Client

def nanosPerSecond : Nat := 1000000000

structure Settings where
  /-- the responses that may wait to be sent -/
  outboundCapacity : Nat := 256
  /-- between two pings -/
  keepaliveInterval : Nat := 20 * nanosPerSecond
  /-- the tokens that may be saved up; none means that requests are not limited -/
  rateLimitBurst : Nat := 1
  /-- until a token is refilled -/
  rateLimitRefill : Nat := 5 * nanosPerSecond
  deriving DecidableEq, Repr

end Matchmaker.Client
