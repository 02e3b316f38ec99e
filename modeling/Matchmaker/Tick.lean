import Matchmaker.Time.Clock

/-!
# Periodic ticks

A background job runs once per period.  The first tick comes one period and a little delay after
the start, so that jobs that start together drift apart.  A tick that comes late does not try to
catch up: the next one is due a full period after it, and the whole periods that went by unobserved
are counted.  Without a period there are no ticks.

A schedule is a value; `due` says when its next tick is to be waited for, and `fire` is that tick.
Waiting that is given up changes nothing.
-/

namespace Matchmaker

namespace Tick

/-- times are in nanoseconds -/
structure Settings where
  /-- between two ticks; zero means none at all -/
  period : Nat
  /-- bounds the delay of the first tick -/
  initialJitter : Nat := 250 * nanosPerMilli
  /-- the share of a period beyond which a pass counts as slow -/
  slowPassThreshold : Float := 0.8

namespace Settings

def isDisabled (s : Settings) : Bool := s.period == 0

/-- a number between zero and one, the nearest to `x` -/
def unit (x : Float) : Float := if x < 0 then 0 else if 1 < x then 1 else x

/-- the threshold is a share, and the delay is at most a period -/
def validated (s : Settings) : Settings :=
  { s with
    slowPassThreshold := unit s.slowPassThreshold
    initialJitter :=
      if !s.isDisabled && s.period < s.initialJitter then s.period else s.initialJitter }

end Settings

/-- a tick that has come -/
structure Info where
  /-- one for the first tick -/
  number : Nat
  /-- whole periods that went by unobserved before it -/
  skipped : Nat
  deriving DecidableEq, Repr

structure Schedule where
  period : Nat
  count : Nat
  /-- when the next tick is due -/
  due : Option Nat
  /-- when the pass of the last tick started, until it ends -/
  passStarted : Option Nat
  deriving DecidableEq, Repr

namespace Schedule

/-- the schedule that starts at `now`, with `jitter` as the delay of the first tick -/
def start (s : Settings) (jitter now : Nat) : Schedule where
  period := s.period
  count := 0
  due := if s.isDisabled then none else some (now + s.period + jitter)
  passStarted := none

/-- when a wait that starts at `now` ends with a tick -/
def wakeTime? (clock : Clock) (s : Schedule) (now : Nat) : Option Nat := s.due.map (clock.wake now)

/-- the tick that is due comes at `now` -/
def fire (s : Schedule) (now : Nat) : Schedule × Info :=
  ({ s with count := s.count + 1, due := some (now + s.period), passStarted := some now },
    ⟨s.count + 1, (now - s.due.getD now) / s.period⟩)

/-- the pass of the last tick ends; how long it took, if there was one -/
def endPass (s : Schedule) (now : Nat) : Schedule × Option Nat :=
  ({ s with passStarted := none }, s.passStarted.map fun t => now - t)

end Schedule

end Tick

end Matchmaker
