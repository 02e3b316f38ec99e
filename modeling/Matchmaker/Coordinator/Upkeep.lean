import Matchmaker.Coordinator.Matching
import Matchmaker.Coordinator.Sessions
import Matchmaker.Tick

/-!
# Upkeep

While a coordinator runs, two jobs come up again and again: to look at the feed, and to search for
idle clients.  Each has a schedule of its own, and `Upkeep` says which job is due when.  `perform`
is what a job comes to.
-/

namespace Matchmaker.Coordinator

inductive Job where
  | reconcile
  | evict
  deriving DecidableEq, Repr

/-- A job is done, given what the feed reports and when the clients were last heard of. -/
def perform (lookup : Lookup) (feed : Except CollaboratorError (List LobbyInfo)) (wall : Nat)
    (lastSeen : Nat → Nat) (c : Coordinator) : Job → Outcome
  | .reconcile => c.update lookup feed
  | .evict => (c.evict wall lastSeen).1

/-- the schedules of the two jobs -/
structure Upkeep where
  reconcile : Tick.Schedule
  evict : Tick.Schedule
  deriving DecidableEq, Repr

namespace Upkeep

/-- the settings of a job with a period -/
def every (period : Nat) : Tick.Settings := Tick.Settings.validated { period }

/-- the schedules that start at `now`, with a delay of `jitter` at most -/
def start (s : Settings) (jitter now : Nat) : Upkeep where
  reconcile := .start (every s.reconcileInterval) jitter now
  evict := .start (every s.evictionInterval) jitter now

/-- the next job, and when it is due; of two that are due at once the look at the feed -/
def next? (clock : Clock) (now : Nat) (u : Upkeep) : Option (Nat × Job) :=
  match u.reconcile.wakeTime? clock now, u.evict.wakeTime? clock now with
  | some r, some e => if r ≤ e then some (r, .reconcile) else some (e, .evict)
  | some r, none => some (r, .reconcile)
  | none, some e => some (e, .evict)
  | none, none => none

/-- a job takes place -/
def fire (u : Upkeep) (now : Nat) : Job → Upkeep
  | .reconcile => { u with reconcile := ((u.reconcile.fire now).1.endPass now).1 }
  | .evict => { u with evict := ((u.evict.fire now).1.endPass now).1 }

/-- Does the jobs that are due until `till`, at most `n`. -/
def pass {α : Type} (clock : Clock) (till : Nat) (act : Job → α → α) :
    Nat → Nat → Upkeep → α → Upkeep × α
  | 0, _, u, a => (u, a)
  | n + 1, now, u, a =>
    match u.next? clock now with
    | some (t, job) =>
      if t ≤ till then pass clock till act n t (u.fire t job) (act job a) else (u, a)
    | none => (u, a)

/-- a bound on the jobs in a span of time -/
def bound (s : Settings) (span : Nat) : Nat :=
  span / s.reconcileInterval + span / s.evictionInterval + 2

end Upkeep

end Matchmaker.Coordinator
