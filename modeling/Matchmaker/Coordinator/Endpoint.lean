import Matchmaker.Ascending
import Matchmaker.Client.Basic
import Matchmaker.Coordinator.Effect

/-!
# Where effects go

An `Endpoint` is anything on which effects can take place: a client on its connection, or a recorder,
which only takes down what it is told.  Endpoints are kept by the number of their connection, and the
effects on a connection that is not there are lost.
-/

namespace Matchmaker

open Protocol (Response)

class Endpoint (χ : Type) where
  connection : χ → Nat
  start : χ → Nat → χ
  /-- whether the response was taken is of no concern -/
  take : χ → Response → χ
  close : χ → χ
  release : χ → χ
  connection_start : ∀ x now, connection (start x now) = connection x
  connection_take : ∀ x r, connection (take x r) = connection x
  connection_close : ∀ x, connection (close x) = connection x
  connection_release : ∀ x, connection (release x) = connection x

/-- endpoints by the number of their connection -/
abbrev Endpoints (χ : Type) [Endpoint χ] := Ascending χ Endpoint.connection

namespace Endpoints
variable {χ : Type} [Endpoint χ]

/-- changes the endpoint of one connection -/
def on (e : Endpoints χ) (connection : Nat) (f : χ → χ)
    (h : ∀ x, Endpoint.connection (f x) = Endpoint.connection x) : Endpoints χ :=
  e.map (fun x => if Endpoint.connection x = connection then f x else x) fun x => by
    split
    · exact h x
    · rfl

/-- An effect takes place at `now`. -/
def apply (now : Nat) (e : Endpoints χ) : Effect → Endpoints χ
  | .start c => e.on c (Endpoint.start · now) fun x => Endpoint.connection_start x now
  | .deliver c r => e.on c (Endpoint.take · r) fun x => Endpoint.connection_take x r
  | .close c => e.on c Endpoint.close Endpoint.connection_close
  | .release => e.map Endpoint.release Endpoint.connection_release

/-- Effects take place one after the other. -/
def applyAll (e : Endpoints χ) (now : Nat) (effects : List Effect) : Endpoints χ :=
  effects.foldl (apply now) e

end Endpoints

/-! ## clients -/

instance {κ : Type} [Client.Quantity κ] : Endpoint (Client κ) where
  connection c := c.session.connection
  start c now := c.start now
  take c r :=
    match c.send r with
    | .ok d => { c with outbound := d.outbound }
    | .error _ => c
  close c := c.close
  release c := c.shutDown
  connection_start _ _ := rfl
  connection_take c r := by split <;> rfl
  connection_close _ := rfl
  connection_release _ := rfl

/-! ## recorders -/

/-- takes down what it is told, and refuses responses when it is closed or full -/
structure Recorder where
  connection : Nat
  /-- how many responses it takes; none if there is no limit -/
  capacity : Option Nat
  /-- the responses taken, the first of them first -/
  taken : List Response := []
  starts : Nat := 0
  closes : Nat := 0
  /-- the whole process shuts down -/
  shutdown : Bool := false
  deriving DecidableEq, Repr

namespace Recorder

def isClosed (r : Recorder) : Bool := 0 < r.closes

def isFull (r : Recorder) : Bool := r.capacity.any fun n => n ≤ r.taken.length

/-- was started, and may finish -/
def isReleased (r : Recorder) : Bool := 0 < r.starts && r.shutdown

instance : Endpoint Recorder where
  connection := connection
  start r _ := { r with starts := r.starts + 1 }
  take r x := if r.isClosed || r.isFull then r else { r with taken := r.taken ++ [x] }
  close r := { r with closes := r.closes + 1 }
  release r := { r with shutdown := true }
  connection_start _ _ := rfl
  connection_take r x := by split <;> rfl
  connection_close _ := rfl
  connection_release _ := rfl

end Recorder

end Matchmaker
