import Matchmaker.Coordinator.Matching

/-!
# Several passes at once

Passes that wait for a lookup stand in a line, and lookups end in the order in which they were asked
for.  The pass in front goes on; if it needs another slow lookup it takes its place at the end.
Each step of it is a step of the coordinator like any other, so what one pass does the next one
finds.
-/

namespace Matchmaker.Coordinator

/-- passes in the order in which their lookups end, told apart by a label -/
abbrev Line (ι : Type) := List (ι × Pass)

namespace Line
variable {ι : Type}

/-- the lookups that the passes of a line may still need -/
def lookups : Line ι → Nat
  | [] => 0
  | (_, .lookup _ rest) :: line => rest.length + 1 + lookups line
  | (_, .ended _) :: line => lookups line

/-- Lets up to `n` passes go on; the matches that were started by those that are over. -/
def go (lookup : Lookup) (isSlow : LobbyInfo → Bool) :
    Nat → Coordinator → Line ι → Outcome × List (ι × Option ServerId)
  | _, c, [] => (.still c, [])
  | 0, c, _ => (.still c, [])
  | n + 1, c, (i, pass) :: line =>
    let (o, next) := resume lookup isSlow c pass
    match next with
    | .ended started =>
      let (p, results) := go lookup isSlow n o.state line
      (⟨p.state, o.effects ++ p.effects⟩, (i, started) :: results)
    | next =>
      let (p, results) := go lookup isSlow n o.state (line ++ [(i, next)])
      (⟨p.state, o.effects ++ p.effects⟩, results)

/-- Lets all passes go on until they are over. -/
def finish (lookup : Lookup) (isSlow : LobbyInfo → Bool) (c : Coordinator) (line : Line ι) :
    Outcome × List (ι × Option ServerId) :=
  go lookup isSlow (line.lookups + line.length) c line

end Line

/-! ## one pass held up -/

/-- A pass whose slow lookup does not end yet, until another pass needs one too. -/
structure HeldPass where
  pass : Pass
  deriving DecidableEq

namespace HeldPass

/-- Starts a pass that is held up at its first slow lookup. -/
def start (lookup : Lookup) (isSlow : LobbyInfo → Bool) (c : Coordinator) : Outcome × HeldPass :=
  let (o, p) := scan lookup isSlow c c.candidates
  (o, ⟨p⟩)

/-- the match that it started, if it is over -/
def started? (h : HeldPass) : Option ServerId :=
  match h.pass with
  | .ended started => started
  | .lookup _ _ => none

/-- It goes on to its end. -/
def finish (h : HeldPass) (lookup : Lookup) (isSlow : LobbyInfo → Bool) (c : Coordinator) :
    Outcome × HeldPass :=
  let (o, results) := Line.finish lookup isSlow c [((), h.pass)]
  (o, ⟨.ended (results.head?.bind (·.2))⟩)

/-- Another pass, from its start to its end.  If it needs a slow lookup, the pass that is held up
goes on before it does. -/
def another (h : HeldPass) (lookup : Lookup) (isSlow : LobbyInfo → Bool) (c : Coordinator) :
    Outcome × HeldPass × Option ServerId :=
  let (o, p) := scan lookup isSlow c c.candidates
  match p with
  | .ended started => (o, h, started)
  | .lookup _ _ =>
    let (q, results) := Line.finish lookup isSlow o.state [(true, h.pass), (false, p)]
    let result (label : Bool) := (results.find? fun r => r.1 == label).bind (·.2)
    (⟨q.state, o.effects ++ q.effects⟩, ⟨.ended (result true)⟩, result false)

end HeldPass

end Matchmaker.Coordinator
