import Matchmaker.Json.Value

/-!
# Reading JSON values

`readValue depth` reads one value, in which brackets may be nested `depth` deep; a bracket beyond
that is malformed.  A whole text is read to depth 127 (`parse`).

The loops over the items of a bracket are given the length of the input as their bound: every item
takes at least one symbol, so the bound is never reached.
-/

namespace Matchmaker.Json

/-- the depth to which brackets may be nested -/
def maxDepth : Nat := 127

/-- a value without brackets, at its first symbol -/
def readScalar (s : Input) : Except Fault (Value × Input) :=
  match s with
  | [] => .error .truncated
  | some 'n' :: r => (word ['u', 'l', 'l'] r).map (Value.null, ·)
  | some 't' :: r => (word ['r', 'u', 'e'] r).map (Value.bool true, ·)
  | some 'f' :: r => (word ['a', 'l', 's', 'e'] r).map (Value.bool false, ·)
  | some '"' :: r => (readText r).map fun (t, r) => (Value.text t, r)
  | some c :: _ =>
    if c == '-' || Decimal.isDigit c then (readNumber s).map fun (n, r) => (Value.num n, r)
    else .error .malformed
  | none :: _ => .error .malformed

/-- the items of a list up to its closing bracket -/
def readItems {α : Type} (item : Input → Except Fault (α × Input)) :
    Nat → Bool → Input → Except Fault (List α × Input)
  | 0, _, _ => .error .malformed
  | n + 1, first, s => do
    match ← nextItem ']' first s with
    | .close r => .ok ([], r)
    | .item r => do
      let (a, r) ← item r
      let (as, r) ← readItems item n false r
      .ok (a :: as, r)

/-- looks for a further member of an object: its name, or the end -/
def nextName (first : Bool) (s : Input) : Except Fault (Option String × Input) := do
  match ← nextItem '}' first s with
  | .close r => .ok (none, r)
  | .item (some '"' :: r) => (readText r).map fun (t, r) => (some t, r)
  | .item _ => .error .malformed

/-- the members of an object up to its closing bracket, in the order of the text -/
def readMembers {α : Type} (item : Input → Except Fault (α × Input)) :
    Nat → Bool → Input → Except Fault (List (String × α) × Input)
  | 0, _, _ => .error .malformed
  | n + 1, first, s => do
    match ← nextName first s with
    | (none, r) => .ok ([], r)
    | (some name, r) => do
      let r ← colon r
      let (a, r) ← item r
      let (ms, r) ← readMembers item n false r
      .ok ((name, a) :: ms, r)

/-- one value, with brackets nested at most `depth` deep -/
def readValue (depth : Nat) (s : Input) : Except Fault (Value × Input) :=
  match token s with
  | some '[' :: r =>
    match depth with
    | 0 => .error .malformed
    | d + 1 => (readItems (readValue d) (r.length + 1) true r).map fun (vs, r) => (.array vs, r)
  | some '{' :: r =>
    match depth with
    | 0 => .error .malformed
    | d + 1 =>
      (readMembers (readValue d) (r.length + 1) true r).map fun (ms, r) => (.object (collect ms), r)
  | r => readScalar r

/-- a value that may not be a bracket; one is refused at its first symbol -/
def readPlain (s : Input) : Except Fault (Value × Input) :=
  match token s with
  | some '[' :: _ => .error .mismatch
  | some '{' :: _ => .error .mismatch
  | r => readScalar r

/-- a value of one shape -/
def shaped {α : Type} (of? : Value → Option α) : Value × Input → Except Fault (α × Input)
  | (v, r) =>
    match of? v with
    | some a => .ok (a, r)
    | none => .error .mismatch

/-- one of several names, as a string or as an object whose only member has that name and is null -/
def readName {α : Type} (named : String → Option α) (s : Input) : Except Fault (α × Input) :=
  match token s with
  | [] => .error .truncated
  | some '"' :: r => readText r >>= fun (t, r) => shaped (·.asText? >>= named) (.text t, r)
  | some '{' :: r => do
    let (a, r) ← readPlain r >>= shaped (·.asText? >>= named)
    let r ← colon r
    let (_, r) ← readPlain r >>= shaped Value.asNull?
    match token r with
    | [] => .error .truncated
    | c :: r => if c == some '}' then .ok (a, r) else .error .malformed
  | _ :: _ => .error .malformed

/-- a whole text: nothing may follow what was read -/
def whole {α : Type} (read : Input → Except Fault (α × Input)) (s : Input) : Except Fault α := do
  let (a, r) ← read s
  finish r
  .ok a

/-- a text that holds one value of any kind -/
def parse (s : Input) : Except Fault Value := whole (readValue maxDepth) s

end Matchmaker.Json
