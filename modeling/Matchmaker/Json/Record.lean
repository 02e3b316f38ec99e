import Matchmaker.Json.Reader
import Matchmaker.Json.Skip

/-!
# Reading JSON records

A record has named fields in a fixed order.  It is read from an object, or from an array that holds
the fields in their order.  A field is checked as soon as its value has been read, so the first
fault from the left decides.  Members of an object that are no fields are skipped, a field that
comes twice is a mismatch, and so is one that is missing and has no default.

A field that takes no brackets refuses one at its first symbol.
-/

namespace Matchmaker.Json

structure Field where
  name : String
  /-- whether brackets are read; otherwise they are refused unread -/
  nested : Bool
  /-- the shapes that the field takes -/
  accepts : Value → Bool
  /-- what stands for a field that is left out -/
  absent : Option Value

namespace Field

/-- a field that takes any value, and may be left out -/
def any (name : String) : Field := ⟨name, true, fun _ => true, some .null⟩

def text (name : String) : Field := ⟨name, false, fun v => v.asText?.isSome, none⟩

/-- an integer from zero to below `bound` -/
def nat (name : String) (bound : Nat) : Field :=
  ⟨name, false, fun v => (v.asNat? bound).isSome, none⟩

/-- an integer between `lo` and `hi` -/
def int (name : String) (lo hi : Int) : Field :=
  ⟨name, false, fun v => (v.asInt? lo hi).isSome, none⟩

end Field

/-- the value of a field -/
def Field.read (depth : Nat) (f : Field) (s : Input) : Except Fault (Value × Input) := do
  let found ← if f.nested then readValue depth s else readPlain s
  shaped (fun v => if f.accepts v then some v else none) found

/-- what stands for a field that was not found -/
def Field.default (f : Field) : Except Fault Value :=
  match f.absent with
  | some v => .ok v
  | none => .error .mismatch

/-- fields by position -/
def readPositions (depth : Nat) : List Field → Bool → Input →
    Except Fault (List (String × Value) × Input)
  | [], _, s =>
    match token s with
    | [] => .error .truncated
    | c :: r => if c == some ']' then .ok ([], r) else .error .malformed
  | f :: fs, first, s => do
    match ← nextItem ']' first s with
    | .close _ => do
      let v ← f.default
      let (ms, r) ← readPositions depth fs first s
      .ok ((f.name, v) :: ms, r)
    | .item r => do
      let (v, r) ← f.read depth r
      let (ms, r) ← readPositions depth fs false r
      .ok ((f.name, v) :: ms, r)

/-- the fields among the members of an object, in the order of the text -/
def readNamed (depth : Nat) (fields : List Field) :
    Nat → Bool → List (String × Value) → Input → Except Fault (List (String × Value) × Input)
  | 0, _, _, _ => .error .malformed
  | n + 1, first, found, s => do
    match ← nextName first s with
    | (none, r) => .ok (found, r)
    | (some name, r) =>
      match fields.find? fun f => f.name == name with
      | none => do
        let r ← colon r
        let r ← skip r
        readNamed depth fields n false found r
      | some f =>
        if (found.lookup name).isSome then .error .mismatch
        else do
          let r ← colon r
          let (v, r) ← f.read depth r
          readNamed depth fields n false (found ++ [(name, v)]) r

/-- the fields in their order, each as it was found or by its default -/
def arrange (found : List (String × Value)) : List Field → Except Fault (List (String × Value))
  | [] => .ok []
  | f :: fs => do
    let v ← match found.lookup f.name with
      | some v => .ok v
      | none => f.default
    let ms ← arrange found fs
    .ok ((f.name, v) :: ms)

/-- a record, as an object whose members are its fields in their order -/
def readRecord (depth : Nat) (fields : List Field) (s : Input) : Except Fault (Value × Input) :=
  match token s, depth with
  | some '[' :: _, 0 => .error .malformed
  | some '{' :: _, 0 => .error .malformed
  | some '[' :: r, d + 1 =>
    (readPositions d fields true r).map fun (ms, r) => (.object ms, r)
  | some '{' :: r, d + 1 => do
    let (found, r) ← readNamed d fields (r.length + 1) true [] r
    let ms ← arrange found fields
    .ok (.object ms, r)
  | r, _ => do
    let _ ← readScalar r
    .error .mismatch

end Matchmaker.Json
