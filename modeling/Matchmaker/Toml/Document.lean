import Matchmaker.Toml.Number
import Matchmaker.Toml.Table

/-!
# TOML documents

A document is a list of lines, each empty, a header, or a key with its value, and all of them
possibly with a comment at the end.  `parse?` reads one into an object; it refuses a document with
any fault in it, whether or not somebody would have looked at the place.

Brackets may be nested less than eighty deep.  The other loops are bounded by the length of the
text, of which each step takes at least one character.
-/

namespace Matchmaker.Toml

/-- the depth to which brackets may be nested -/
def maxDepth : Nat := 79

abbrev Reader (α : Type) := List Char → Option (α × List Char)

/-! ## values -/

/-- the items of an array up to its closing bracket; a comma may follow the last -/
def items? (item : Reader Json.Value) : Nat → Reader (List Json.Value)
  | 0, _ => none
  | n + 1, s =>
    match skipLines s.length s with
    | ']' :: r => some ([], r)
    | s => do
      let (v, r) ← item s
      match skipLines r.length r with
      | ',' :: r => do
        let (vs, r) ← items? item n r
        some (v :: vs, r)
      | ']' :: r => some ([v], r)
      | _ => none

/-- a key, an equals sign and a value -/
def pair? (item : Reader Json.Value) (s : List Char) :
    Option ((List String × Json.Value) × List Char) := do
  let (key, r) ← key? maxParts s
  let r ← mark? '=' r
  let (v, r) ← item (skipBlanks r)
  some ((key, v), r)

/-- puts a value under a key of at least one part -/
def put? (key : List String) (v : Json.Value) (es : Entries) : Option Entries := do
  let last ← key.getLast?
  assign? last v key.dropLast true es

/-- the pairs of an inline table up to its closing bracket; no comma may follow the last -/
def pairs? (item : Reader Json.Value) : Nat → Entries → Reader Entries
  | 0, _, _ => none
  | n + 1, es, s => do
    let ((key, v), r) ← pair? item s
    let es ← put? key v es
    match skipBlanks r with
    | ',' :: r => pairs? item n es r
    | '}' :: r => some (es, r)
    | _ => none

/-- one value, with brackets nested at most `depth` deep -/
def value? (depth : Nat) (s : List Char) : Option (Json.Value × List Char) :=
  match s with
  | '"' :: _ => (string? s).map fun (t, r) => (.text (String.ofList t), r)
  | '\'' :: _ => (string? s).map fun (t, r) => (.text (String.ofList t), r)
  | '[' :: r =>
    match depth with
    | 0 => none
    | d + 1 => (items? (value? d) (r.length + 1) r).map fun (vs, r) => (.array vs, r)
  | '{' :: r =>
    match depth with
    | 0 => none
    | d + 1 =>
      match skipBlanks r with
      | '}' :: r => some (.object [], r)
      | r => (pairs? (value? d) (r.length + 1) [] r).map fun (es, r) =>
        ((Node.table .header es).toValue, r)
  | s => scalar? s

/-! ## lines -/

/-- what has been read so far: all tables, and the path of the one that is open -/
structure Draft where
  root : Entries
  path : List String

/-- the header of a table, or of a further one of a list -/
def header? (s : List Char) : Option ((Bool × List String) × List Char) :=
  match s with
  | '[' :: '[' :: r => do
    let (key, r) ← key? maxParts r
    match r with
    | ']' :: ']' :: r => some ((true, key), r)
    | _ => none
  | '[' :: r => do
    let (key, r) ← key? maxParts r
    match r with
    | ']' :: r => some ((false, key), r)
    | _ => none
  | _ => none

def Draft.open? (d : Draft) (isItem : Bool) (key : List String) : Option Draft := do
  let last ← key.getLast?
  let root ← within? (if isItem then openItem? last else openTable? last) key.dropLast d.root
  some ⟨root, key⟩

def Draft.put? (d : Draft) (key : List String) (v : Json.Value) : Option Draft := do
  let root ← within? (Toml.put? key v) d.path d.root
  some { d with root := root }

/-- reads at most `n` lines -/
def lines? : Nat → Draft → List Char → Option Draft
  | 0, _, _ => none
  | n + 1, d, s =>
    match skipBlanks s with
    | [] => some d
    | c :: r =>
      if c == '#' || c == '\n' || c == '\r' then do
        let r ← lineRest? (c :: r)
        lines? n d r
      else if c == '[' then do
        let ((isItem, key), r) ← header? (c :: r)
        let d ← d.open? isItem key
        let r ← lineRest? r
        lines? n d r
      else do
        let ((key, v), r) ← pair? (value? maxDepth) (c :: r)
        let d ← d.put? key v
        let r ← lineRest? r
        lines? n d r

/-- a byte order mark may stand in front -/
def withoutMark : List Char → List Char
  | '\ufeff' :: r => r
  | s => s

/-- the object that a document stands for -/
def parse? (text : String) : Option Json.Value :=
  let s := withoutMark text.toList
  (lines? (s.length + 1) ⟨[], []⟩ s).map fun d => (Node.table .header d.root).toValue

end Matchmaker.Toml
