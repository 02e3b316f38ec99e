import Matchmaker.Json.Text

/-!
# TOML: blanks, strings and keys

The smallest parts of a TOML document.  Each reader takes a text and gives what it read and the
rest, or nothing if the text does not start with it.  Loops over characters recurse on the text.

Strings stand between quotation marks, where escapes are resolved, or between apostrophes, where
nothing is.  Three marks in a row open a string that may run over several lines; its first line end
is dropped, and it may end with up to two marks more than the three that close it.  All line ends
in it become a single `\n`.
-/

namespace Matchmaker.Toml

/-! ## blanks -/

def isBlank (c : Char) : Bool := c == ' ' || c == '\t'

def skipBlanks (s : List Char) : List Char := s.dropWhile isBlank

/-- the rest behind a line end -/
def lineEnd? : List Char → Option (List Char)
  | '\n' :: r => some r
  | '\r' :: '\n' :: r => some r
  | _ => none

/-- may stand in a comment, and between apostrophes -/
def isPlain (c : Char) : Bool := c == '\t' || (' ' ≤ c && c != '\x7f')

/-- the rest behind a comment, at the end of its line -/
def skipComment : List Char → List Char
  | '#' :: r => r.dropWhile isPlain
  | s => s

/-- blanks and a comment up to the end of the line; what follows the line -/
def lineRest? (s : List Char) : Option (List Char) :=
  match skipComment (skipBlanks s) with
  | [] => some []
  | r => lineEnd? r

/-- blanks, comments and line ends, of which there are at most `n` -/
def skipLines : Nat → List Char → List Char
  | 0, s => s
  | n + 1, s =>
    let r := skipComment (skipBlanks s)
    match lineEnd? r with
    | some r => skipLines n r
    | none => r

/-! ## strings -/

/-- hexadecimal digits as a number -/
def hexNumber? (digits : List Char) : Option Nat :=
  digits.foldlM (fun n c => (Json.hexDigit? c).map (16 * n + ·)) 0

/-- a character given by exactly `width` hexadecimal digits -/
def codePoint? (width : Nat) (s : List Char) : Option Char := do
  let digits := s.take width
  if digits.length < width then none
  let n ← hexNumber? digits
  if h : n.isValidChar then some (Char.ofNatAux n h) else none

/-- the character of an escape, and the number of characters that it takes -/
def escape? : List Char → Option (Char × Nat)
  | 'b' :: _ => some ('\x08', 1)
  | 't' :: _ => some ('\t', 1)
  | 'n' :: _ => some ('\n', 1)
  | 'f' :: _ => some ('\x0c', 1)
  | 'r' :: _ => some ('\r', 1)
  | '"' :: _ => some ('"', 1)
  | '\\' :: _ => some ('\\', 1)
  | 'u' :: r => (codePoint? 4 r).map (·, 5)
  | 'U' :: r => (codePoint? 8 r).map (·, 9)
  | _ => none

/-- a string on one line, behind its opening mark; `skip` characters belong to an escape -/
def lineString (mark : Char) (escapes : Bool) : Nat → List Char → Option (List Char × List Char)
  | _, [] => none
  | skip + 1, _ :: r => lineString mark escapes skip r
  | 0, c :: r =>
    if c == mark then some ([], r)
    else if escapes && c == '\\' then do
      let (d, n) ← escape? r
      let (t, r) ← lineString mark escapes n r
      some (d :: t, r)
    else if isPlain c then do
      let (t, r) ← lineString mark escapes 0 r
      some (c :: t, r)
    else none

/-- the text from its first character that is neither a blank nor part of a line end; at most `n`
line ends are passed -/
def skipFolded : Nat → List Char → List Char
  | 0, s => skipBlanks s
  | n + 1, s =>
    match lineEnd? (skipBlanks s) with
    | some r => skipFolded n r
    | none => skipBlanks s

/-- the number of characters of a line end behind a backslash, with all blanks and line ends that
follow it -/
def foldedLines? (s : List Char) : Option Nat :=
  (lineEnd? (skipBlanks s)).map fun r => s.length - (skipFolded r.length r).length

/-- a string over several lines, behind its three opening marks; `skip` characters have been dealt
with already -/
def blockString (mark : Char) (escapes : Bool) : Nat → List Char → Option (List Char × List Char)
  | _, [] => none
  | skip + 1, _ :: r => blockString mark escapes skip r
  | 0, c :: r =>
    if c == mark then
      match (c :: r).takeWhile (· == mark) with
      | [_, _, _] => some ([], r.drop 2)
      | [_, _, _, _] => some ([mark], r.drop 3)
      | _ :: _ :: _ :: _ :: _ :: _ => some ([mark, mark], r.drop 4)
      | _ => do
        let (t, r) ← blockString mark escapes 0 r
        some (c :: t, r)
    else if escapes && c == '\\' then
      match foldedLines? r with
      | some n => blockString mark escapes n r
      | none => do
        let (d, n) ← escape? r
        let (t, r) ← blockString mark escapes n r
        some (d :: t, r)
    else if c == '\r' && r.head? == some '\n' then blockString mark escapes 0 r
    else if c == '\n' || isPlain c then do
      let (t, r) ← blockString mark escapes 0 r
      some (c :: t, r)
    else none

/-- behind the opening marks of a string over several lines, a line end is dropped -/
def blockStart (s : List Char) : List Char := (lineEnd? s).getD s

/-- a string of any kind -/
def string? : List Char → Option (List Char × List Char)
  | '"' :: '"' :: '"' :: r => blockString '"' true 0 (blockStart r)
  | '\'' :: '\'' :: '\'' :: r => blockString '\'' false 0 (blockStart r)
  | '"' :: r => lineString '"' true 0 r
  | '\'' :: r => lineString '\'' false 0 r
  | _ => none

/-! ## keys -/

/-- may stand in a key without marks around it -/
def isKeyChar (c : Char) : Bool := c.isAlphanum || c == '_' || c == '-'

/-- one part of a key -/
def keyPart? (s : List Char) : Option (String × List Char) :=
  match s with
  | '"' :: r => (lineString '"' true 0 r).map fun (t, r) => (String.ofList t, r)
  | '\'' :: r => (lineString '\'' false 0 r).map fun (t, r) => (String.ofList t, r)
  | s =>
    match s.takeWhile isKeyChar with
    | [] => none
    | k => some (String.ofList k, s.dropWhile isKeyChar)

/-- the parts that a key may have at most -/
def maxParts : Nat := 79

/-- a key of at most `n` parts with points between them; blanks may stand around each part -/
def key? : Nat → List Char → Option (List String × List Char)
  | 0, _ => none
  | n + 1, s => do
    let (k, r) ← keyPart? (skipBlanks s)
    match skipBlanks r with
    | '.' :: r => do
      let (ks, r) ← key? n r
      some (k :: ks, r)
    | r => some ([k], r)

end Matchmaker.Toml
