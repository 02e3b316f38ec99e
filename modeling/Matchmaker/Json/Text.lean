import Matchmaker.Json.Input

/-!
# JSON strings

A string is read from behind its opening quote up to its closing one.  Control characters have to
be escaped, `\u` takes four hexadecimal digits, and a character beyond the first plane is a pair of
two such escapes; half a pair is refused.  A byte that belongs to no character is refused only when
the closing quote has been found, so a string that never ends is reported as truncated.

A string that is skipped is checked less: only control characters, unknown escapes and digits that
are not hexadecimal are refused.

Writing escapes the quote, the backslash and the control characters, by letter where there is one,
and nothing else.
-/

namespace Matchmaker.Json

/-! ## escapes -/

def hexDigit? (c : Char) : Option Nat :=
  if '0' ≤ c ∧ c ≤ '9' then some (c.toNat - 48)
  else if 'a' ≤ c ∧ c ≤ 'f' then some (c.toNat - 87)
  else if 'A' ≤ c ∧ c ≤ 'F' then some (c.toNat - 55)
  else none

/-- the bytes that one symbol stands for -/
def symbolSize : Option Char → Nat
  | some c => c.utf8Size
  | none => 1

/-- the four hexadecimal digits at the front.  The text is truncated if fewer than four bytes are
left, whatever they are. -/
def hexCode (s : Input) : Except Fault Nat :=
  match s with
  | some a :: some b :: some c :: some d :: _ =>
    match hexDigit? a, hexDigit? b, hexDigit? c, hexDigit? d with
    | some a, some b, some c, some d => .ok (((a * 16 + b) * 16 + c) * 16 + d)
    | _, _, _, _ => .error .malformed
  | s => if (s.take 4).foldl (fun n c => n + symbolSize c) 0 < 4 then .error .truncated else .error .malformed

def isHighSurrogate (n : Nat) : Bool := 0xd800 ≤ n && n ≤ 0xdbff
def isLowSurrogate (n : Nat) : Bool := 0xdc00 ≤ n && n ≤ 0xdfff

/-- the character of a surrogate pair -/
def pairChar (high low : Nat) : Char :=
  Char.ofNat ((high - 0xd800) * 0x400 + (low - 0xdc00) + 0x10000)

/-- the second half of a surrogate pair, an escape of its own -/
def lowSurrogate (s : Input) : Except Fault Nat := do
  let r ← word ['\\', 'u'] s
  let low ← hexCode r
  if isLowSurrogate low then .ok low else .error .malformed

/-- the character that an escape stands for, and the number of symbols behind the backslash that
make up the escape -/
def escape : Input → Except Fault (Char × Nat)
  | [] => .error .truncated
  | some '"' :: _ => .ok ('"', 1)
  | some '\\' :: _ => .ok ('\\', 1)
  | some '/' :: _ => .ok ('/', 1)
  | some 'b' :: _ => .ok ('\x08', 1)
  | some 'f' :: _ => .ok ('\x0c', 1)
  | some 'n' :: _ => .ok ('\n', 1)
  | some 'r' :: _ => .ok ('\r', 1)
  | some 't' :: _ => .ok ('\t', 1)
  | some 'u' :: r => do
    let n ← hexCode r
    if isLowSurrogate n then .error .malformed
    else if isHighSurrogate n then do
      let low ← lowSurrogate (r.drop 4)
      .ok (pairChar n low, 11)
    else .ok (Char.ofNat n, 5)
  | _ :: _ => .error .malformed

/-- the number of symbols of an escape in a string that is skipped -/
def skipEscape : Input → Except Fault Nat
  | [] => .error .truncated
  | some 'u' :: r => do
    let _ ← hexCode r
    .ok 5
  | some c :: _ => if c ∈ ['"', '\\', '/', 'b', 'f', 'n', 'r', 't'] then .ok 1 else .error .malformed
  | none :: _ => .error .malformed

/-! ## whole strings -/

/-- the symbols of a string up to its closing quote; the first `skip` symbols of the input belong
to an escape that has been read already -/
def scan : Nat → Input → Except Fault (Input × Input)
  | _, [] => .error .truncated
  | skip + 1, _ :: r => scan skip r
  | 0, some '"' :: r => .ok ([], r)
  | 0, some '\\' :: r => do
    let (c, n) ← escape r
    let (t, r) ← scan n r
    .ok (some c :: t, r)
  | 0, c :: r =>
    if c.any (· < ' ') then .error .malformed
    else do
      let (t, r) ← scan 0 r
      .ok (c :: t, r)

/-- the string whose opening quote has just been read -/
def readText (s : Input) : Except Fault (String × Input) := do
  let (t, r) ← scan 0 s
  match t.mapM id with
  | some cs => .ok (String.ofList cs, r)
  | none => .error .malformed

/-- the rest behind a string of which only the end matters -/
def skipText : Nat → Input → Except Fault Input
  | _, [] => .error .truncated
  | skip + 1, _ :: r => skipText skip r
  | 0, some '"' :: r => .ok r
  | 0, some '\\' :: r => do
    let n ← skipEscape r
    skipText n r
  | 0, c :: r => if c.any (· < ' ') then .error .malformed else skipText 0 r

/-! ## writing -/

def lowerHex (n : Nat) : Char := if n < 10 then Char.ofNat (48 + n) else Char.ofNat (87 + n)

/-- how one character stands in a string -/
def writeChar (c : Char) : List Char :=
  match c with
  | '"' => ['\\', '"']
  | '\\' => ['\\', '\\']
  | '\x08' => ['\\', 'b']
  | '\x0c' => ['\\', 'f']
  | '\n' => ['\\', 'n']
  | '\r' => ['\\', 'r']
  | '\t' => ['\\', 't']
  | c => if c < ' ' then ['\\', 'u', '0', '0', lowerHex (c.toNat / 16), lowerHex (c.toNat % 16)]
         else [c]

/-- a string between quotes -/
def writeText (s : String) : List Char := '"' :: s.toList.flatMap writeChar ++ ['"']

end Matchmaker.Json
