import Matchmaker.Json.Input
import Matchmaker.Decimal.Shortest
import Matchmaker.Word

/-!
# JSON numbers

A number literal is read whole, as its sign and three runs of digits, and only then turned into a
number.  Without fraction and exponent it is an integer as long as it fits into 64 bits, signed if
it is negative and unsigned if not; `-0` is not an integer.  Everything else is a double: the
digits are taken into a 64-bit significand as long as they fit, and the significand is then
multiplied or divided by a power of ten.  A literal beyond the range of doubles is malformed.

Integers are written in full, doubles in the fewest digits that read back.
-/

namespace Matchmaker.Json

inductive Number where
  | int (n : Int)
  | real (x : Float)

/-! ## literals -/

/-- the digits at the front of the input, and what follows them -/
def digits : Input → List Nat × Input
  | [] => ([], [])
  | c :: s =>
    match c.bind Decimal.digit? with
    | some d => let (ds, r) := digits s; (d :: ds, r)
    | none => ([], c :: s)

/-- a number as it is written -/
structure Literal where
  negative : Bool
  whole : List Nat
  /-- empty if there is no point -/
  fraction : List Nat
  /-- the sign and the digits behind the letter `e` -/
  exponent : Option (Bool × List Nat)

/-- at least one digit, and what follows -/
def digits1 (s : Input) : Except Fault (List Nat × Input) :=
  match digits s with
  | ([], []) => .error .truncated
  | ([], _ :: _) => .error .malformed
  | (d :: ds, r) => .ok (d :: ds, r)

/-- the digits before the point: a zero stands alone -/
def wholeDigits (s : Input) : Except Fault (List Nat × Input) :=
  match digits1 s with
  | .ok (0 :: _ :: _, _) => .error .malformed
  | r => r

def fractionDigits : Input → Except Fault (List Nat × Input)
  | some '.' :: r => digits1 r
  | s => .ok ([], s)

def exponentDigits : Input → Except Fault (Option (Bool × List Nat) × Input)
  | some c :: r =>
    if c == 'e' || c == 'E' then
      let (negative, r) := match r with
        | some '+' :: t => (false, t)
        | some '-' :: t => (true, t)
        | r => (false, r)
      do
        let (ds, r) ← digits1 r
        .ok (some (negative, ds), r)
    else .ok (none, some c :: r)
  | s => .ok (none, s)

/-- the literal behind its sign -/
def literal (negative : Bool) (s : Input) : Except Fault (Literal × Input) := do
  let (whole, s) ← wholeDigits s
  let (fraction, s) ← fractionDigits s
  let (exponent, s) ← exponentDigits s
  .ok (⟨negative, whole, fraction, exponent⟩, s)

/-! ## values -/

/-- takes digits up until the next one would leave 64 bits; the number of digits left over -/
def absorb (n : Nat) : List Nat → Nat × Nat
  | [] => (n, 0)
  | d :: ds => if 10 * n + d < UInt64.size then absorb (10 * n + d) ds else (n, ds.length + 1)

/-- the double `10^n` -/
def powerOfTen (n : Nat) : Float := Float.ofScientific 1 false n

/-- `x / 10^n`, in steps of `10^308`, of which `steps` are enough to reach zero -/
def lower (x : Float) (n : Nat) : Nat → Float
  | 0 => x
  | steps + 1 =>
    if n ≤ 308 then x / powerOfTen n
    else if x == 0 then x else lower (x / powerOfTen 308) (n - 308) steps

/-- `x * 10^n`, unless that is beyond the doubles -/
def raise? (x : Float) (n : Nat) : Option Float :=
  if n ≤ 308 then
    let y := x * powerOfTen n
    if y.isInf then none else some y
  else if x == 0 then some x else none

/-- `m * 10^e` as a double -/
def scale? (m : Nat) (e : Int) : Option Float :=
  let x := m.toUInt64.toFloat
  if 0 ≤ e then raise? x e.toNat else some (lower x e.natAbs 4)

namespace Literal

def isWhole (l : Literal) : Bool := l.fraction.isEmpty && l.exponent.isNone

/-- the exponent of ten behind the letter `e` -/
def power (l : Literal) : Int :=
  match l.exponent with
  | none => 0
  | some (negative, ds) => if negative then -(Decimal.ofDigits ds : Int) else Decimal.ofDigits ds

/-- the literal as a double; digits of the fraction that do not fit are left out -/
def real? (l : Literal) : Option Float :=
  let (n, beyond) := absorb 0 l.whole
  let (m, left) := absorb n l.fraction
  let e : Int := beyond - (l.fraction.length - left : Nat) + l.power
  (scale? m e).map fun x => if l.negative then -x else x

/-- the integer that the literal stands for, if it is one that fits -/
def int? (l : Literal) : Option Int :=
  let n := Decimal.ofDigits l.whole
  if !l.isWhole then none
  else if l.negative then if 0 < n ∧ Word.minInt64 ≤ -(n : Int) then some (-n) else none
  else if n < UInt64.size then some n else none

def number? (l : Literal) : Option Number :=
  match l.int? with
  | some n => some (.int n)
  | none => l.real?.map .real

end Literal

/-- a number, of which the first symbol is a minus sign or a digit -/
def readNumber (s : Input) : Except Fault (Number × Input) := do
  let (l, r) ← match s with
    | some '-' :: t => literal true t
    | s => literal false s
  match l.number? with
  | some n => .ok (n, r)
  | none => .error .malformed

/-- the rest behind a number of which only the end matters; one that breaks off is malformed -/
def skipNumber (s : Input) : Except Fault Input :=
  match (match s with
    | some '-' :: t => literal true t
    | s => literal false s) with
  | .ok (_, r) => .ok r
  | .error _ => .error .malformed

/-! ## writing -/

def writeNumber : Number → List Char
  | .int n => Decimal.writeInt n
  | .real x => Decimal.writeFloat x

end Matchmaker.Json
