import Matchmaker.Decimal.Digits

/-!
# The shortest decimal of a binary fraction

A finite double is `m * 2^q`.  Every real number nearer to it than to its two neighbours reads back
as it, as do the two midpoints if `m` is even.  `shortest m q` is the decimal with the fewest digits
among these reals, and of several with that many digits the nearest to `m * 2^q`; a decimal exactly
in the middle of two gives way to the even one.

For each number of digits only the two neighbours of the value on that decimal grid have to be
looked at: if any point of the grid reads back, so does one of them.  Seventeen digits always
suffice, so `digitsUpTo` is asked for no more.

`writeFloat` sets the digits out: positional when the decimal point falls between the fifth place
before and the sixteenth after the first digit, with an exponent and its sign otherwise.
-/

namespace Matchmaker.Decimal

/-- `num / den`, for comparing reals without rounding -/
structure Ratio where
  num : Nat
  den : Nat

namespace Ratio

def le (a b : Ratio) : Bool := a.num * b.den ≤ b.num * a.den
def lt (a b : Ratio) : Bool := a.num * b.den < b.num * a.den

/-- `n * b^e` for an exponent of either sign -/
def scaled (n b : Nat) (e : Int) : Ratio :=
  if e < 0 then ⟨n, Nat.pow b e.natAbs⟩ else ⟨n * Nat.pow b e.natAbs, 1⟩

/-- the distance of two ratios -/
def dist (a b : Ratio) : Ratio :=
  ⟨(a.num * b.den - b.num * a.den) + (b.num * a.den - a.num * b.den), a.den * b.den⟩

end Ratio

/-- a decimal `digits * 10^exp` -/
structure Scientific where
  digits : Nat
  exp : Int

def Scientific.ratio (s : Scientific) : Ratio := .scaled s.digits 10 s.exp

/-- the reals that read back as one double: from `lo` to `hi`, the ends included if `closed` -/
structure Basin where
  value : Ratio
  lo : Ratio
  hi : Ratio
  closed : Bool

/-- the bit of a significand that is not stored, `2^52` -/
def hiddenBit : Nat := 4503599627370496

/-- the reals nearest to `m * 2^q`.  Below a power of two the neighbour is only half as far away,
unless the exponent is already the least one. -/
def Basin.of (m : Nat) (q : Int) : Basin where
  value := .scaled m 2 q
  lo := if m == hiddenBit && q != -1074 then .scaled (4 * m - 1) 2 (q - 2)
        else .scaled (2 * m - 1) 2 (q - 1)
  hi := .scaled (2 * m + 1) 2 (q - 1)
  closed := m % 2 == 0

def Basin.contains (b : Basin) (r : Ratio) : Bool :=
  if b.closed then b.lo.le r && r.le b.hi else b.lo.lt r && r.lt b.hi

/-- the whole number of steps of `10^e` in a ratio -/
def Ratio.steps (r : Ratio) (e : Int) : Nat :=
  if e < 0 then r.num * Nat.pow 10 e.natAbs / r.den else r.num / (r.den * Nat.pow 10 e.natAbs)

/-- the point of the grid of step `10^e` that stands for the basin, if one lies in it -/
def Basin.gridPoint? (b : Basin) (e : Int) : Option Scientific :=
  let below : Scientific := ⟨b.value.steps e, e⟩
  let above : Scientific := ⟨b.value.steps e + 1, e⟩
  match b.contains below.ratio, b.contains above.ratio with
  | true, false => some below
  | false, true => some above
  | false, false => none
  | true, true =>
    let down := b.value.dist below.ratio
    let up := b.value.dist above.ratio
    if down.lt up then some below
    else if up.lt down then some above
    else if below.digits % 2 == 0 then some below else some above

/-- tries the grids from step `10^e` downwards, `n` of them -/
def Basin.coarsest? (b : Basin) (e : Int) : Nat → Option Scientific
  | 0 => none
  | n + 1 =>
    match b.gridPoint? e with
    | some s => if s.digits == 0 then b.coarsest? (e - 1) n else some s
    | none => b.coarsest? (e - 1) n

/-- without the zeros at the end of its digits -/
def Scientific.trimmed (s : Scientific) : Nat → Scientific
  | 0 => s
  | n + 1 => if s.digits % 10 == 0 then Scientific.trimmed ⟨s.digits / 10, s.exp + 1⟩ n else s

/-- the shortest decimal that reads back as `m * 2^q`, for `m` positive -/
def shortest (m : Nat) (q : Int) : Scientific :=
  let b := Basin.of m q
  -- the value is below 10^top
  let top : Int := ((m.log2 : Int) + q + 1) * 30103 / 100000 + 2
  (((b.coarsest? top 400).getD ⟨m, 0⟩).trimmed 20)

/-! ## text of a double -/

/-- sign, significand and exponent of a finite double, so that it is `± m * 2^q` -/
def parts (x : Float) : Bool × Nat × Int :=
  let bits := x.toBits.toNat
  let frac : Nat := bits % hiddenBit
  let exp : Nat := bits / hiddenBit % 2048
  (bits / (hiddenBit * 2048) == 1,
    if exp == 0 then (frac, -1074) else (hiddenBit + frac, Int.ofNat exp - 1075))

/-- sets out `digits * 10^exp` -/
def setOut (s : Scientific) : List Char :=
  let ds := write s.digits
  let n : Int := ds.length
  -- the decimal point stands behind this many digits
  let point := n + s.exp
  if 0 ≤ s.exp ∧ point ≤ 16 then ds ++ List.replicate s.exp.toNat '0' ++ ['.', '0']
  else if 0 < point ∧ point ≤ 16 then ds.take point.toNat ++ '.' :: ds.drop point.toNat
  else if -5 < point ∧ point ≤ 0 then
    ['0', '.'] ++ List.replicate point.natAbs '0' ++ ds
  else
    let mantissa := match ds with
      | d :: e :: r => d :: '.' :: e :: r
      | short => short
    mantissa ++ 'e' :: (if 0 < point then '+' :: writeInt (point - 1) else writeInt (point - 1))

/-- a finite double in the fewest digits that read back as it -/
def writeFloat (x : Float) : List Char :=
  let (negative, m, q) := parts x
  let body := if m == 0 then ['0', '.', '0'] else setOut (shortest m q)
  if negative then '-' :: body else body

end Matchmaker.Decimal
