import Matchmaker.Json.Value
import Matchmaker.Time.Calendar
import Matchmaker.Toml.Lexeme
import Matchmaker.Word

/-!
# TOML: numbers, dates and words

Of the values that are neither strings nor brackets only integers and truth values are kept, since
no setting takes another.  Floats and dates are checked for their form, and a float also for its
range, but all of them are read as `null`.

An underscore may stand between two digits.  A reader stops in front of what does not belong to the
number; such a rest is refused by whoever looks for the end of the value.
-/

namespace Matchmaker.Toml

/-! ## digits -/

/-- further digits, each possibly behind an underscore, and what follows them -/
def moreDigits (digit? : Char → Option Nat) : List Char → List Nat × List Char
  | [] => ([], [])
  | [c] =>
    match digit? c with
    | some d => ([d], [])
    | none => ([], [c])
  | c :: e :: s =>
    match digit? c with
    | some d => let (ds, r) := moreDigits digit? (e :: s); (d :: ds, r)
    | none =>
      match if c == '_' then digit? e else none with
      | some d => let (ds, r) := moreDigits digit? s; (d :: ds, r)
      | none => ([], c :: e :: s)

/-- at least one digit -/
def digits? (digit? : Char → Option Nat) (s : List Char) : Option (List Nat × List Char) :=
  match s with
  | c :: r => (digit? c).map fun d => let (ds, r) := moreDigits digit? r; (d :: ds, r)
  | [] => none

/-- a sign, if there is one -/
def sign : List Char → Bool × List Char
  | '+' :: r => (false, r)
  | '-' :: r => (true, r)
  | s => (false, s)

/-- the digits of a whole number, where a zero stands alone -/
def wholeDigits? (s : List Char) : Option (List Nat × List Char) :=
  match s with
  | '0' :: r => some ([0], r)
  | s => digits? Decimal.digit? s

/-- digits in another base, the value of which fits into 63 bits -/
def inBase? (base : Nat) (s : List Char) : Option (Json.Number × List Char) := do
  let digit? := fun c => (Json.hexDigit? c).bind fun d => if d < base then some d else none
  let (ds, r) ← digits? digit? s
  let n := ds.foldl (fun n d => base * n + d) 0
  if (n : Int) ≤ Word.maxInt64 then some (.int n, r) else none

/-! ## numbers -/

/-- the least number that rounds to infinity is `2^1024 - 2^970` -/
def tooLarge : Nat := Nat.pow 2 1024 - Nat.pow 2 970

/-- `digits * 10^e` is beyond the doubles -/
def isTooLarge (digits : Nat) (e : Int) : Bool :=
  let places : Int := (Decimal.toDigits digits).length + e
  if digits == 0 || places < 308 then false
  else if 310 < places then true
  else if 0 ≤ e then tooLarge ≤ digits * Nat.pow 10 e.toNat
  else tooLarge * Nat.pow 10 e.natAbs ≤ digits

/-- the digits behind a point, if there is one -/
def fraction? : List Char → Option (List Nat × List Char)
  | '.' :: r => digits? Decimal.digit? r
  | s => some ([], s)

/-- the power of ten behind the letter `e`, if there is one -/
def power? : List Char → Option (Int × List Char)
  | [] => some (0, [])
  | c :: s =>
    if c == 'e' || c == 'E' then
      let (negative, r) := sign s
      (digits? Decimal.digit? r).map fun (ds, r) =>
        (if negative then -(Decimal.ofDigits ds : Int) else Decimal.ofDigits ds, r)
    else some (0, c :: s)

/-- a number in base ten: an integer, or a float in the range of doubles -/
def decimal? (s : List Char) : Option (Json.Value × List Char) := do
  let (negative, s) := sign s
  match s with
  | 'i' :: 'n' :: 'f' :: r => some (.null, r)
  | 'n' :: 'a' :: 'n' :: r => some (.null, r)
  | s => do
    let (whole, r) ← wholeDigits? s
    let (fraction, t) ← fraction? r
    let (power, t) ← power? t
    if t.length == r.length then
      let n : Int := Decimal.ofDigits whole
      let n := if negative then -n else n
      if Word.minInt64 ≤ n ∧ n ≤ Word.maxInt64 then some (.int n, r) else none
    else if !negative && isTooLarge (Decimal.ofDigits (whole ++ fraction))
        (power - fraction.length) then none
    else some (.null, t)

def number? (s : List Char) : Option (Json.Value × List Char) :=
  match s with
  | '0' :: 'x' :: r => (inBase? 16 r).map fun (n, r) => (.num n, r)
  | '0' :: 'o' :: r => (inBase? 8 r).map fun (n, r) => (.num n, r)
  | '0' :: 'b' :: r => (inBase? 2 r).map fun (n, r) => (.num n, r)
  | s => decimal? s

/-! ## dates and times -/

/-- a number of exactly `width` digits between `lo` and `hi` -/
def part? (width lo hi : Nat) (s : List Char) : Option (Nat × List Char) := do
  let ds ← (s.take width).mapM Decimal.digit?
  let n := Decimal.ofDigits ds
  if ds.length == width && lo ≤ n && n ≤ hi then some (n, s.drop width) else none

def mark? (c : Char) : List Char → Option (List Char)
  | d :: r => if c == d then some r else none
  | [] => none

/-- the rest behind the digits of a fraction of a second, if there are any -/
def secondFraction? : List Char → Option (List Char)
  | '.' :: r =>
    match r.takeWhile Decimal.isDigit with
    | [] => none
    | _ => some (r.dropWhile Decimal.isDigit)
  | s => some s

/-- a time of day -/
def time? (s : List Char) : Option (List Char) := do
  let (_, s) ← part? 2 0 23 s
  let (_, s) ← mark? ':' s >>= part? 2 0 59
  let (_, s) ← mark? ':' s >>= part? 2 0 60
  secondFraction? s

/-- a date -/
def date? (s : List Char) : Option (List Char) := do
  let (year, s) ← part? 4 0 9999 s
  let (month, s) ← mark? '-' s >>= part? 2 1 12
  let (_, s) ← mark? '-' s >>= part? 2 1 (Date.monthLength year month)
  some s

/-- an offset from universal time, if there is one -/
def offset? : List Char → Option (List Char)
  | 'Z' :: r => some r
  | 'z' :: r => some r
  | c :: r =>
    if c == '+' || c == '-' then do
      let (_, s) ← part? 2 0 23 r
      let (_, s) ← mark? ':' s >>= part? 2 0 59
      some s
    else some (c :: r)
  | [] => some []

/-- starts like a time of day, with two digits and a colon -/
def startsTime (s : List Char) : Bool := (part? 2 0 23 s >>= fun (_, r) => mark? ':' r).isSome

/-- starts like a date, with four digits and a dash -/
def startsDate (s : List Char) : Bool := (part? 4 0 9999 s >>= fun (_, r) => mark? '-' r).isSome

/-- a date, a time of day, or both -/
def moment? (s : List Char) : Option (Json.Value × List Char) := do
  if startsDate s then
    let r ← date? s
    match r with
    | c :: t =>
      if (c == 'T' || c == 't' || c == ' ') && startsTime t then do
        let t ← time? t
        let t ← offset? t
        some (.null, t)
      else some (.null, r)
    | [] => some (.null, [])
  else (time? s).map fun r => (.null, r)

/-! ## scalars -/

/-- the rest behind a word -/
def word? : List Char → List Char → Option (List Char)
  | [], s => some s
  | c :: cs, d :: s => if c == d then word? cs s else none
  | _ :: _, [] => none

/-- a value that is neither a string nor a bracket -/
def scalar? (s : List Char) : Option (Json.Value × List Char) :=
  match s with
  | 't' :: r => (word? ['r', 'u', 'e'] r).map fun r => (.bool true, r)
  | 'f' :: r => (word? ['a', 'l', 's', 'e'] r).map fun r => (.bool false, r)
  | 'i' :: _ => decimal? s
  | 'n' :: _ => decimal? s
  | s => if startsDate s || startsTime s then moment? s else number? s

end Matchmaker.Toml
