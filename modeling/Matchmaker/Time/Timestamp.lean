import Matchmaker.Decimal.Digits
import Matchmaker.Text.Blank
import Matchmaker.Time.Calendar

/-!
# Points in time

A timestamp is a day, a second of it and nanoseconds, always in universal time.  During a leap
second the nanoseconds go on beyond one thousand million, so the second before it is not left.

`write` gives the usual internet form, `2024-05-01T12:00:00.250Z`, with no fraction or with 3, 6
or 9 digits of it.  `read?` takes that form and some freedom around it: a space or a small `t`
between date and time, blanks in front of each number, any offset of less than a day, and the
letters `UTC` or a small `z` for none.  An offset is applied, not kept.
-/

namespace Matchmaker

structure Timestamp where
  day : Int
  second : Nat
  nano : Nat
  second_lt : second < 86400 := by decide
  nano_lt : nano < 2000000000 := by decide
  deriving DecidableEq, Repr

namespace Timestamp

/-! ## writing -/

/-- four digits, or a sign and at least four digits beyond the years 0 to 9999 -/
def writeYear (y : Int) : List Char :=
  if 0 ≤ y ∧ y ≤ 9999 then Decimal.padded 4 y.toNat
  else (if y < 0 then '-' else '+') :: Decimal.padded 4 y.natAbs

/-- nothing, or a point and 3, 6 or 9 digits -/
def writeFraction (nano : Nat) : List Char :=
  if nano == 0 then []
  else if nano % 1000000 == 0 then '.' :: Decimal.padded 3 (nano / 1000000)
  else if nano % 1000 == 0 then '.' :: Decimal.padded 6 (nano / 1000)
  else '.' :: Decimal.padded 9 nano

def writeDate (d : Date) : List Char :=
  writeYear d.year ++ '-' :: Decimal.padded 2 d.month ++ '-' :: Decimal.padded 2 d.day

def writeTime (second nano : Nat) : List Char :=
  let leap := nano / 1000000000
  Decimal.padded 2 (second / 3600) ++ ':' :: Decimal.padded 2 (second / 60 % 60) ++
    ':' :: Decimal.padded 2 (second % 60 + leap) ++ writeFraction (nano % 1000000000)

def write (t : Timestamp) : String :=
  String.ofList (writeDate (Date.ofDay t.day) ++ 'T' :: writeTime t.second t.nano ++ ['Z'])

/-! ## reading -/

/-- at most `width` digits, and what follows them -/
def digitsUpTo : Nat → List Char → List Nat × List Char
  | 0, s => ([], s)
  | _, [] => ([], [])
  | width + 1, c :: s =>
    match Decimal.digit? c with
    | some d => let (ds, r) := digitsUpTo width s; (d :: ds, r)
    | none => ([], c :: s)

/-- a number of at least one and at most `width` digits -/
def number? (width : Nat) (s : List Char) : Option (Nat × List Char) :=
  match digitsUpTo width s with
  | ([], _) => none
  | (d :: ds, r) => some (Decimal.ofDigits (d :: ds), r)

/-- a number of two digits at most, not beyond `hi`, whatever blanks are in front of it -/
def field? (hi : Nat) (s : List Char) : Option (Nat × List Char) := do
  let (n, r) ← number? 2 (Text.trimStart s)
  if n ≤ hi then some (n, r) else none

/-- a year of at most four digits, or of any number of digits behind a sign -/
def year? (s : List Char) : Option (Int × List Char) :=
  match Text.trimStart s with
  | '-' :: r => (number? r.length r).map fun (n, r) => (-(n : Int), r)
  | '+' :: r => (number? r.length r).map fun (n, r) => ((n : Int), r)
  | s => (number? 4 s).map fun (n, r) => ((n : Int), r)

/-- a mark, whatever blanks are in front of it -/
def mark? (c : Char) (s : List Char) : Option (List Char) :=
  match Text.trimStart s with
  | d :: r => if d == c then some r else none
  | [] => none

def date? (s : List Char) : Option (Date × List Char) := do
  let (year, s) ← year? s
  let s ← mark? '-' s
  let (month, s) ← field? 12 s
  let s ← mark? '-' s
  let (day, s) ← field? 31 s
  let d : Date := ⟨year, month, day⟩
  if d.IsValid then some (d, s) else none

/-- nanoseconds behind a point, of which the tenth digit and all later ones are dropped -/
def fraction? : List Char → Option (Nat × List Char)
  | '.' :: s =>
    match digitsUpTo 9 s with
    | ([], _) => none
    | (ds, r) => some (Decimal.ofDigits ds * Nat.pow 10 (9 - ds.length), r.dropWhile Decimal.isDigit)
  | s => some (0, s)

/-- a time of day as its second and nanoseconds; a second of 60 is a leap second -/
def time? (s : List Char) : Option ((Nat × Nat) × List Char) := do
  let (hour, s) ← field? 23 s
  let s ← mark? ':' s
  let (minute, s) ← field? 59 s
  let s ← mark? ':' s
  let (second, s) ← field? 60 s
  let (nano, s) ← fraction? s
  let leap := if second == 60 then 1 else 0
  some ((hour * 3600 + minute * 60 + (second - leap), nano + leap * 1000000000), s)

/-- exactly two digits, the first of them not beyond `hi` -/
def twoDigits? (hi : Nat) : List Char → Option (Nat × List Char)
  | a :: b :: r => do
    let a ← Decimal.digit? a
    let b ← Decimal.digit? b
    if a ≤ hi then some (10 * a + b, r) else none
  | _ => none

/-- hours and minutes behind a sign, in minutes -/
def signedOffset? (sign : Int) (s : List Char) : Option (Int × List Char) := do
  let (hours, s) ← twoDigits? 9 s
  let (minutes, s) ← twoDigits? 5 (s.dropWhile fun c => c == ':' || Text.isBlank c)
  if hours < 24 then some (sign * (hours * 60 + minutes : Nat), s) else none

/-- how far a local time is ahead of universal time, in minutes -/
def offset? (s : List Char) : Option (Int × List Char) :=
  match s with
  | 'Z' :: r => some (0, r)
  | 'z' :: r => some (0, r)
  | '+' :: r => signedOffset? 1 r
  | '-' :: r => signedOffset? (-1) r
  | '\u2212' :: r => signedOffset? (-1) r
  | a :: b :: c :: r =>
    if a.toUpper == 'U' && b.toUpper == 'T' && c.toUpper == 'C' then some (0, r) else none
  | _ => none

/-- the timestamp `seconds` after the start of `day`, if its year is one that dates are kept for -/
def ofSeconds? (day seconds : Int) (nano : Nat) : Option Timestamp :=
  let t := day + seconds / 86400
  let year := (Date.ofDay t).year
  if h : nano < 2000000000 then
    if Date.minYear ≤ year ∧ year ≤ Date.maxYear then
      some ⟨t, (seconds % 86400).toNat, nano, by omega, h⟩
    else none
  else none

def readFrom? (s : List Char) : Option (Timestamp × List Char) := do
  let (date, s) ← date? s
  let s ← match s with
    | c :: r => if c == 'T' || c == 't' || c == ' ' then some r else none
    | [] => none
  let ((second, nano), s) ← time? s
  let (offset, s) ← offset? (Text.trimStart s)
  let t ← ofSeconds? date.dayNumber (second - offset * 60) nano
  some (t, s)

/-- the timestamp that a text stands for; blanks may follow it -/
def read? (s : String) : Option Timestamp :=
  match readFrom? s.toList with
  | some (t, r) => if (Text.trimStart r).isEmpty then some t else none
  | none => none

end Timestamp

end Matchmaker
