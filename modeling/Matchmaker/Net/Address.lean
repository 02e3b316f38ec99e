import Matchmaker.Decimal.Digits
import Matchmaker.Json.Text

/-!
# Internet addresses

An address has four octets or eight groups of 16 bits.  `write` gives the usual text: octets with
points between them, and groups in lower-case hexadecimal with colons between them, where the first
of the longest runs of at least two zero groups is left out.  An address of the first kind that is
mapped into the second is written with octets.

`ofText?` reads literals only, never names.  An octet has no leading zero, a group at most four
digits, one run of zero groups may be left out, and octets may stand for the last two groups.
-/

namespace Matchmaker

inductive Address where
  | v4 (a b c d : UInt8)
  | v6 (groups : Vector UInt16 8)
  deriving DecidableEq, Repr

namespace Address

def isV4 : Address → Bool
  | v4 .. => true
  | v6 _ => false

/-! ## writing -/

def writeOctets (a b c d : UInt8) : List Char :=
  Decimal.write a.toNat ++ '.' :: Decimal.write b.toNat ++ '.' :: Decimal.write c.toNat ++
    '.' :: Decimal.write d.toNat

/-- groups with colons between them -/
def writeGroups : List UInt16 → List Char
  | [] => []
  | [g] => Nat.toDigits 16 g.toNat
  | g :: h :: gs => Nat.toDigits 16 g.toNat ++ ':' :: writeGroups (h :: gs)

/-- a run of groups -/
structure Run where
  start : Nat
  length : Nat

/-- the first of the longest runs of zeros: `i` groups have been looked at, `now` is the run that
reaches up to here and `best` the longest run so far -/
def longestZeros (i : Nat) (now best : Run) : List UInt16 → Run
  | [] => best
  | g :: gs =>
    if g == 0 then
      let now : Run := if now.length == 0 then ⟨i, 1⟩ else ⟨now.start, now.length + 1⟩
      longestZeros (i + 1) now (if best.length < now.length then now else best) gs
    else longestZeros (i + 1) ⟨0, 0⟩ best gs

def writeV6 (groups : List UInt16) : List Char :=
  match groups with
  | [0, 0, 0, 0, 0, 0xffff, g, h] =>
    [':', ':', 'f', 'f', 'f', 'f', ':'] ++
      writeOctets (g >>> 8).toUInt8 g.toUInt8 (h >>> 8).toUInt8 h.toUInt8
  | groups =>
    let run := longestZeros 0 ⟨0, 0⟩ ⟨0, 0⟩ groups
    if 1 < run.length then
      writeGroups (groups.take run.start) ++ ':' :: ':' ::
        writeGroups (groups.drop (run.start + run.length))
    else writeGroups groups

def write : Address → List Char
  | v4 a b c d => writeOctets a b c d
  | v6 groups => writeV6 groups.toList

def text (a : Address) : String := String.ofList a.write

/-! ## reading -/

/-- an octet of one to three digits, without leading zero -/
def octet? (s : List Char) : Option (UInt8 × List Char) :=
  match Decimal.spanDigits s with
  | ([], _) => none
  | (0 :: _ :: _, _) => none
  | (ds, r) =>
    if ds.length ≤ 3 ∧ Decimal.ofDigits ds < 256 then some (UInt8.ofNat (Decimal.ofDigits ds), r)
    else none

def mark? (c : Char) : List Char → Option (List Char)
  | d :: r => if c == d then some r else none
  | [] => none

def octets? (s : List Char) : Option ((UInt8 × UInt8 × UInt8 × UInt8) × List Char) := do
  let (a, s) ← octet? s
  let (b, s) ← mark? '.' s >>= octet?
  let (c, s) ← mark? '.' s >>= octet?
  let (d, s) ← mark? '.' s >>= octet?
  some ((a, b, c, d), s)

/-- the hexadecimal digits at the front, and what follows them -/
def spanHex : List Char → List Nat × List Char
  | [] => ([], [])
  | c :: s =>
    match Json.hexDigit? c with
    | some d => let (ds, r) := spanHex s; (d :: ds, r)
    | none => ([], c :: s)

/-- a group of one to four digits -/
def group? (s : List Char) : Option (UInt16 × List Char) :=
  match spanHex s with
  | ([], _) => none
  | (ds, r) =>
    if ds.length ≤ 4 then some (UInt16.ofNat (ds.foldl (fun n d => 16 * n + d) 0), r) else none

/-- every group but the first stands behind a colon -/
def separated {α : Type} (first : Bool) (read : List Char → Option α) (s : List Char) : Option α :=
  if first then read s else mark? ':' s >>= read

/-- two octets as one group -/
def join (a b : UInt8) : UInt16 := UInt16.ofNat (256 * a.toNat + b.toNat)

/-- as many groups as there are, but at most `limit`; whether they end with octets -/
def groups : Nat → Bool → List Char → List UInt16 × Bool × List Char
  | 0, _, s => ([], false, s)
  | limit + 1, first, s =>
    match if limit == 0 then none else separated first octets? s with
    | some ((a, b, c, d), r) => ([join a b, join c d], true, r)
    | none =>
      match separated first group? s with
      | some (g, r) => let (gs, last, r) := groups limit false r; (g :: gs, last, r)
      | none => ([], false, s)

def ofGroups (gs : List UInt16) : Address := v6 (Vector.ofFn fun i => gs[i]?.getD 0)

def v6? (s : List Char) : Option (Address × List Char) :=
  let (head, endsV4, r) := groups 8 true s
  if head.length == 8 then some (ofGroups head, r)
  else if endsV4 then none
  else do
    let r ← mark? ':' r >>= mark? ':'
    let (tail, _, r) := groups (7 - head.length) true r
    some (ofGroups (head ++ List.replicate (8 - head.length - tail.length) 0 ++ tail), r)

/-- the address that a literal stands for -/
def ofText? (s : String) : Option Address :=
  let found := match octets? s.toList with
    | some ((a, b, c, d), r) => some (v4 a b c d, r)
    | none => v6? s.toList
  match found with
  | some (a, []) => some a
  | _ => none

end Address

end Matchmaker
