import Matchmaker.Json.Reader
import Matchmaker.Text.Blank

/-!
# Identities of players and servers

A player is told apart by a 64-bit number, a game server and its lobby by a 32-bit one.  Player
numbers are beyond what a browser's numbers can hold, so they are sent as strings of decimal digits;
a plain number is accepted as well.  Both kinds of identity are ordered by their number.

Reading a player's number from text allows blanks around it, a plus sign and leading zeros.
-/

namespace Matchmaker

/-! ## players -/

structure SteamId where
  val : UInt64
  deriving DecidableEq, Repr, Hashable, Ord

namespace SteamId

/-- the identity of an account is its number above this one -/
def individualBase : Nat := 76561197960265728

def toNat (p : SteamId) : Nat := p.val.toNat

def ofNat (n : Nat) : SteamId := ⟨UInt64.ofNat n⟩

/-- the identity of an account -/
def ofAccount (account : UInt32) : SteamId := ofNat (individualBase + account.toNat)

/-- names an individual account; account zero is not one -/
def isValid (p : SteamId) : Bool :=
  individualBase < p.toNat && p.toNat < individualBase + UInt32.size

/-- decimal digits -/
def text (p : SteamId) : String := String.ofList (Decimal.write p.toNat)

/-- digits of a number below `2^64`, behind an optional plus sign -/
def ofDigits? (s : List Char) : Option SteamId :=
  let ds := match s with
    | '+' :: r => r
    | r => r
  match Decimal.read? ds with
  | some n => if n < UInt64.size then some (ofNat n) else none
  | none => none

/-- the identity that a text stands for, whatever blanks are around it -/
def ofText? (s : String) : Option SteamId := ofDigits? (Text.trim s.toList)

def toValue (p : SteamId) : Json.Value := .text p.text

def ofValue? : Json.Value → Option SteamId
  | .text s => ofText? s
  | v => (v.asNat? UInt64.size).map ofNat

def read (s : Json.Input) : Except Json.Fault (SteamId × Json.Input) :=
  Json.readValue Json.maxDepth s >>= Json.shaped ofValue?

theorem ext_toNat {p q : SteamId} (h : p.toNat = q.toNat) : p = q := by
  cases p; cases q; congr 1; exact UInt64.toNat_inj.1 h

theorem toNat_ofNat {n : Nat} (h : n < UInt64.size) : (ofNat n).toNat = n :=
  UInt64.toNat_ofNat_of_lt' h

end SteamId

/-! ## servers -/

structure ServerId where
  val : UInt32
  deriving DecidableEq, Repr, Hashable

namespace ServerId

def toNat (s : ServerId) : Nat := s.val.toNat

def ofNat (n : Nat) : ServerId := ⟨UInt32.ofNat n⟩

/-- how a server is named to people -/
def label (s : ServerId) : String := "S-" ++ String.ofList (Decimal.write s.toNat)

def toValue (s : ServerId) : Json.Value := .nat s.toNat

def ofValue? (v : Json.Value) : Option ServerId := (v.asNat? UInt32.size).map ofNat

def read (s : Json.Input) : Except Json.Fault (ServerId × Json.Input) :=
  Json.readPlain s >>= Json.shaped ofValue?

theorem ext_toNat {s t : ServerId} (h : s.toNat = t.toNat) : s = t := by
  cases s; cases t; congr 1; exact UInt32.toNat_inj.1 h

theorem toNat_ofNat {n : Nat} (h : n < UInt32.size) : (ofNat n).toNat = n :=
  UInt32.toNat_ofNat_of_lt' h

end ServerId

end Matchmaker
