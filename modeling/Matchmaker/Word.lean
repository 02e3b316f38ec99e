/-!
# Words

The least and the greatest whole numbers that signed words hold.  The number of values of an
unsigned word is `UInt64.size`, and likewise for the shorter ones.

A sum that is not meant to wrap is `Word.sum`.  Where no word holds it there is no result, and whoever
asked for it goes no further.
-/

namespace Matchmaker

/-- an operation whose result no word holds -/
inductive Overflow where
  | add
  deriving DecidableEq, Repr

def Overflow.message : Overflow → String
  | add => "attempt to add with overflow"

namespace Word

def minInt32 : Int := -2147483648
def maxInt32 : Int := 2147483647
def minInt64 : Int := -9223372036854775808
def maxInt64 : Int := 9223372036854775807

def sum (x y : UInt64) : Except Overflow UInt64 :=
  if x.toNat + y.toNat < UInt64.size then .ok (x + y) else .error .add

end Word

end Matchmaker
