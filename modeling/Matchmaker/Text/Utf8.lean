/-!
# Bytes read as characters

`chars b` reads a byte string from left to right.  A byte that starts no well-formed UTF-8 sequence
yields `none` and reading goes on behind it, so that a reader of a format can decide for itself
whether and when a bad byte matters.  A byte below 128 is a character wherever it stands, hence the
quotes and brackets of a format are found in any byte string.
-/

namespace Matchmaker.Text

/-- the characters of `b` from byte `i` on; `none` marks a byte that belongs to no character -/
def charsFrom (b : ByteArray) (i : Nat) : List (Option Char) :=
  if i < b.size then
    match b.utf8DecodeChar? i with
    | some c => some c :: charsFrom b (i + c.utf8Size)
    | none => none :: charsFrom b (i + 1)
  else []
termination_by b.size - i
decreasing_by
  · have := c.utf8Size_pos; omega
  · omega

/-- the characters of a byte string -/
def chars (b : ByteArray) : List (Option Char) := charsFrom b 0

/-- the text of a byte string that is well-formed UTF-8 -/
def decode? (b : ByteArray) : Option String :=
  ((chars b).mapM id).map String.ofList

theorem charsFrom_of_le {b : ByteArray} {i : Nat} (h : b.size ≤ i) : charsFrom b i = [] := by
  rw [charsFrom, if_neg (by omega)]

theorem charsFrom_of_some {b : ByteArray} {i : Nat} {c : Char} (h : i < b.size)
    (hc : b.utf8DecodeChar? i = some c) :
    charsFrom b i = some c :: charsFrom b (i + c.utf8Size) := by
  rw [charsFrom, if_pos h]
  simp [hc]

end Matchmaker.Text
