import Matchmaker.Json.Number
import Matchmaker.Json.Text

/-!
# Skipping a JSON value

The value of a member that nobody asked for is passed over.  Only what is needed to find its end is
checked: brackets may be nested to any depth, numbers of any size and halves of surrogate pairs are
accepted.  Nesting is kept as a list of open brackets, so no depth limit is needed.
-/

namespace Matchmaker.Json

inductive Bracket where
  | list
  | object

def Bracket.closing : Bracket → Char
  | .list => ']'
  | .object => '}'

/-- the rest behind a value without brackets -/
def skipScalar (s : Input) : Except Fault Input :=
  match s with
  | [] => .error .truncated
  | some 'n' :: r => word ['u', 'l', 'l'] r
  | some 't' :: r => word ['r', 'u', 'e'] r
  | some 'f' :: r => word ['a', 'l', 's', 'e'] r
  | some '"' :: r => skipText 0 r
  | some c :: _ => if c == '-' || Decimal.isDigit c then skipNumber s else .error .malformed
  | none :: _ => .error .malformed

/-- the rest behind the name of a member and its colon -/
def skipName (s : Input) : Except Fault Input :=
  match token s with
  | [] => .error .truncated
  | some '"' :: r => skipText 0 r >>= colon
  | _ :: _ => .error .malformed

/-- what is looked for next -/
inductive Seek where
  /-- a value -/
  | value
  /-- the end of the innermost bracket, or a further item of it -/
  | item (first : Bool)

/-- passes over one value; `opened` are the brackets around the place that was reached, innermost
first.  Each step takes a symbol or opens none, so twice the length of the input is steps enough. -/
def skipLoop : Nat → Seek → List Bracket → Input → Except Fault Input
  | 0, _, _, _ => .error .malformed
  | n + 1, .value, opened, s =>
    match token s with
    | [] => .error .truncated
    | some '[' :: r => skipLoop n (.item true) (.list :: opened) r
    | some '{' :: r => skipLoop n (.item true) (.object :: opened) r
    | r => do
      let r ← skipScalar r
      if opened.isEmpty then .ok r else skipLoop n (.item false) opened r
  | n + 1, .item first, opened, s =>
    match opened with
    | [] => .ok s
    | b :: outer =>
      match token s with
      | [] => .error .truncated
      | c :: r =>
        if c == some b.closing then
          if outer.isEmpty then .ok r else skipLoop n (.item false) outer r
        else if first || c == some ',' then
          let r := if first then c :: r else r
          match b with
          | .list => skipLoop n .value opened r
          | .object => do
            let r ← skipName r
            skipLoop n .value opened r
        else .error .malformed

/-- the rest behind one value of any kind -/
def skip (s : Input) : Except Fault Input := skipLoop (2 * s.length + 2) .value [] s

end Matchmaker.Json
