import Matchmaker.Json.Number
import Matchmaker.Json.Text

/-!
# JSON values

A value as it is kept between reading and use.  Objects that were read hold each name once and in
ascending order (`put`); objects that are written keep the order in which their members were
declared.  `Value.write` is the one writer, without any blanks.

The accessors below are the shapes that a message may ask a member for; each is partial, and a
value of another shape is `none`.
-/

namespace Matchmaker.Json

inductive Value where
  | null
  | bool (b : Bool)
  | num (n : Number)
  | text (s : String)
  | array (items : List Value)
  | object (members : List (String × Value))

/-- sets a member, keeping the names in ascending order and each of them once -/
def put {α : Type} (name : String) (v : α) : List (String × α) → List (String × α)
  | [] => [(name, v)]
  | (n, w) :: ms =>
    if name < n then (name, v) :: (n, w) :: ms
    else if name == n then (name, v) :: ms
    else (n, w) :: put name v ms

/-- the members in ascending order; of several with one name the last -/
def collect {α : Type} (ms : List (String × α)) : List (String × α) :=
  ms.foldl (fun acc m => put m.1 m.2 acc) []

/-! ## writing -/

/-- items with commas between them -/
def commaSep : List (List Char) → List Char
  | [] => []
  | [s] => s
  | s :: t :: r => s ++ ',' :: commaSep (t :: r)

namespace Value

mutual
def write : Value → List Char
  | null => ['n', 'u', 'l', 'l']
  | bool true => ['t', 'r', 'u', 'e']
  | bool false => ['f', 'a', 'l', 's', 'e']
  | num n => writeNumber n
  | text s => writeText s
  | array items => '[' :: commaSep (writeItems items) ++ [']']
  | object members => '{' :: commaSep (writeMembers members) ++ ['}']

def writeItems : List Value → List (List Char)
  | [] => []
  | v :: vs => write v :: writeItems vs

def writeMembers : List (String × Value) → List (List Char)
  | [] => []
  | (n, v) :: ms => (writeText n ++ ':' :: write v) :: writeMembers ms
end

/-- the text of a value -/
def render (v : Value) : String := String.ofList v.write

/-! ## shapes -/

def int (n : Int) : Value := .num (.int n)
def nat (n : Nat) : Value := .num (.int n)

def asNull? : Value → Option Unit
  | null => some ()
  | _ => none

def asText? : Value → Option String
  | text s => some s
  | _ => none

def asBool? : Value → Option Bool
  | bool b => some b
  | _ => none

/-- an integer between `lo` and `hi` -/
def asInt? (lo hi : Int) : Value → Option Int
  | num (.int n) => if lo ≤ n ∧ n ≤ hi then some n else none
  | _ => none

/-- an integer from zero to below `bound` -/
def asNat? (bound : Nat) : Value → Option Nat
  | num (.int n) => if 0 ≤ n ∧ n < bound then some n.toNat else none
  | _ => none

def asArray? : Value → Option (List Value)
  | array vs => some vs
  | _ => none

/-- the value of a member -/
def member? (name : String) : Value → Option Value
  | object ms => ms.lookup name
  | _ => none

/-- a list all of whose items have one shape -/
def asListOf? {α : Type} (item : Value → Option α) : Value → Option (List α)
  | array vs => vs.mapM item
  | _ => none

/-- one of several names, as a text or as an object whose only member has that name and is null -/
def asName? {α : Type} (named : String → Option α) : Value → Option α
  | text s => named s
  | object [(n, null)] => named n
  | _ => none

/-- the values of a record's fields, from an object by name or from an array by position.  A field
that is left out is `none`, further members of an object do not matter, and further items of an
array are too many. -/
def asFields? (names : List String) : Value → Option (List (Option Value))
  | object ms => some (names.map fun n => ms.lookup n)
  | array vs =>
    if vs.length ≤ names.length then
      some (vs.map some ++ List.replicate (names.length - vs.length) none)
    else none
  | _ => none

end Value

end Matchmaker.Json
