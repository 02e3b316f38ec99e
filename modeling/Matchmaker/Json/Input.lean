/-!
# Reading JSON: the input and its faults

JSON is read from a list of symbols, one per character; `none` stands for a byte that belongs to no
character.  Reading goes from left to right and stops at the first fault.  A fault is of one of
three kinds: the text breaks the grammar, it ends too early, or it is well formed so far but does
not have the shape that was asked for.

A read returns what it found together with the symbols behind it, so reads compose by handing the
rest on.
-/

namespace Matchmaker.Json

abbrev Input := List (Option Char)

/-- why reading stopped -/
inductive Fault where
  /-- the text breaks the grammar -/
  | malformed
  /-- the text ends inside a value -/
  | truncated
  /-- the value does not have the shape that was asked for -/
  | mismatch
  deriving DecidableEq, Repr

/-- well-formed text as input -/
def Input.ofText (s : List Char) : Input := s.map some

/-- may stand between two tokens -/
def isGap (c : Option Char) : Bool :=
  c == some ' ' || c == some '\n' || c == some '\t' || c == some '\r'

/-- the input from its next token on -/
def token (s : Input) : Input := s.dropWhile isGap

/-- the rest behind a word that has to stand here -/
def word : List Char → Input → Except Fault Input
  | [], s => .ok s
  | _ :: _, [] => .error .truncated
  | c :: cs, d :: s => if d == some c then word cs s else .error .malformed

/-- where reading goes on inside a bracket -/
inductive Next where
  /-- behind the closing bracket -/
  | close (rest : Input)
  /-- at a further item -/
  | item (rest : Input)

/-- looks for a further item of a bracket, or for its end.  Every item but the first stands behind
a comma, and no comma stands before the end. -/
def nextItem (closing : Char) (first : Bool) (s : Input) : Except Fault Next :=
  match token s with
  | [] => .error .truncated
  | c :: r =>
    if c == some closing then .ok (.close r)
    else if first then .ok (.item (c :: r))
    else if c == some ',' then
      match token r with
      | [] => .error .truncated
      | d :: t => if d == some closing then .error .malformed else .ok (.item (d :: t))
    else .error .malformed

/-- the rest behind the colon of a member -/
def colon (s : Input) : Except Fault Input :=
  match token s with
  | [] => .error .truncated
  | c :: r => if c == some ':' then .ok r else .error .malformed

/-- nothing but gaps may follow a whole text -/
def finish (s : Input) : Except Fault Unit :=
  match token s with
  | [] => .ok ()
  | _ :: _ => .error .malformed

@[simp] theorem token_nil : token [] = [] := rfl

theorem token_of_not_gap {c : Option Char} {s : Input} (h : isGap c = false) :
    token (c :: s) = c :: s := by simp [token, h]

@[simp] theorem Input.ofText_nil : Input.ofText [] = [] := rfl

@[simp] theorem Input.ofText_cons (c : Char) (s : List Char) :
    Input.ofText (c :: s) = some c :: Input.ofText s := rfl

@[simp] theorem Input.ofText_append (s t : List Char) :
    Input.ofText (s ++ t) = Input.ofText s ++ Input.ofText t := List.map_append

theorem word_append (w : List Char) (s : Input) : word w (Input.ofText w ++ s) = .ok s := by
  induction w with
  | nil => rfl
  | cons c w ih => simpa [word] using ih

end Matchmaker.Json
