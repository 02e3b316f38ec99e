import Matchmaker.Error
import Matchmaker.Text.Blank

/-!
# Message bodies

What a player typed is cleaned before it is stored.  Control characters and blanks other than a
plain space are dropped, the rest is trimmed, and angle brackets are replaced by their entities.
A body is refused if nothing is left or if more than a thousand characters are; they are counted
before the brackets are replaced.
-/

namespace Matchmaker.Chat

/-- the characters that a body may have -/
def maxLength : Nat := 1000

/-- may stand in a body -/
def isPrintable (c : Char) : Bool := c == ' ' || !(Text.isControl c || Text.isBlank c)

/-- the printable characters, trimmed -/
def visible (s : List Char) : List Char := Text.trim ((Text.trim s).filter isPrintable)

/-- angle brackets are written as entities -/
def escape (c : Char) : List Char :=
  match c with
  | '<' => ['&', 'l', 't', ';']
  | '>' => ['&', 'g', 't', ';']
  | c => [c]

/-- the body as it is stored -/
def sanitize (body : String) : Except QueueError String :=
  let s := visible body.toList
  if s.isEmpty then .error (.badInput "empty message")
  else if maxLength < s.length then
    .error (.badInput ("message is " ++ String.ofList (Decimal.write s.length) ++
      " characters, limit is " ++ String.ofList (Decimal.write maxLength)))
  else .ok (String.ofList (s.flatMap escape))

end Matchmaker.Chat
