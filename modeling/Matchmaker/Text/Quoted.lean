import Matchmaker.Text.Invisible

/-!
# Quoted text in messages

A message that quotes what was typed puts it between double quotes, so that every character of it
can be seen: a quote and a backslash stand behind a backslash, tabs, line ends and NUL have their
usual letters, and a character without a sign of its own is given by its number, as in `\u{200b}`.
-/

namespace Matchmaker.Text

/-- lower-case hexadecimal digits, no leading zero -/
def hexDigits (n : Nat) : List Char := Nat.toDigits 16 n

/-- how one character stands in a quoted text -/
def quotedChar (c : Char) : List Char :=
  match c with
  | '\x00' => ['\\', '0']
  | '\t' => ['\\', 't']
  | '\r' => ['\\', 'r']
  | '\n' => ['\\', 'n']
  | '\\' => ['\\', '\\']
  | '"' => ['\\', '"']
  | c => if isInvisible c then ['\\', 'u', '\x7b'] ++ hexDigits c.toNat ++ ['\x7d'] else [c]

/-- the text between double quotes, with every character visible -/
def quoted (s : String) : String :=
  String.ofList ('"' :: s.toList.flatMap quotedChar ++ ['"'])

end Matchmaker.Text
