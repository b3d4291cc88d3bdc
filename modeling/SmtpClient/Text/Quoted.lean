/-
A text in double quotes, as diagnostics show it: quotes and backslashes are
escaped, common controls have short forms, and every other unprintable
character is written by its code point.
-/
import SmtpClient.Text.Unprintable

namespace SmtpClient.Text

/-- The digits of a number in base 16, lower case. -/
def hex (n : Nat) : List Char :=
  Nat.toDigits 16 n

/-- The written form of one character of a quoted text. -/
def escape (c : Char) : List Char :=
  match c with
  | '\x00' => ['\\', '0']
  | '\t' => ['\\', 't']
  | '\r' => ['\\', 'r']
  | '\n' => ['\\', 'n']
  | '"' => ['\\', '"']
  | '\\' => ['\\', '\\']
  | c => if isUnprintable c then ['\\', 'u', '\x7b'] ++ hex c.toNat ++ ['\x7d'] else [c]

/-- A text in double quotes. -/
def quote (s : String) : String :=
  String.ofList ('"' :: s.toList.flatMap escape ++ ['"'])

end SmtpClient.Text
