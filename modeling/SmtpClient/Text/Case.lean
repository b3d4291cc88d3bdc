/-
Two ways to disregard letter case. Mechanism names in lists are compared
after raising the ASCII letters; single keywords are compared after full
upper-casing, where a few characters outside ASCII become ASCII letters.
-/

namespace SmtpClient.Text

/-- A text with its ASCII letters raised and all else kept. -/
def raiseAscii (s : String) : String :=
  String.ofList (s.toList.map Char.toUpper)

/-- The upper case of a character, as far as it is made of ASCII characters.
Every other character is kept: no keyword holds one, and none becomes ASCII. -/
def upperChar (c : Char) : List Char :=
  match c.toNat with
  | 0xdf => ['S', 'S']
  | 0x131 => ['I']
  | 0x17f => ['S']
  | 0xfb00 => ['F', 'F']
  | 0xfb01 => ['F', 'I']
  | 0xfb02 => ['F', 'L']
  | 0xfb03 => ['F', 'F', 'I']
  | 0xfb04 => ['F', 'F', 'L']
  | 0xfb05 => ['S', 'T']
  | 0xfb06 => ['S', 'T']
  | _ => [c.toUpper]

/-- A text in upper case, exact wherever the result is ASCII. -/
def upper (s : String) : String :=
  String.ofList (s.toList.flatMap upperChar)

end SmtpClient.Text
