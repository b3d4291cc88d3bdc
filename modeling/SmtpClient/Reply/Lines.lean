/-
From lines to replies. The code is read from the first line alone; every line
gives the text behind its first four bytes, and a line of three bytes gives
an empty text.
-/
import SmtpClient.Error
import SmtpClient.Text.Offset

namespace SmtpClient.Reply

/-- How many bytes of a line stand before its text. -/
def textOffset : Nat := 4

/-- The number that decimal digits spell. -/
def ofDigits (digits : List Char) : Nat :=
  digits.foldl (fun n c => 10 * n + (c.toNat - '0'.toNat)) 0

/-- The code at the start of a line: its first three bytes, if all are digits. -/
def codeOf? (line : String) : Option ReplyCode :=
  match Text.splitAtByte 3 line.toList with
  | some (digits, _) => if digits.all Char.isDigit then some ⟨ofDigits digits⟩ else none
  | none => none

/-- The text of a line. -/
def textOf? (line : String) : Option String :=
  match Text.splitAtByte textOffset line.toList, Text.splitAtByte 3 line.toList with
  | some (_, text), _ => some (String.ofList text)
  | none, some (_, []) => some ""
  | none, _ => none

/-- A line ends its reply if its fourth byte is a space or missing; a line
that is shorter still does not. -/
def isLastLine (line : String) : Bool :=
  match Text.splitAtByte 3 line.toList with
  | some (_, []) => true
  | some (_, c :: _) => c == ' '
  | none => false

/-- The class of the reply that a single line begins; a failure if it has no code. -/
def classify (line : String) : ReplyClass :=
  match codeOf? line with
  | some code => code.kind
  | none => .failure

/-- The texts of lines, or the first line that has none. -/
def textsOf : List String → Except Error (List String)
  | [] => .ok []
  | line :: lines =>
    match textOf? line with
    | some text => (textsOf lines).map (text :: ·)
    | none => .error (.protocol (.malformedLine line))

/-- The reply that lines spell. -/
def ofLines (lines : List String) : Except Error Reply :=
  match lines with
  | [] => .error (.protocol .emptyReply)
  | first :: _ =>
    match codeOf? first with
    | none => .error (.protocol (.badCode first))
    | some code => (textsOf lines).map (Reply.mk code)

end SmtpClient.Reply
