/-
One-line descriptions of values: a name with its fields in braces, lists in
brackets, sets in braces, and an optional value as `Some` or `None`.
-/
import SmtpClient.Text.Quoted

namespace SmtpClient.Text

/-- Texts with `, ` between them. -/
def listed (items : List String) : String :=
  ", ".intercalate items

/-- A record with all its fields. -/
def record (name : String) (fields : List (String × String)) : String :=
  name ++ " \x7b " ++ listed (fields.map fun (key, value) => key ++ ": " ++ value) ++ " \x7d"

/-- A record that has more fields than it shows. -/
def openRecord (name : String) (fields : List (String × String)) : String :=
  name ++ " \x7b " ++ listed (fields.map (fun (key, value) => key ++ ": " ++ value) ++ [".."]) ++ " \x7d"

/-- An optional value that is already text. -/
def optional : Option String → String
  | none => "None"
  | some text => "Some(" ++ text ++ ")"

/-- Quoted texts in brackets. -/
def quotedList (items : List String) : String :=
  "[" ++ listed (items.map quote) ++ "]"

/-- Quoted texts in braces. -/
def quotedSet (items : List String) : String :=
  "\x7b" ++ listed (items.map quote) ++ "\x7d"

end SmtpClient.Text
