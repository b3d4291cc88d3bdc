/-
Client commands, the lines they are sent as, and the lines that logs may show
of them. Whatever carries credentials is masked.
-/
import SmtpClient.Mechanism
import SmtpClient.Text.Offset
import SmtpClient.Text.Utf8

namespace SmtpClient

/-- Which part of a line may be shown. -/
inductive Redaction where
  | clear
  /-- Bytes from `offset` on carry credentials. -/
  | masked (offset : Nat)
  deriving DecidableEq

namespace Redaction

def mask : String := "<redacted>"

/-- A line with its sensitive part masked. An offset that does not cut the
line between two characters masks it whole. -/
def apply (r : Redaction) (line : String) : String :=
  match r with
  | clear => line
  | masked offset =>
    match Text.splitAtByte offset line.toList with
    | some (visible, _) => String.ofList visible ++ mask
    | none => mask

end Redaction

/-- A command of the client. -/
inductive Command where
  | helo (hostname : String)
  | ehlo (hostname : String)
  | startTls
  /-- Begins a login; the initial response is base64. -/
  | auth (mechanism : Mechanism) (initial : Option String)
  /-- The base64 answer to a challenge, sent without a keyword. -/
  | response (text : String)
  | rset
  | noop
  | quit
  deriving DecidableEq

namespace Command

/-- The line without its ending. -/
def line : Command → String
  | helo hostname => "HELO " ++ hostname
  | ehlo hostname => "EHLO " ++ hostname
  | startTls => "STARTTLS"
  | auth mechanism (some initial) => "AUTH " ++ mechanism.name ++ " " ++ initial
  | auth mechanism none => "AUTH " ++ mechanism.name
  | response text => text
  | rset => "RSET"
  | noop => "NOOP"
  | quit => "QUIT"

/-- The line as it is sent. -/
def wire (c : Command) : String :=
  c.line ++ "\r\n"

/-- The bytes that are sent. -/
def bytes (c : Command) : List UInt8 :=
  Text.Utf8.encode c.wire

/-- How the line must be masked. -/
def redaction : Command → Redaction
  | auth mechanism (some _) => .masked ("AUTH ".length + mechanism.name.length + 1)
  | response _ => .masked 0
  | _ => .clear

/-- The line as logs show it. -/
def masked (c : Command) : String :=
  c.redaction.apply c.line

end Command

end SmtpClient
