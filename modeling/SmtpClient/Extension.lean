/-
Service extensions: what one line of the server's EHLO reply offers.
-/
import SmtpClient.Mechanism

namespace SmtpClient

/-- A service extension. -/
inductive Extension where
  | startTls
  /-- The login mechanisms offered, raised, each once. -/
  | auth (names : List String)
  /-- The largest message accepted, if the server states a size. -/
  | size (limit : Option Nat)
  | eightBitMime
  | pipelining
  | smtpUtf8
  | unknown (line : String)
  deriving DecidableEq

namespace Extension

/-- The largest size that can be stated. -/
def maxSize : Nat := 18446744073709551615

/-- The number that digits after an optional plus sign spell, up to `maxSize`. -/
def parseSize (s : String) : Option Nat :=
  let digits := match s.toList with
    | '+' :: rest => rest
    | cs => cs
  if digits.isEmpty || !digits.all Char.isDigit then none
  else
    let n := digits.foldl (fun n c => 10 * n + (c.toNat - '0'.toNat)) 0
    if n ≤ maxSize then some n else none

/-- The keyword ends at the first space or equals sign. -/
def endsKeyword (c : Char) : Bool :=
  c == ' ' || c == '='

/-- The text before the first space or equals sign, and the text behind it. -/
def splitKeyword (s : String) : String × String :=
  (String.ofList (s.toList.takeWhile fun c => !endsKeyword c),
    String.ofList ((s.toList.dropWhile fun c => !endsKeyword c).drop 1))

/-- The extension that a line offers; keywords are read in any letter case. -/
def parse (line : String) : Extension :=
  let line := Text.trim line
  let (keyword, params) := splitKeyword line
  match Text.upper keyword with
  | "STARTTLS" => startTls
  | "AUTH" => auth (Mechanism.names params)
  | "SIZE" => size (parseSize (Text.trim params))
  | "8BITMIME" => eightBitMime
  | "PIPELINING" => pipelining
  | "SMTPUTF8" => smtpUtf8
  | _ => unknown line

/-- One line for listings. -/
def describe : Extension → String
  | startTls => "STARTTLS"
  | auth names => "AUTH " ++ " ".intercalate names
  | size none => "SIZE"
  | size (some limit) => "SIZE " ++ toString limit
  | eightBitMime => "8BITMIME"
  | pipelining => "PIPELINING"
  | smtpUtf8 => "SMTPUTF8"
  | unknown line => "UNKNOWN " ++ line

end Extension

end SmtpClient
