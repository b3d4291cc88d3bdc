/-
A byte stream to a server. What the server sends is laid out in advance as
the arrivals that reads meet one after the other, with the delays and faults
between them; what the client writes is recorded.
-/
import SmtpClient.Command
import SmtpClient.Error

namespace SmtpClient

/-- What one read of a stream meets. Times are in milliseconds. -/
inductive Arrival where
  /-- These bytes, in one read. -/
  | data (bytes : List UInt8)
  /-- The read takes this long and then goes on with the next arrival. -/
  | delay (ms : Nat)
  /-- A delay under way, over at this time. -/
  | due (time : Nat)
  /-- This one read fails. -/
  | fault (text : String)
  /-- No read completes any more. -/
  | stall
  deriving DecidableEq

namespace Arrival

/-- The most bytes one read takes. -/
def readSize : Nat := 8192

/-- The first `n` pieces of at most `readSize` bytes. -/
def pieces : Nat → List UInt8 → List (List UInt8)
  | 0, _ => []
  | n + 1, bytes => bytes.take readSize :: pieces n (bytes.drop readSize)

/-- The reads that a chunk of any length takes; an empty chunk takes none. -/
def ofChunk (bytes : List UInt8) : List Arrival :=
  ((pieces (bytes.length / readSize + 1) bytes).filter (· ≠ [])).map data

/-- An arrival that only takes time. -/
def isDelay : Arrival → Bool
  | delay _ | due _ => true
  | _ => false

end Arrival

/-- What a client wrote to a stream. -/
structure Outbound where
  /-- Tells apart the streams of one client. -/
  number : Nat := 0
  /-- The commands whose writing was attempted, in order. -/
  attempted : List Command := []
  /-- The number of the first write that fails, counted from 1; the later ones
  fail too. -/
  failsFrom : Option Nat := none
  deriving DecidableEq

namespace Outbound

/-- The error of a failing write. -/
def fault : Error :=
  .stream (.other "write failed")

/-- Attempts a write. One that fails sends nothing. -/
def write (o : Outbound) (c : Command) : Except Error Unit × Outbound :=
  let o := { o with attempted := o.attempted ++ [c] }
  match o.failsFrom with
  | some n => (if n ≤ o.attempted.length then .error fault else .ok (), o)
  | none => (.ok (), o)

/-- The commands that were sent. -/
def sent (o : Outbound) : List Command :=
  match o.failsFrom with
  | some n => o.attempted.take (n - 1)
  | none => o.attempted

/-- The text that was sent after an earlier record of the same stream. -/
def sentSince (o earlier : Outbound) : String :=
  String.join ((o.sent.drop earlier.sent.length).map Command.wire)

/-- The lines that logs show: every attempt, masked. -/
def log (o : Outbound) : List String :=
  o.attempted.map Command.masked

end Outbound

/-- A stream: what reads will meet, and what was written. -/
structure Stream where
  arrivals : List Arrival
  outbound : Outbound := {}
  deriving DecidableEq

/-- The stream as a caller sees it who does not mind waiting. -/
def Stream.withoutDelays (s : Stream) : Stream :=
  { s with arrivals := s.arrivals.filter fun a => !a.isDelay }

end SmtpClient
