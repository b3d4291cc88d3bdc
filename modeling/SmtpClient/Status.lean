/-
The states that login exchanges and connections go through, and the words in
which descriptions and messages show them.
-/
import SmtpClient.Text.Record

namespace SmtpClient

/-- How far a login exchange is. -/
inductive AuthState where
  /-- Nothing sent yet. -/
  | init
  /-- Picking a mechanism. -/
  | selecting
  /-- Waiting for the reply to the line of this round: 0 for the `AUTH` line,
  one more for every line after it. -/
  | exchanging (round : Nat)
  /-- Logged in, or login skipped. -/
  | success
  | failure
  deriving DecidableEq

def AuthState.describe : AuthState → String
  | .init => "Init"
  | .selecting => "Selecting"
  | .exchanging round => Text.record "Exchanging" [("round", toString round)]
  | .success => "Success"
  | .failure => "Failure"

/-- The lifecycle of a connection. -/
inductive Status where
  /-- Lent to a caller. -/
  | inUse
  /-- Parked in a pool. -/
  | idle
  /-- The exchange failed; the connection is not used again. -/
  | broken
  /-- `QUIT` was sent or the stream was given up. -/
  | closed
  deriving DecidableEq

def Status.describe : Status → String
  | .inUse => "InUse"
  | .idle => "Idle"
  | .broken => "Broken"
  | .closed => "Closed"

end SmtpClient
