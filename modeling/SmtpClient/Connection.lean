/-
An established connection. It becomes broken when an exchange fails, when the
server says that it goes away, or when its owner says so; from then on it
sends nothing more.
-/
import SmtpClient.Attempt

namespace SmtpClient

/-- A connection that is ready for commands. -/
structure Connection where
  id : Nat
  transport : Transport
  info : ServerInfo := {}
  auth : AuthOutcome := .skipped
  status : Status := .inUse
  deriving DecidableEq

namespace Connection

/-- How long a reply to `QUIT` is waited for. -/
def quitTimeout : Nat := 10000

/-- The connection that an attempt opened. -/
def ofEstablished (id : Nat) (session : Handshake.Established) (transport : Transport) : Connection :=
  { id, transport, info := session.info, auth := session.auth }

def isBroken (c : Connection) : Bool :=
  c.status = .broken || c.status = .closed

/-- Marks the connection as unusable; a closed one stays closed. -/
def setBroken (c : Connection) : Connection :=
  if c.status = .closed then c else { c with status := .broken }

/-- What the connection wrote so far. -/
def written (c : Connection) : Outbound :=
  c.transport.stream.outbound

/-- Sends a command, unless the connection is broken, and waits for its reply
from then on. -/
def begin (c : Connection) (command : Command) : Except Error ReplyReader × Connection :=
  if c.isBroken then (.error (.invalidState (.unusable c.id c.status)), c)
  else
    match c.transport.write command with
    | (.ok (), transport) => (.ok {}, { c with transport })
    | (.error e, transport) => (.error e, { c with transport }.setBroken)

/-- Goes on waiting for a reply. -/
def poll (c : Connection) (now : Nat) (reader : ReplyReader) : Poll ReplyReader Reply × Connection :=
  match c.transport.poll Transport.reply now reader with
  | (.pending wake reader, transport) => (.pending wake reader, { c with transport })
  | (.ready (.error e), transport) => (.ready (.error e), { c with transport }.setBroken)
  | (.ready (.ok reply), transport) =>
    let c := { c with transport }
    (.ready (.ok reply), if reply.code = .serviceUnavailable then c.setBroken else c)

/-- Sends a command and follows the exchange as far as it goes. -/
def command (c : Connection) (now : Nat) (command : Command) : Poll ReplyReader Reply × Connection :=
  match c.begin command with
  | (.error e, c) => (.ready (.error e), c)
  | (.ok reader, c) => c.poll now reader

/-- What the result of an `RSET` says about the connection: only a positive
reply leaves it usable. -/
def judge (c : Connection) : Except Error Reply → Except Error Unit × Connection
  | .error e => (.error e, c)
  | .ok reply => if reply.isSuccess then (.ok (), c) else (.error (.ofReply reply), c.setBroken)

/-- Checks that the session still works, as far as the exchange goes. -/
def probe (c : Connection) (now : Nat) : Poll ReplyReader Unit × Connection :=
  match c.command now .rset with
  | (.pending wake reader, c) => (.pending wake reader, c)
  | (.ready result, c) =>
    let (verdict, c) := c.judge result
    (.ready verdict, c)

/-- Says goodbye, unless broken, and closes. -/
def close (c : Connection) (now : Nat) : Connection :=
  let c := if c.isBroken then c else (c.command now .quit).2
  { c with status := .closed }

def describe (c : Connection) : String :=
  Text.openRecord "Connection" [
    ("id", toString c.id),
    ("server", Text.quote c.info.hostname),
    ("auth", c.auth.describe),
    ("status", c.status.describe)]

end Connection

end SmtpClient
