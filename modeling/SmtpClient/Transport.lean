/-
A stream with the bytes that were read from it but not used yet, and the way
conversations run over it. A conversation takes one byte at a time and says
whether it wants more, has a line to send or is done; it can be left and
taken up again whenever the stream has nothing to give.
-/
import SmtpClient.Reply.Reader
import SmtpClient.Stream

namespace SmtpClient

/-- What a conversation says to a byte. -/
inductive Demand (σ β : Type) where
  | more (state : σ)
  /-- Send this line; if that fails, so does the conversation. -/
  | write (command : Command) (state : σ)
  | done (result : Except Error β)

/-- Something that reads bytes and may answer with lines. -/
structure Conversation (σ β : Type) where
  feed : σ → UInt8 → Demand σ β
  /-- The error if the stream ends. -/
  finish : σ → Error

/-- How far a conversation came. -/
inductive Poll (σ β : Type) where
  | ready (result : Except Error β)
  /-- Nothing more to read until time `wake`; never, if there is none. -/
  | pending (wake : Option Nat) (state : σ)

/-- A stream with unread input. -/
structure Transport where
  buffered : List UInt8 := []
  stream : Stream
  deriving DecidableEq

/-- How much of a list of bytes a conversation used. -/
inductive Consumed (σ β : Type) where
  /-- All of it. -/
  | hungry (state : σ)
  | done (result : Except Error β) (unread : List UInt8)

namespace Conversation

variable {σ β : Type}

/-- Runs a conversation over bytes that are there already. -/
def consume (k : Conversation σ β) (s : σ) (out : Outbound) :
    List UInt8 → Consumed σ β × Outbound
  | [] => (.hungry s, out)
  | byte :: bytes =>
    match k.feed s byte with
    | .more s => k.consume s out bytes
    | .write command s =>
      match out.write command with
      | (.ok (), out) => k.consume s out bytes
      | (.error e, out) => (.done (.error e) bytes, out)
    | .done result => (.done result bytes, out)

/-- Runs a conversation over what reads meet at time `now`. -/
def receive (k : Conversation σ β) (now : Nat) (s : σ) (out : Outbound) :
    List Arrival → Poll σ β × Transport
  | [] => (.ready (.error (k.finish s)), ⟨[], [], out⟩)
  | .data bytes :: rest =>
    match k.consume s out bytes with
    | (.hungry s, out) => k.receive now s out rest
    | (.done result unread, out) => (.ready result, ⟨unread, rest, out⟩)
  | .delay ms :: rest =>
    if ms = 0 then k.receive now s out rest
    else (.pending (some (now + ms)) s, ⟨[], .due (now + ms) :: rest, out⟩)
  | .due time :: rest =>
    if time ≤ now then k.receive now s out rest
    else (.pending (some time) s, ⟨[], .due time :: rest, out⟩)
  | .fault text :: rest => (.ready (.error (.stream (.other text))), ⟨[], rest, out⟩)
  | .stall :: rest => (.pending none s, ⟨[], .stall :: rest, out⟩)

end Conversation

namespace Transport

variable {σ β : Type}

/-- A transport on a new stream. -/
def new (stream : Stream) : Transport := { stream }

/-- Runs a conversation as far as it goes at time `now`. -/
def poll (t : Transport) (k : Conversation σ β) (now : Nat) (s : σ) : Poll σ β × Transport :=
  match k.consume s t.stream.outbound t.buffered with
  | (.hungry s, out) => k.receive now s out t.stream.arrivals
  | (.done result unread, out) => (.ready result, ⟨unread, { t.stream with outbound := out }⟩)

/-- Attempts to send a command. -/
def write (t : Transport) (c : Command) : Except Error Unit × Transport :=
  let (result, outbound) := t.stream.outbound.write c
  (result, { t with stream := { t.stream with outbound } })

/-- The same stream without the input read ahead. -/
def rewrap (t : Transport) : Transport :=
  new t.stream

/-- Reading a line. -/
def line : Conversation LineReader String where
  feed r byte :=
    match r.feed byte with
    | .more r => .more r
    | .done result => .done result
  finish r :=
    match r.finish with
    | .error e => e
    | .ok _ => .connectionClosed

/-- Reading a reply. -/
def reply : Conversation ReplyReader Reply where
  feed r byte :=
    match r.feed byte with
    | .more r => .more r
    | .done result => .done result
  finish := ReplyReader.finish

/-- Reads a line, from its beginning. -/
def readLine (t : Transport) (now : Nat) : Poll LineReader String × Transport :=
  t.poll line now {}

/-- Reads a reply, from its beginning. -/
def readReply (t : Transport) (now : Nat) : Poll ReplyReader Reply × Transport :=
  t.poll reply now {}

/-- Sends a command and reads its reply. -/
def send (t : Transport) (now : Nat) (c : Command) : Poll ReplyReader Reply × Transport :=
  match t.write c with
  | (.ok (), t) => t.readReply now
  | (.error e, t) => (.ready (.error e), t)

end Transport

end SmtpClient
