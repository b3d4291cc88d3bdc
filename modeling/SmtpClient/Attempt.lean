/-
Attempts to open a connection: connecting, and the handshake on the stream
that this gives. An attempt can be left and taken up again while it waits.
-/
import SmtpClient.Handshake

namespace SmtpClient

/-- How a server answers one connect. -/
structure Peer where
  /-- How long connecting takes. -/
  delay : Nat := 0
  connect : Except Error Stream
  /-- What arrives on the secured channel, given what had not been read in
  clear; or why there is none. -/
  upgrade : List Arrival → Except Error (List Arrival)

/-- The peer, with this number for the stream. -/
def Peer.numbered (peer : Peer) (number : Nat) : Peer :=
  { peer with connect := peer.connect.map fun s => { s with outbound := { s.outbound with number } } }

/-- An attempt under way. -/
inductive Attempt where
  /-- Connected at time `ready`. -/
  | connecting (ready : Nat) (peer : Peer)
  | clear (peer : Peer) (transport : Transport) (state : Handshake.Phase .clear × ReplyReader)
  | secured (transport : Transport) (state : Handshake.Phase .secured × ReplyReader)

namespace Attempt

/-- How far an attempt came. A failed one has a record of its writes only. -/
inductive Progress where
  | pending (wake : Option Nat) (attempt : Attempt)
  | opened (session : Handshake.Established) (transport : Transport)
  | failed (e : Error) (written : Outbound)

open Handshake

/-- Begins to connect. -/
def start (peer : Peer) (now : Nat) : Attempt :=
  connecting (now + peer.delay) peer

/-- What the attempt wrote so far. -/
def written : Attempt → Outbound
  | connecting .. => {}
  | clear _ t _ => t.stream.outbound
  | secured t _ => t.stream.outbound

/-- From the handshake on a secured channel. -/
def onSecured : Poll (Phase .secured × ReplyReader) (Outcome .secured) × Transport → Progress
  | (.pending wake state, t) => .pending wake (secured t state)
  | (.ready (.error e), t) => .failed e t.stream.outbound
  | (.ready (.ok (.ready session)), t) => .opened session t

/-- Takes the stream to TLS, without any input read ahead, and repeats EHLO. -/
def secure (config : Config) (now : Nat) (peer : Peer) (t : Transport) (hostname : String) :
    Progress :=
  match peer.upgrade t.stream.arrivals with
  | .error e => .failed e t.stream.outbound
  | .ok arrivals =>
    let t := Transport.new { t.stream with arrivals }
    onSecured ((advance config).begin (.ok (sayEhlo config .secured hostname)) now t)

/-- From the handshake in clear. -/
def onClear (config : Config) (now : Nat) (peer : Peer) :
    Poll (Phase .clear × ReplyReader) (Outcome .clear) × Transport → Progress
  | (.pending wake state, t) => .pending wake (clear peer t state)
  | (.ready (.error e), t) => .failed e t.stream.outbound
  | (.ready (.ok (.ready session)), t) => .opened session t
  | (.ready (.ok (.upgrade hostname)), t) => secure config now peer t hostname

/-- Goes on with an attempt as far as it goes at time `now`. -/
def poll (config : Config) (now : Nat) : Attempt → Progress
  | connecting ready peer =>
    if now < ready then .pending (some ready) (connecting ready peer)
    else
      match peer.connect with
      | .error e => .failed e {}
      | .ok stream =>
        onClear config now peer
          ((Transport.new stream).poll (Dialogue.conversation (advance config)) now (.greeting, {}))
  | clear peer t state =>
    onClear config now peer (t.poll (Dialogue.conversation (advance config)) now state)
  | secured t state =>
    onSecured (t.poll (Dialogue.conversation (advance config)) now state)

end Attempt

end SmtpClient
