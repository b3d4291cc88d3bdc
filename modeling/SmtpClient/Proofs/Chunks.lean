/-
How the bytes of a server are cut. A transport that has all of its input at
hand does with each call what a function of the bytes says, whatever chunks
they are in (`Transport.Holds.call`). So nothing that a client does over one
stream can tell one cut from another (`Transport.cut_invisible`).
-/
import SmtpClient.Proofs.Sealing

namespace SmtpClient

variable {σ β : Type}

/-! ## Scripts -/

namespace Arrival

/-- The reads that chunks take, one chunk after the other. -/
def script (chunks : List (List UInt8)) : List Arrival :=
  chunks.flatMap ofChunk

/-- Only bytes arrive, and none of them is waited for. -/
def Prompt (arrivals : List Arrival) : Prop :=
  ∀ arrival ∈ arrivals, ∃ bytes, arrival = .data bytes

theorem flatten_pieces {n : Nat} {bytes : List UInt8} (h : bytes.length ≤ n * readSize) :
    (pieces n bytes).flatten = bytes := by
  induction n generalizing bytes with
  | zero =>
    rw [Nat.zero_mul, Nat.le_zero, List.length_eq_zero_iff] at h
    rw [h]
    rfl
  | succ n ih =>
    have hrest : (bytes.drop readSize).length ≤ n * readSize := by
      rw [List.length_drop]
      rw [Nat.succ_mul] at h
      omega
    rw [pieces, List.flatten_cons, ih hrest, List.take_append_drop]

theorem incoming_ofChunk (chunk : List UInt8) : incoming (ofChunk chunk) = chunk := by
  have hlength : chunk.length ≤ (chunk.length / readSize + 1) * readSize := by
    have hmod := Nat.mod_lt chunk.length (show 0 < readSize by decide)
    have hdiv := Nat.div_add_mod chunk.length readSize
    rw [Nat.succ_mul, Nat.mul_comm]
    omega
  rw [incoming, ofChunk, List.flatMap_map]
  exact List.flatMap_id'.trans (List.flatten_filter_ne_nil.trans (flatten_pieces hlength))

theorem incoming_script (chunks : List (List UInt8)) : incoming (script chunks) = chunks.flatten := by
  induction chunks with
  | nil => rfl
  | cons chunk chunks ih =>
    rw [script, List.flatMap_cons, incoming, List.flatMap_append, List.flatten_cons]
    exact congrArg₂ _ (incoming_ofChunk chunk) ih

theorem prompt_script (chunks : List (List UInt8)) : Prompt (script chunks) := by
  intro arrival h
  obtain ⟨chunk, -, hmem⟩ := List.mem_flatMap.1 h
  obtain ⟨bytes, -, rfl⟩ := List.mem_map.1 hmem
  exact ⟨bytes, rfl⟩

end Arrival

/-! ## Given all the bytes -/

namespace Conversation

/-- What a conversation comes to, given all the bytes there are: its result,
the bytes that it leaves, and the record of writes. -/
def exhaust (k : Conversation σ β) (s : σ) (out : Outbound) (bytes : List UInt8) :
    Except Error β × List UInt8 × Outbound :=
  match k.consume s out bytes with
  | (.hungry s, out) => (.error (k.finish s), [], out)
  | (.done result unread, out) => (result, unread, out)

variable {k : Conversation σ β} {s s' : σ} {out out' : Outbound} {xs us : List UInt8}

theorem exhaust_hungry (h : k.consume s out xs = (.hungry s', out')) (ys : List UInt8) :
    k.exhaust s out (xs ++ ys) = k.exhaust s' out' ys := by
  rw [exhaust, consume_hungry h, exhaust]

theorem exhaust_done {result : Except Error β} (h : k.consume s out xs = (.done result us, out')) (ys : List UInt8) :
    k.exhaust s out (xs ++ ys) = (result, us ++ ys, out') := by
  obtain ⟨used, rfl, hused⟩ := consume_done h
  rw [exhaust, List.append_assoc, consume_append_done hused]

end Conversation

namespace Transport

/-- Exactly these bytes are left to read, in whatever chunks, and the stream
ends behind them; and this was written. -/
structure Holds (t : Transport) (bytes : List UInt8) (out : Outbound) : Prop where
  prompt : Arrival.Prompt t.stream.arrivals
  unread : t.unread = bytes
  outbound : t.stream.outbound = out

theorem holds_script (chunks : List (List UInt8)) (out : Outbound) :
    (new { arrivals := Arrival.script chunks, outbound := out }).Holds chunks.flatten out :=
  ⟨Arrival.prompt_script chunks, Arrival.incoming_script chunks, rfl⟩

variable {k : Conversation σ β} {s : σ} {t : Transport} {bytes : List UInt8} {out : Outbound} {now : Nat}

theorem holds_receive {arrivals : List Arrival} (h : Arrival.Prompt arrivals) (k : Conversation σ β) (now : Nat)
    (s : σ) (out : Outbound) :
    (k.receive now s out arrivals).1 = .ready (k.exhaust s out (Arrival.incoming arrivals)).1 ∧
      (k.receive now s out arrivals).2.Holds (k.exhaust s out (Arrival.incoming arrivals)).2.1
        (k.exhaust s out (Arrival.incoming arrivals)).2.2 := by
  induction arrivals generalizing s out with
  | nil => exact ⟨rfl, h, rfl, rfl⟩
  | cons arrival rest ih =>
    have hrest : Arrival.Prompt rest := fun a ha => h a (List.mem_cons_of_mem _ ha)
    obtain ⟨bytes, rfl⟩ := h arrival List.mem_cons_self
    rw [Arrival.incoming_cons, Conversation.receive, Arrival.bytes]
    cases hc : k.consume s out bytes with
    | mk consumed out' =>
      cases consumed with
      | hungry s' => rw [Conversation.exhaust_hungry hc]; exact ih hrest s' out'
      | done result unread => rw [Conversation.exhaust_done hc]; exact ⟨rfl, hrest, rfl, rfl⟩

/-- **A poll is a function of the bytes.** -/
theorem Holds.poll (h : t.Holds bytes out) (k : Conversation σ β) (now : Nat) (s : σ) :
    (t.poll k now s).1 = .ready (k.exhaust s out bytes).1 ∧
      (t.poll k now s).2.Holds (k.exhaust s out bytes).2.1 (k.exhaust s out bytes).2.2 := by
  obtain ⟨hprompt, rfl, rfl⟩ := h
  rw [Transport.poll, Transport.unread]
  cases hc : k.consume s t.stream.outbound t.buffered with
  | mk consumed out' =>
    cases consumed with
    | hungry s' => rw [Conversation.exhaust_hungry hc]; exact holds_receive hprompt k now s' out'
    | done result unread => rw [Conversation.exhaust_done hc]; exact ⟨rfl, hprompt, rfl, rfl⟩

theorem Holds.write (h : t.Holds bytes out) (command : Command) :
    (t.write command).1 = (out.write command).1 ∧ (t.write command).2.Holds bytes (out.write command).2 := by
  obtain ⟨hprompt, rfl, rfl⟩ := h
  exact ⟨rfl, hprompt, rfl, rfl⟩

end Transport

/-! ## Calls -/

/-- A call on a transport. -/
inductive Call where
  | readLine
  | readReply
  | write (command : Command)
  | send (command : Command)
  deriving DecidableEq

/-- What a call returns. -/
inductive Returned where
  | line (result : Except Error String)
  | reply (result : Except Error Reply)
  | wrote (result : Except Error Unit)
  deriving DecidableEq

namespace Transport

/-- Makes a call and follows it as far as it goes at time `now`. -/
def call (t : Transport) (now : Nat) : Call → Option Returned × Transport
  | .readLine => ((t.readLine now).1.result?.map .line, (t.readLine now).2)
  | .readReply => ((t.readReply now).1.result?.map .reply, (t.readReply now).2)
  | .write command => (some (.wrote (t.write command).1), (t.write command).2)
  | .send command => ((t.send now command).1.result?.map .reply, (t.send now command).2)

/-- Makes calls one after the other, whatever the ones before returned. -/
def calls (t : Transport) (now : Nat) : List Call → List (Option Returned) × Transport
  | [] => ([], t)
  | c :: rest =>
    let (returned, t) := t.call now c
    let (more, t) := t.calls now rest
    (returned :: more, t)

end Transport

/-- A call, given all the bytes there are to read. -/
def Call.given (bytes : List UInt8) (out : Outbound) : Call → Returned × List UInt8 × Outbound
  | readLine =>
    let (result, unread) := Transport.line.exhaust {} out bytes
    (.line result, unread)
  | readReply =>
    let (result, unread) := Transport.reply.exhaust {} out bytes
    (.reply result, unread)
  | write command =>
    let (result, out) := out.write command
    (.wrote result, bytes, out)
  | send command =>
    match out.write command with
    | (.ok (), out) =>
      let (result, unread) := Transport.reply.exhaust {} out bytes
      (.reply result, unread)
    | (.error e, out) => (.reply (.error e), bytes, out)

/-- Calls one after the other, given all the bytes there are to read. -/
def Call.givenAll (bytes : List UInt8) (out : Outbound) : List Call → List Returned × List UInt8 × Outbound
  | [] => ([], bytes, out)
  | c :: rest =>
    let (returned, bytes, out) := c.given bytes out
    let (more, left) := givenAll bytes out rest
    (returned :: more, left)

namespace Transport

variable {t : Transport} {bytes : List UInt8} {out : Outbound}

/-- **A call is a function of the bytes.** -/
theorem Holds.call (h : t.Holds bytes out) (now : Nat) (c : Call) :
    (t.call now c).1 = some (c.given bytes out).1 ∧
      (t.call now c).2.Holds (c.given bytes out).2.1 (c.given bytes out).2.2 := by
  cases c with
  | readLine =>
    obtain ⟨hresult, hheld⟩ := h.poll line now {}
    exact ⟨by simp only [Transport.call, readLine, hresult]; rfl, hheld⟩
  | readReply =>
    obtain ⟨hresult, hheld⟩ := h.poll reply now {}
    exact ⟨by simp only [Transport.call, readReply, hresult]; rfl, hheld⟩
  | write command =>
    obtain ⟨hresult, hheld⟩ := h.write command
    exact ⟨by simp only [Transport.call, hresult]; rfl, hheld⟩
  | send command =>
    obtain ⟨hwrote, hheld⟩ := h.write command
    simp only [Transport.call, send, Call.given]
    generalize t.write command = r at hwrote hheld ⊢
    generalize out.write command = o at hwrote hheld ⊢
    obtain ⟨wrote, t'⟩ := r
    obtain ⟨wrote', out'⟩ := o
    obtain rfl : wrote = wrote' := hwrote
    cases wrote with
    | error e => exact ⟨rfl, hheld⟩
    | ok u =>
      obtain ⟨hresult, hread⟩ := hheld.poll reply now {}
      exact ⟨by simp only [readReply, hresult]; rfl, hread⟩

theorem Holds.calls (h : t.Holds bytes out) (now : Nat) (cs : List Call) :
    (t.calls now cs).1 = (Call.givenAll bytes out cs).1.map some ∧
      (t.calls now cs).2.Holds (Call.givenAll bytes out cs).2.1 (Call.givenAll bytes out cs).2.2 := by
  induction cs generalizing t bytes out with
  | nil => exact ⟨rfl, h⟩
  | cons c cs ih =>
    obtain ⟨hreturned, hheld⟩ := h.call now c
    obtain ⟨hmore, hleft⟩ := ih hheld
    exact ⟨by simp only [Transport.calls, Call.givenAll, hreturned, hmore, List.map_cons], hleft⟩

end Transport

/-! ## Dialogues -/

namespace Dialogue

/-- What a dialogue comes to from its first move on, given all the bytes there
are to read. -/
def given (d : Dialogue σ β) (first : Except Error (Move σ β)) (bytes : List UInt8) (out : Outbound) :
    Except Error β × List UInt8 × Outbound :=
  match first with
  | .error e => (.error e, bytes, out)
  | .ok (.finish b) => (.ok b, bytes, out)
  | .ok (.send command s) =>
    match out.write command with
    | (.ok (), out) => d.conversation.exhaust (s, {}) out bytes
    | (.error e, out) => (.error e, bytes, out)

end Dialogue

/-- **A dialogue is a function of the bytes.** -/
theorem Transport.Holds.begin {t : Transport} {bytes : List UInt8} {out : Outbound} (h : t.Holds bytes out)
    (d : Dialogue σ β) (first : Except Error (Move σ β)) (now : Nat) :
    (d.begin first now t).1 = .ready (d.given first bytes out).1 ∧
      (d.begin first now t).2.Holds (d.given first bytes out).2.1 (d.given first bytes out).2.2 := by
  rcases first with e | (⟨command, s⟩ | b)
  · exact ⟨rfl, h⟩
  · obtain ⟨hwrote, hheld⟩ := h.write command
    simp only [Dialogue.begin, Dialogue.given]
    generalize t.write command = r at hwrote hheld ⊢
    generalize out.write command = o at hwrote hheld ⊢
    obtain ⟨wrote, t'⟩ := r
    obtain ⟨wrote', out'⟩ := o
    obtain rfl : wrote = wrote' := hwrote
    cases wrote with
    | error e => exact ⟨rfl, hheld⟩
    | ok u => exact hheld.poll d.conversation now (s, {})
  · exact ⟨rfl, h⟩

/-! ## Attempts -/

namespace Attempt

open Handshake

variable {config : Config} {peer : Peer} {stream : Stream}

/-- What a handshake comes to that stays in clear, given all the bytes there
are to read. -/
def given (config : Config) (bytes : List UInt8) (out : Outbound) :
    Option (Except Error Established) × Outbound :=
  let (result, _, out) := (Dialogue.conversation (advance config)).exhaust (.greeting, {}) out bytes
  (clearResult? result, out)

/-- Without STARTTLS no dialogue in clear is over for it. -/
theorem overClear_stays (hs : config.security ≠ .startTls) (stream : Stream) (now : Nat) (later : List Nat)
    (hostname : String) : (overClear config stream now later).2.1 ≠ .ready (.ok (.upgrade hostname)) := by
  intro h
  obtain ⟨earlier, reply, -, hcourse, -⟩ := came_upgrade (overClear_upgrade (Prod.ext rfl (Prod.ext h rfl)))
  obtain ⟨-, -, -, -, -, hstart, -⟩ := hcourse.startTls
  exact hs hstart

/-- **An attempt that stays in clear is a function of the bytes.** -/
theorem poll_given {bytes : List UInt8} {out : Outbound} {begun now : Nat} (hs : config.security ≠ .startTls)
    (hc : peer.connect = .ok stream) (hh : (Transport.new stream).Holds bytes out) (hnow : begun + peer.delay ≤ now) :
    (((start peer begun).poll config now).result?, ((start peer begun).poll config now).written) =
        given config bytes out ∧ (given config bytes out).1.isSome = true := by
  obtain ⟨hresult, -, -, hout⟩ := hh.poll (Dialogue.conversation (advance config)) now (.greeting, {})
  have hstays : ∀ hostname, ((Transport.new stream).poll (Dialogue.conversation (advance config)) now
      (.greeting, {})).1 ≠ .ready (.ok (.upgrade hostname)) := overClear_stays hs stream now []
  simp only [start, poll, if_neg (Nat.not_lt.2 hnow), hc, given]
  generalize (Transport.new stream).poll (Dialogue.conversation (advance config)) now (.greeting, {}) = r
    at hresult hout hstays ⊢
  obtain ⟨p, t⟩ := r
  obtain rfl := hresult
  rw [(onClear_settles hstays config now peer t).1, onClear_written hstays, hout]
  refine ⟨rfl, ?_⟩
  generalize (Conversation.exhaust _ _ out bytes).1 = result at hstays ⊢
  rcases result with e | (session | hostname)
  · rfl
  · rfl
  · exact absurd rfl (hstays hostname)

end Attempt

/-! ## Two cuts of the same bytes -/

/-- **The cut does not show.** Two scripts cut the same bytes in two ways. Any
calls in any order then return the same on both, also behind one that failed,
and each returns at once; and so does a login and, without STARTTLS, an attempt
to open a connection. In all of these the same is written. -/
theorem Transport.cut_invisible {chunks chunks' : List (List UInt8)} (h : chunks.flatten = chunks'.flatten)
    (out : Outbound) :
    let stream : Stream := { arrivals := Arrival.script chunks, outbound := out }
    let stream' : Stream := { arrivals := Arrival.script chunks', outbound := out }
    (∀ cs now now', (∃ returned, ((new stream).calls now cs).1 = List.map some returned) ∧
      ((new stream).calls now cs).1 = ((new stream').calls now' cs).1 ∧
      ((new stream).calls now cs).2.stream.outbound = ((new stream').calls now' cs).2.stream.outbound) ∧
    (∀ config advertised now now', (∃ result, ((new stream).authenticate config advertised now).1 = .ready result ∧
        ((new stream').authenticate config advertised now').1 = .ready result) ∧
      ((new stream).authenticate config advertised now).2.stream.outbound =
        ((new stream').authenticate config advertised now').2.stream.outbound) ∧
    ∀ (config : Config) (peer peer' : Peer) (begun begun' now now' : Nat), config.security ≠ .startTls →
      peer.connect = .ok stream → peer'.connect = .ok stream' →
      begun + peer.delay ≤ now → begun' + peer'.delay ≤ now' →
      let progress := (Attempt.start peer begun).poll config now
      let progress' := (Attempt.start peer' begun').poll config now'
      (∃ result, progress.result? = some result ∧ progress'.result? = some result) ∧
        progress.written = progress'.written := by
  intro stream stream'
  have hh : (new stream).Holds chunks.flatten out := holds_script chunks out
  have hh' : (new stream').Holds chunks.flatten out := h ▸ holds_script chunks' out
  refine ⟨fun cs now now' => ?_, fun config advertised now now' => ?_, ?_⟩
  · obtain ⟨hreturned, -, -, hout⟩ := hh.calls now cs
    obtain ⟨hreturned', -, -, hout'⟩ := hh'.calls now' cs
    exact ⟨⟨_, hreturned⟩, hreturned.trans hreturned'.symm, hout.trans hout'.symm⟩
  · obtain ⟨hresult, -, -, hout⟩ := hh.begin AuthSession.dialogue _ now
    obtain ⟨hresult', -, -, hout'⟩ := hh'.begin AuthSession.dialogue _ now'
    exact ⟨⟨_, hresult, hresult'⟩, hout.trans hout'.symm⟩
  · intro config peer peer' begun begun' now now' hs hc hc' hnow hnow'
    obtain ⟨hgiven, hsome⟩ := Attempt.poll_given hs hc hh hnow
    obtain ⟨hgiven', -⟩ := Attempt.poll_given hs hc' hh' hnow'
    obtain ⟨result, hresult⟩ := Option.isSome_iff_exists.1 hsome
    obtain ⟨hprogress, hwritten⟩ := Prod.mk.inj hgiven
    obtain ⟨hprogress', hwritten'⟩ := Prod.mk.inj hgiven'
    exact ⟨⟨result, hprogress.trans hresult, hprogress'.trans hresult⟩, hwritten.trans hwritten'.symm⟩

/-! A session cut inside the endings of lines and inside a character, with an
empty chunk in between. -/

def whole : List (List UInt8) :=
  ["220 mx ready\r\n250-mx\r\n250 AUTH PLAIN\r\n235 h\u00e9\r\n".toUTF8.toList ++ [0xff, 10]]

def sliced : List (List UInt8) :=
  ["220 mx ready\r".toUTF8.toList, [], "\n250-mx\r\n250 AUTH PLAIN\r\n235 h".toUTF8.toList, [0xc3], [0xa9, 13],
    [10, 0xff], [10]]

/-- A server that says so much, in these chunks. -/
def talking (chunks : List (List UInt8)) : Peer where
  connect := .ok { arrivals := Arrival.script chunks }
  upgrade := fun _ => .error .connectionClosed

theorem Transport.cut_invisible_sliced :
    let config : Config := { member with security := .none }
    ((new { arrivals := Arrival.script sliced }).calls 0
        [.readLine, .send .noop, .readReply, .write .quit, .readLine, .readLine]).1 =
      [.line (.ok "220 mx ready"), .reply (.ok ⟨⟨250⟩, ["mx", "AUTH PLAIN"]⟩), .reply (.ok ⟨⟨235⟩, ["h\u00e9"]⟩),
        .wrote (.ok ()), .line (.error (.stream (.encoding (.invalid 0 1)))),
        .line (.error .connectionClosed)].map some ∧
    ((new { arrivals := Arrival.script sliced }).authenticate config ["PLAIN"] 0).2.stream.outbound.attempted =
      [.auth .plain (some "AHUAcA==")] ∧
    ((Attempt.start (talking sliced) 0).poll config 0).result? =
      some (.ok ⟨{ hostname := "mx", extensions := [.auth ["PLAIN"]] }, .authenticated .plain⟩) := by
  intro config
  have hsame : whole.flatten = sliced.flatten := by decide +kernel
  obtain ⟨hcalls, hlogin, hattempt⟩ := cut_invisible hsame {}
  obtain ⟨-, hreturned, -⟩ := hcalls [.readLine, .send .noop, .readReply, .write .quit, .readLine, .readLine] 0 0
  obtain ⟨-, hwritten⟩ := hlogin config ["PLAIN"] 0 0
  obtain ⟨⟨result, hresult, hresult'⟩, -⟩ := hattempt config (talking whole) (talking sliced) 0 0 0 0 (by decide)
    rfl rfl (by decide) (by decide)
  rw [← hreturned, ← hwritten, hresult', ← hresult]
  exact ⟨by decide +kernel, by decide +kernel, by decide +kernel⟩

end SmtpClient
