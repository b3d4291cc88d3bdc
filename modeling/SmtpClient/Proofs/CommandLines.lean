/-
The lines that a server finds in what a client writes. Of the texts that a caller
gives, all that is secret or a name goes through base64 and cannot end a line; the
name that the client greets with stands in its hello as it is
(`Command.Issued.oneLine_iff`). So each command is one line just where that name is
one, and each line ending in it is one more line in each hello
(`Attempt.follow_framed`).
-/
import SmtpClient.Proofs.Breakage
import SmtpClient.Proofs.Lines

namespace SmtpClient

open Text.Utf8 (encode encode_append lineFeed_notMem_encode)

/-! ## Texts of one line -/

theorem oneLine_append_iff {s s' : String} : OneLine (s ++ s') ↔ OneLine s ∧ OneLine s' := by
  simp only [OneLine, String.toList_append, List.mem_append, not_or]
  tauto

theorem Mechanism.name_oneLine (m : Mechanism) : OneLine m.name := by
  cases m <;> decide

namespace Text.Base64

theorem symbol_ne (n : Nat) : symbol n ≠ '\r' ∧ symbol n ≠ '\n' := by
  by_cases h : n < 64
  · have hall : ∀ n < 64, symbol n ≠ '\r' ∧ symbol n ≠ '\n' := by decide
    exact hall n h
  · have hlast : symbol n = '/' := by
      rw [symbol, if_neg (by omega), if_neg (by omega), if_neg (by omega), if_neg (by omega)]
    rw [hlast]
    decide

theorem symbols_ne (bytes : List UInt8) : ∀ c ∈ symbols bytes, c ≠ '\r' ∧ c ≠ '\n' := by
  have hpad : '=' ≠ '\r' ∧ '=' ≠ '\n' := by decide
  fun_induction symbols bytes with
  | case1 => exact nofun
  | case2 =>
    simp only [List.forall_mem_cons]
    exact ⟨symbol_ne _, symbol_ne _, hpad, hpad, nofun⟩
  | case3 =>
    simp only [List.forall_mem_cons]
    exact ⟨symbol_ne _, symbol_ne _, symbol_ne _, hpad, nofun⟩
  | case4 _ _ _ _ ih =>
    simp only [List.forall_mem_cons]
    exact ⟨symbol_ne _, symbol_ne _, symbol_ne _, symbol_ne _, ih⟩

/-- Base64 ends no line. -/
theorem encode_oneLine (bytes : List UInt8) : OneLine (encode bytes) := by
  have hne := symbols_ne bytes
  rw [OneLine, encode, String.toList_ofList]
  exact ⟨fun hmem => (hne _ hmem).1 rfl, fun hmem => (hne _ hmem).2 rfl⟩

end Text.Base64

/-! ## What is said -/

namespace Command

/-- The client's greeting. -/
def isHello : Command → Bool
  | ehlo _ | helo _ => true
  | _ => false

/-- What a client with this configuration says: a hello with its own name, words
of its own, and base64. -/
def Issued (config : Config) : Command → Prop
  | ehlo hostname | helo hostname => hostname = config.ehloHostname
  | auth _ initial => ∀ text ∈ initial, ∃ bytes, text = Text.Base64.encode bytes
  | response text => ∃ bytes, text = Text.Base64.encode bytes
  | startTls | rset | noop | quit => True

variable {config : Config} {c : Command}

theorem bytes_eq (c : Command) : c.bytes = encode c.line ++ [carriageReturn, lineFeed] :=
  encode_append c.line "\r\n"

/-- A command is one line, unless it is a hello with a name that is not. -/
theorem Issued.oneLine_iff (h : c.Issued config) :
    OneLine c.line ↔ (c.isHello = true → OneLine config.ehloHostname) := by
  cases c with
  | ehlo hostname | helo hostname =>
    obtain rfl : hostname = config.ehloHostname := h
    simp only [line, oneLine_append_iff, isHello, forall_const]
    exact and_iff_right (by decide)
  | auth m initial =>
    have hname : OneLine ("AUTH " ++ m.name) := oneLine_append_iff.2 ⟨by decide, m.name_oneLine⟩
    refine iff_of_true ?_ nofun
    cases initial with
    | none => exact hname
    | some text =>
      obtain ⟨bytes, rfl⟩ := h text rfl
      have htext := Text.Base64.encode_oneLine bytes
      simp only [line, oneLine_append_iff]
      exact ⟨⟨oneLine_append_iff.1 hname, by decide⟩, htext⟩
  | response text =>
    obtain ⟨bytes, rfl⟩ := h
    exact iff_of_true (Text.Base64.encode_oneLine bytes) nofun
  | startTls | rset | noop | quit => exact iff_of_true (by decide) nofun

end Command

namespace AuthSession

variable {config : Config} {s s' : AuthSession} {command : Command}

theorem start_issued {advertised : List String}
    (h : (new config advertised).start = (.ok (.send command), s)) : command.Issued config := by
  have hdecision := new_decision config advertised
  rw [h] at hdecision
  cases hdecision with
  | begins =>
    intro text htext
    split at htext
    · cases htext
    · exact ⟨_, (Option.some.inj htext).symm⟩

theorem advance_issued {reply : Reply} (h : s.advance reply = (.ok (.send command), s')) : command.Issued config := by
  simp only [advance, respond] at h
  split at h
  · split at h
    · cases h
    split at h
    · cases h
    · cases h
    split at h
    · cases h
    split at h
    · cases h
    · cases h
      exact ⟨_, rfl⟩
  · cases h

end AuthSession

namespace Handshake

variable {config : Config} {es : List Event} {ch : Channel} {phase : Phase ch}

/-- All that is said in a handshake is issued. -/
theorem Course.issued (h : Course config ch phase es) : ∀ command ∈ Event.lines es, command.Issued config := by
  induction h with
  | silent => exact nofun
  | greeted => simp [Command.Issued]
  | refused _ _ ih | offered _ _ _ _ ih | secured _ _ ih => simpa [or_imp, forall_and, Command.Issued] using ih
  | login _ _ _ hstart ih => simpa [or_imp, forall_and] using ⟨ih, AuthSession.start_issued hstart⟩
  | answered _ hadv ih => simpa [or_imp, forall_and] using ⟨ih, AuthSession.advance_issued hadv⟩

end Handshake

theorem Attempt.Along.issued {config : Config} {es : List Event} (h : Attempt.Along config es) :
    ∀ command ∈ Event.lines es, command.Issued config := by
  cases h with
  | unheard => exact nofun
  | asked hc => exact hc.issued
  | heard hc | upgraded hc => simpa using hc.issued

/-! ## What a server finds -/

/-- The lines that end in these bytes; what is behind the last ending is none yet. -/
def received : List UInt8 → List (List UInt8)
  | [] => []
  | [_] => []
  | byte :: next :: rest =>
    if byte = carriageReturn ∧ next = lineFeed then [] :: received rest
    else (received (next :: rest)).modifyHead (byte :: ·)

theorem received_cons {byte : UInt8} {rest : List UInt8}
    (h : ¬ (byte = carriageReturn ∧ rest.head? = some lineFeed)) :
    received (byte :: rest) = (received rest).modifyHead (byte :: ·) := by
  cases rest with
  | nil => rfl
  | cons next rest =>
    rw [List.head?_cons, Option.some_inj] at h
    rw [received, if_neg h]

theorem received_ending (rest : List UInt8) : received (carriageReturn :: lineFeed :: rest) = [] :: received rest := by
  rw [received, if_pos ⟨rfl, rfl⟩]

/-- A line without line feed is found as it is. -/
theorem received_line {xs : List UInt8} (h : lineFeed ∉ xs) (rest : List UInt8) :
    received (xs ++ carriageReturn :: lineFeed :: rest) = xs :: received rest := by
  induction xs with
  | nil => exact received_ending rest
  | cons byte xs ih =>
    rw [List.mem_cons, not_or] at h
    obtain ⟨hbyte, hxs⟩ := h
    have hinside : ¬ (byte = carriageReturn ∧ (xs ++ carriageReturn :: lineFeed :: rest).head? = some lineFeed) := by
      rintro ⟨-, hhead⟩
      cases xs with
      | nil => cases hhead
      | cons x xs => exact hxs (Option.some.inj hhead ▸ List.mem_cons_self)
    rw [List.cons_append, received_cons hinside, ih hxs]
    rfl

/-- An ending adds a line to those before and behind it. -/
theorem length_received (xs ys : List UInt8) : (received (xs ++ carriageReturn :: lineFeed :: ys)).length =
    (received xs).length + 1 + (received ys).length := by
  fun_induction received xs with
  | case1 => rw [List.nil_append, received_ending, List.length_cons, List.length_nil]; omega
  | case2 byte =>
    have hinside : ¬ (byte = carriageReturn ∧ (carriageReturn :: lineFeed :: ys).head? = some lineFeed) := by
      rintro ⟨-, hhead⟩
      cases hhead
    rw [List.singleton_append, received_cons hinside, List.length_modifyHead, received_ending, List.length_cons,
      List.length_nil]
    omega
  | case3 byte next rest hend ih =>
    obtain ⟨rfl, rfl⟩ := hend
    rw [List.cons_append, List.cons_append, received_ending, List.length_cons, ih, List.length_cons]
    omega
  | case4 byte next rest hinside ih =>
    rw [List.cons_append, received_cons (by simpa using hinside), List.length_modifyHead, ih, List.length_modifyHead]

/-- Before its first carriage return there is no line. -/
theorem length_received_behind {xs : List UInt8} (h : carriageReturn ∉ xs) (ys : List UInt8) :
    (received (xs ++ ys)).length = (received ys).length := by
  induction xs with
  | nil => rfl
  | cons byte xs ih =>
    rw [List.mem_cons, not_or] at h
    obtain ⟨hbyte, hxs⟩ := h
    rw [List.cons_append, received_cons fun hend => hbyte hend.1.symm, List.length_modifyHead, ih hxs]

theorem received_inside {xs : List UInt8} (h : lineFeed ∉ xs) : received xs = [] := by
  have hended := length_received xs []
  rw [received_line h, received, List.length_singleton, List.length_nil] at hended
  exact List.eq_nil_of_length_eq_zero (by omega)

section Commands

variable {config : Config} {c : Command} {cs : List Command}

/-- Only the name in a hello has lines of its own. -/
theorem Command.Issued.lines_inside (h : c.Issued config) : (received (encode c.line)).length =
    if c.isHello then (received (encode config.ehloHostname)).length else 0 := by
  by_cases hhello : c.isHello = true
  · rw [if_pos hhello]
    cases c with
    | ehlo hostname | helo hostname =>
      obtain rfl : hostname = config.ehloHostname := h
      rw [line, encode_append, length_received_behind (by decide)]
    | startTls | auth | response | rset | noop | quit => cases hhello
  · have hone : OneLine c.line := h.oneLine_iff.2 fun he => absurd he hhello
    rw [if_neg hhello, received_inside (lineFeed_notMem_encode hone.2), List.length_nil]

/-- A server finds a line for each command, and one more for each ending in the name
in each hello. -/
theorem received_issued (h : ∀ c ∈ cs, c.Issued config) : (received (cs.flatMap Command.bytes)).length =
    cs.length + cs.countP Command.isHello * (received (encode config.ehloHostname)).length := by
  induction cs with
  | nil => simp [received]
  | cons c cs ih =>
    obtain ⟨hc, hcs⟩ := List.forall_mem_cons.1 h
    have hbytes : (c :: cs).flatMap Command.bytes =
        encode c.line ++ carriageReturn :: lineFeed :: cs.flatMap Command.bytes := by
      rw [List.flatMap_cons, c.bytes_eq, List.append_assoc]
      rfl
    rw [hbytes, length_received, hc.lines_inside, ih hcs, List.countP_cons, List.length_cons]
    by_cases hhello : c.isHello = true
    · rw [if_pos hhello, if_pos hhello, Nat.succ_mul]
      omega
    · simp only [if_neg hhello, Nat.add_zero]
      omega

/-- Commands of one line are found as they are. -/
theorem received_oneLine (h : ∀ c ∈ cs, OneLine c.line) :
    received (cs.flatMap Command.bytes) = cs.map fun c => encode c.line := by
  induction cs with
  | nil => rfl
  | cons c cs ih =>
    obtain ⟨hc, hcs⟩ := List.forall_mem_cons.1 h
    rw [List.flatMap_cons, c.bytes_eq, List.append_assoc, List.cons_append, List.singleton_append,
      received_line (lineFeed_notMem_encode hc.2), ih hcs, List.map_cons]

end Commands

/-! ## Connections -/

/-- What becomes of a connection that no one sends commands on. -/
inductive Upkeep where
  | probe (now : Nat)
  /-- Goes on waiting for a reply. -/
  | await (now : Nat) (reader : ReplyReader)
  | close (now : Nat)

namespace Connection

def keep (c : Connection) : Upkeep → Connection
  | .probe now => (c.probe now).2
  | .await now reader => (c.poll now reader).2
  | .close now => c.close now

theorem judge_written (c : Connection) (result : Except Error Reply) : (c.judge result).2.written = c.written := by
  unfold judge
  split
  · rfl
  split
  · rfl
  · exact setBroken_written c

theorem probe_written (c : Connection) (now : Nat) : (c.probe now).2.written = (c.command now .rset).2.written := by
  unfold probe
  split
  · next hc => rw [hc]
  · next hc =>
    rw [hc]
    exact judge_written _ _

/-- Upkeep says what needs no name. -/
theorem keep_written (config : Config) (c : Connection) (use : Upkeep) :
    ∃ lines, (c.keep use).written = c.written.adding lines ∧ ∀ line ∈ lines, line.Issued config := by
  by_cases hb : c.isBroken = true
  · have hdead := dead hb
    refine ⟨[], ?_, nofun⟩
    rw [Outbound.adding_nil]
    cases use with
    | probe now => rw [keep, hdead.probe]
    | await now reader => exact poll_written c now reader
    | close now => exact hdead.close now
  · rw [Bool.not_eq_true] at hb
    cases use with
    | probe now =>
      refine ⟨[.rset], (probe_written c now).trans (command_written hb now .rset), ?_⟩
      exact List.forall_mem_singleton.2 trivial
    | await now reader => exact ⟨[], by rw [Outbound.adding_nil]; exact poll_written c now reader, nofun⟩
    | close now => exact ⟨[.quit], (usable hb now).close, List.forall_mem_singleton.2 trivial⟩

theorem keeps_written (config : Config) (c : Connection) (uses : List Upkeep) :
    ∃ lines, (uses.foldl keep c).written = c.written.adding lines ∧ ∀ line ∈ lines, line.Issued config := by
  induction uses generalizing c with
  | nil => exact ⟨[], (Outbound.adding_nil _).symm, nofun⟩
  | cons use uses ih =>
    obtain ⟨lines, hlines, hissued⟩ := c.keep_written config use
    obtain ⟨later, hlater, hissued'⟩ := ih (c.keep use)
    refine ⟨lines ++ later, ?_, fun line hmem => ?_⟩
    · rw [List.foldl_cons, hlater, hlines, Outbound.adding_adding]
    · exact (List.mem_append.1 hmem).elim (hissued line) (hissued' line)

end Connection

/-! ## Records -/

/-- What is on record, as lines: each command is one line, unless it is a hello with
a name that is not; and a server finds as many lines as were sent, and one more for
each ending in the name in each hello. -/
structure Framed (config : Config) (o : Outbound) : Prop where
  written : ∀ c ∈ o.attempted, c.bytes = encode c.line ++ [carriageReturn, lineFeed] ∧
    (OneLine c.line ↔ (c.isHello = true → OneLine config.ehloHostname))
  count : (received (o.sent.flatMap Command.bytes)).length =
    o.sent.length + o.sent.countP Command.isHello * (received (encode config.ehloHostname)).length
  found : OneLine config.ehloHostname →
    received (o.sent.flatMap Command.bytes) = o.sent.map fun c => encode c.line

theorem Outbound.mem_attempted {o : Outbound} {c : Command} (h : c ∈ o.sent) : c ∈ o.attempted := by
  unfold sent at h
  split at h
  · exact List.mem_of_mem_take h
  · exact h

theorem framed_of_issued {config : Config} {o : Outbound} (h : ∀ c ∈ o.attempted, c.Issued config) :
    Framed config o where
  written c hc := ⟨c.bytes_eq, (h c hc).oneLine_iff⟩
  count := received_issued fun c hc => h c (o.mem_attempted hc)
  found hone := received_oneLine fun c hc => (h c (o.mem_attempted hc)).oneLine_iff.2 fun _ => hone

namespace Attempt

/-- **Commands are lines**, as far as the client's own name is one. All that an
attempt writes to a server, whatever that says, is a text and one ending; and so is
what is written on the connection that it opens, as long as no one sends commands on
it. Credentials go through base64, so no such text has an ending of its own but a
hello, which has those of the name. So where the name is one line, a server finds
the commands that were sent and no others, and where it is not, more. -/
theorem follow_framed (config : Config) {peer : Peer} (hfresh : peer.Fresh) (begun : Nat) (polls : List Nat) :
    let run := follow config peer begun polls
    Framed config run.2.written ∧ ∀ session transport id uses, run.2 = .opened session transport →
      Framed config (List.foldl Connection.keep (Connection.ofEstablished id session transport) uses).written := by
  intro run
  have hstage := follow_stage config peer begun polls
  have hissued : ∀ c ∈ run.2.written.attempted, c.Issued config := by
    rw [hstage.written hfresh]
    exact hstage.along.issued
  refine ⟨framed_of_issued hissued, fun session transport id uses hopened => framed_of_issued fun c hc => ?_⟩
  obtain ⟨lines, hlines, hkept⟩ := (Connection.ofEstablished id session transport).keeps_written config uses
  rw [hlines, Outbound.adding] at hc
  rw [hopened] at hissued
  exact (List.mem_append.1 hc).elim (hissued c) (hkept c)

/-! A client whose name is two lines, and a server that takes any name. -/

def twofold : Config :=
  { host := "mx", security := .none, login := .disabled, ehloHostname := "a\r\nNOOP" }

def trusting : Peer where
  connect := .ok { arrivals := [.data "220 mx\r\n250-mx\r\n250 AUTH PLAIN\r\n".toUTF8.toList] }
  upgrade := fun _ => .error (.notSupported "STARTTLS")

/-- It says two things, of which the server hears three. -/
theorem follow_framed_twofold :
    trusting.Fresh ∧ ∃ session transport, (follow twofold trusting 0 [0]).2 = .opened session transport ∧
      let o := (List.foldl Connection.keep (Connection.ofEstablished 1 session transport) [.probe 0]).written
      o.sent = [.ehlo "a\r\nNOOP", .rset] ∧ (received (o.sent.flatMap Command.bytes)).length = 3 := by
  have hfresh : trusting.Fresh := by
    intro stream h
    cases h
    rfl
  refine ⟨hfresh, ?_⟩
  have hkept : (match (follow twofold trusting 0 [0]).2 with
      | .opened session transport =>
        (List.foldl Connection.keep (Connection.ofEstablished 1 session transport) [.probe 0]).written.sent
      | _ => []) = [.ehlo "a\r\nNOOP", .rset] := by decide +kernel
  have hframed := (follow_framed twofold hfresh 0 [0]).2
  generalize (follow twofold trusting 0 [0]).2 = progress at hkept hframed ⊢
  cases progress with
  | pending | failed => cases hkept
  | opened session transport =>
    refine ⟨session, transport, rfl, hkept, ?_⟩
    have hsent : (List.foldl Connection.keep (Connection.ofEstablished 1 session transport) [.probe 0]).written.sent =
        [.ehlo "a\r\nNOOP", .rset] := hkept
    rw [(hframed session transport 1 [.probe 0] rfl).count, hsent]
    decide +kernel

end Attempt

end SmtpClient
