/-
The language of the handshake. Whatever is heard, said or asked of the
connector is permitted by what came before it, and the lines are the beginning
of one of few scripts (`Attempt.follow_spoken`). So with STARTTLS no line of a
login is written before TLS is there.
-/
import SmtpClient.Proofs.Course

namespace SmtpClient

namespace Handshake

variable {config : Config} {es : List Event} {event : Event} {ch : Channel} {phase : Phase ch}

/-! ## What is permitted -/

/-- The channel is secured if STARTTLS is asked for. -/
def Guarded (config : Config) (before : List Event) : Prop :=
  config.security = .startTls → ∃ arrivals, .upgrade (.ok arrivals) ∈ before

/-- The lines that may be said after these events. -/
def Warrants (config : Config) (before : List Event) : Command → Prop
  | .ehlo hostname => hostname = config.ehloHostname ∧
      ((∃ greeting, before = [.heard greeting] ∧ greeting.code = .serviceReady) ∨
        ∃ earlier arrivals, before = earlier ++ [.upgrade (.ok arrivals)])
  | .helo hostname => hostname = config.ehloHostname ∧ ∃ earlier reply,
      before = earlier ++ [.said (.ehlo hostname), .heard reply] ∧ reply.isSuccess = false
  | .startTls => config.security = .startTls ∧ ∃ greeting reply,
      before = [.heard greeting, .said (.ehlo config.ehloHostname), .heard reply] ∧ reply.isSuccess = true ∧
        ∃ line ∈ reply.message.drop 1, Extension.parse line = .startTls
  | .auth m _ => Guarded config before ∧ ∃ earlier reply,
      before = earlier ++ [.said (.ehlo config.ehloHostname), .heard reply] ∧ reply.isSuccess = true ∧
        Sasl.preferred (Sasl.selectable (advertised reply) config.authMethods) = some m
  | .response _ => Guarded config before ∧ ∃ earlier command reply,
      before = earlier ++ [.said command, .heard reply] ∧ command.isLogin = true ∧ reply.kind = .proceed
  | .rset | .noop | .quit => False

/-- What may happen after these events. A line is said only when every line
before it, and the greeting, has had its reply. -/
def Permits (config : Config) (before : List Event) : Event → Prop
  | .heard _ => before = [] ∨ ∃ earlier command, before = earlier ++ [.said command]
  | .said command =>
    (Event.replies before).length = (Event.lines before).length + 1 ∧ Warrants config before command
  | .upgrade _ => ∃ earlier reply, before = earlier ++ [.said .startTls, .heard reply] ∧ reply.code = .serviceReady

/-- Everything that happened was permitted by what had happened before. -/
def Spoken (config : Config) (es : List Event) : Prop :=
  ∀ before event after, es = before ++ event :: after → Permits config before event

theorem Spoken.nil : Spoken config [] := by
  intro before event after h
  simp at h

theorem Spoken.concat (h : Spoken config es) (hp : Permits config es event) : Spoken config (es ++ [event]) := by
  intro before event' after he
  rcases after.eq_nil_or_concat with rfl | ⟨after, last, rfl⟩
  · obtain ⟨rfl, hevent⟩ := List.append_inj' he rfl
    cases hevent
    exact hp
  · rw [List.concat_eq_append, ← List.cons_append, ← List.append_assoc] at he
    exact h _ _ _ (List.append_inj' he rfl).1

/-- A reply, and a line that it warrants. -/
theorem Course.speaks {reply : Reply} {command : Command} (hc : Course config ch phase es) (h : Spoken config es)
    (hw : Warrants config (es ++ [.heard reply]) command) :
    Spoken config (es ++ [.heard reply, .said command]) := by
  have hheard : Permits config es (.heard reply) := hc.ends
  rw [List.append_cons]
  exact (h.concat hheard).concat ⟨by simp [hc.counts], hw⟩

/-- The permission for TLS, and the connector's answer. -/
theorem Course.asks {hostname : String} {reply : Reply} (hc : Course config .clear (.startTls hostname) es)
    (h : Spoken config es) (hcode : reply.code = .serviceReady) (answer : Except Error (List Arrival)) :
    Spoken config (es ++ [.heard reply, .upgrade answer]) := by
  have hheard : Permits config es (.heard reply) := hc.ends
  have hasked : Permits config (es ++ [.heard reply]) (.upgrade answer) := by
    obtain ⟨greeting, offer, rfl, -⟩ := hc.startTls
    exact ⟨[.heard greeting, .said (.ehlo config.ehloHostname), .heard offer], reply, rfl, hcode⟩
  rw [List.append_cons]
  exact (h.concat hheard).concat hasked

theorem Course.guarded (h : Course config ch phase es) (hclear : ch = .clear → config.security ≠ .startTls)
    (reply : Reply) : Guarded config (es ++ [.heard reply]) := by
  intro hs
  cases ch with
  | clear => exact absurd hs (hclear rfl)
  | secured =>
    obtain ⟨-, arrivals, hmem⟩ := h.upgraded rfl
    exact ⟨arrivals, List.mem_append_left _ hmem⟩

/-- A course is made of what is permitted. -/
theorem Course.spoken (h : Course config ch phase es) : Spoken config es := by
  induction h with
  | silent => exact .nil
  | greeted hcode => exact Course.silent.speaks .nil ⟨rfl, .inl ⟨_, rfl, hcode⟩⟩
  | refused hc hno ih =>
    obtain ⟨earlier, rfl⟩ := hc.ehlo
    exact hc.speaks ih ⟨rfl, earlier, _, by simp, hno⟩
  | offered hc hok hs ho ih =>
    obtain ⟨greeting, rfl, -, -⟩ := hc.ehlo_clear
    exact hc.speaks ih ⟨hs, greeting, _, rfl, hok, known_supportsStartTls.1 ho⟩
  | @secured hostname es reply arrivals hc hcode ih =>
    have hsaid : Permits config (es ++ [.heard reply, .upgrade (.ok arrivals)])
        (.said (.ehlo config.ehloHostname)) :=
      ⟨by simp [hc.counts], rfl, .inr ⟨es ++ [.heard reply], arrivals, List.append_cons ..⟩⟩
    have hspoken := (hc.asks ih hcode (.ok arrivals)).concat hsaid
    rw [List.append_assoc] at hspoken
    exact hspoken
  | login hc hok hclear hstart ih =>
    obtain ⟨m, initial, hm, rfl, -⟩ := AuthSession.start_send hstart
    refine hc.speaks ih ⟨hc.guarded hclear _, ?_⟩
    obtain ⟨earlier, rfl⟩ := hc.ehlo
    exact ⟨earlier, _, by simp, hok, hm⟩
  | answered hc hadv ih =>
    obtain ⟨hclear, m, earlier, command, rfl, hlogin, hex⟩ := hc.login_exchanging rfl
    obtain ⟨hk, ⟨text, rfl⟩, -⟩ := hex.send hadv
    exact hc.speaks ih ⟨hc.guarded hclear _, earlier, command, _, by simp, hlogin, hk⟩

/-! ## Scripts -/

/-- EHLO, and HELO where that is refused. -/
def hello (config : Config) (refused : Bool) : List Command :=
  .ehlo config.ehloHostname :: if refused then [.helo config.ehloHostname] else []

/-- No login or one: AUTH, and answers to challenges. -/
inductive LoginLines : List Command → Prop where
  | none : LoginLines []
  | one (m : Mechanism) (initial : Option String) (texts : List String) :
    LoginLines (.auth m initial :: texts.map .response)

/-- The lines of a whole handshake: a hello; with STARTTLS that line, and a
hello on the secured channel; and a login. -/
def script (config : Config) (refused refused' : Bool) (login : List Command) : List Command :=
  hello config refused ++ (if config.security = .startTls then .startTls :: hello config refused' else []) ++ login

/-- The lines before the hello on a channel. -/
def opening (config : Config) : Channel → List Command
  | .clear => []
  | .secured => hello config false ++ [.startTls]

/-- The lines said up to a phase. -/
def Said (config : Config) (lines : List Command) : {ch : Channel} → Phase ch → Prop
  | _, .greeting => lines = []
  | ch, .ehlo _ => lines = opening config ch ++ hello config false
  | ch, .helo _ => lines = opening config ch ++ hello config true
  | _, .startTls _ => lines = opening config .secured
  | ch, .login .. => ∃ m initial texts, lines = opening config ch ++ hello config false ++
      .auth m initial :: List.map .response texts

theorem Course.lines (h : Course config ch phase es) : Said config (Event.lines es) phase := by
  induction h with
  | silent => exact rfl
  | greeted => exact rfl
  | refused _ _ ih | offered _ _ _ _ ih | secured _ _ ih =>
    simp only [Said] at ih ⊢
    simp [ih, hello, opening]
  | login _ _ _ hstart ih =>
    obtain ⟨m, initial, -, rfl, -⟩ := AuthSession.start_send hstart
    simp only [Said] at ih ⊢
    exact ⟨m, initial, [], by simp [ih]⟩
  | answered hc hadv ih =>
    obtain ⟨-, _, _, _, -, -, hex⟩ := hc.login_exchanging rfl
    obtain ⟨-, ⟨text, rfl⟩, -⟩ := hex.send hadv
    obtain ⟨m, initial, texts, hlines⟩ := ih
    exact ⟨m, initial, texts ++ [text], by simp [hlines]⟩

/-- What was said is the beginning of a script. -/
theorem Course.script (h : Course config ch phase es) :
    ∃ refused refused' login, LoginLines login ∧ Event.lines es <+: script config refused refused' login := by
  have hsecured := h.upgraded
  have hlines := h.lines
  cases phase with
  | greeting => exact ⟨false, false, [], .none, by simp_all [Said]⟩
  | ehlo hostname =>
    refine ⟨false, false, [], .none, ?_⟩
    cases ch <;> simp_all [Said, Handshake.script, opening]
  | helo hostname =>
    -- On a secured channel it is the second hello that was refused.
    refine ⟨decide (ch = .clear), decide (ch = .secured), [], .none, ?_⟩
    cases ch <;> simp_all [Said, Handshake.script, opening]
  | startTls hostname =>
    obtain ⟨-, -, -, -, -, hs, -⟩ := h.startTls
    exact ⟨false, false, [], .none, by simp_all [Said, Handshake.script, opening]⟩
  | login info s =>
    obtain ⟨m, initial, texts, hlines⟩ := hlines
    obtain ⟨hclear, -⟩ := h.login_exchanging rfl
    refine ⟨false, false, _, .one m initial texts, ?_⟩
    cases ch <;> simp_all [Handshake.script, opening]

end Handshake

/-! ## Attempts -/

namespace Attempt

open Handshake

variable {config : Config} {es : List Event}

theorem Along.spoken (h : Along config es) : Spoken config es := by
  cases h with
  | unheard => exact .nil
  | asked hc => exact hc.spoken
  | @heard _ _ es reply hc =>
    have hheard : Permits config es (.heard reply) := hc.ends
    exact hc.spoken.concat hheard
  | upgraded hc hcode => exact hc.asks hc.spoken hcode _

theorem Along.script (h : Along config es) :
    ∃ refused refused' login, LoginLines login ∧ Event.lines es <+: script config refused refused' login := by
  cases h with
  | unheard => exact Course.silent.script
  | asked hc => exact hc.script
  | heard hc | upgraded hc => simpa using hc.script

/-- **The handshake speaks a fixed language.** The lines that an attempt
writes are the beginning of a script, and each thing that happens is permitted
by what happened before. -/
theorem follow_spoken (config : Config) (peer : Peer) (begun : Nat) (polls : List Nat) :
    let run := follow config peer begun polls
    (peer.Fresh → run.2.written.attempted = Event.lines run.1) ∧
    (∃ refused refused' login, LoginLines login ∧ Event.lines run.1 <+: script config refused refused' login) ∧
    ∀ before event after, run.1 = before ++ event :: after → Permits config before event := by
  have hstage := follow_stage config peer begun polls
  exact ⟨hstage.written, hstage.along.script, hstage.along.spoken⟩

/-! A server that offers logins on the secured channel only, and has sent more
in clear than it was asked for. -/

def wary : Peer where
  connect := .ok { arrivals := [
    .data "220 mx ready\r\n250-mx\r\n250 STARTTLS\r\n220 go\r\n250 stale\r\n".toUTF8.toList] }
  upgrade := fun _ => .ok [
    .data "250-mx\r\n250 AUTH LOGIN\r\n334 VXNlcg==\r\n334 UGFzcw==\r\n235 ok\r\n".toUTF8.toList]

def traveller : Config := { host := "mx", username := some "u", password := some "p" }

theorem follow_spoken_secured :
    let run := follow traveller wary 0 [0]
    wary.Fresh ∧ run.2.written.attempted =
      [.ehlo "localhost", .startTls, .ehlo "localhost", .auth .login none, .response "dQ==", .response "cA=="] := by
  have hfresh : wary.Fresh := by
    intro stream h
    cases h
    rfl
  refine ⟨hfresh, ?_⟩
  rw [(follow_spoken traveller wary 0 [0]).1 hfresh]
  decide +kernel

end Attempt

end SmtpClient
