/-
The course of a handshake: which events lead to each reply that it waits for.
Every move of the dialogue goes on with the course (`Handshake.course_bears`).
An attempt that is polled at any times consists of one handshake in clear and,
at most, one on a secured channel (`Attempt.follow_stage`), so its events are
always somewhere on the course (`Attempt.Stage.along`).
-/
import SmtpClient.Proofs.Login
import SmtpClient.Proofs.Sessions

namespace SmtpClient

/-- The lines of a login. -/
def Command.isLogin : Command → Bool
  | auth .. | response _ => true
  | _ => false

/-! ## Handshakes -/

namespace Handshake

variable {config : Config}

/-- What a server says of itself in the reply to EHLO. -/
def known (hostname : String) (reply : Reply) : ServerInfo :=
  { hostname, extensions := ServerInfo.extensionsOf (reply.message.drop 1) }

/-- The names of login mechanisms in the reply to EHLO. The server's own name
does not matter to them. -/
def advertised (reply : Reply) : List String :=
  (known "" reply).authMechanisms

theorem known_supportsStartTls {hostname : String} {reply : Reply} :
    (known hostname reply).supportsStartTls = true ↔
      ∃ line ∈ reply.message.drop 1, Extension.parse line = .startTls := by
  simp only [known, ServerInfo.supportsStartTls, ServerInfo.supports, ServerInfo.extensionsOf, decide_eq_true_eq,
    List.mem_eraseDups, List.mem_map]

/-- The events up to the line whose reply a phase waits for. -/
inductive Course (config : Config) : (ch : Channel) → Phase ch → List Event → Prop where
  | silent : Course config .clear .greeting []
  | greeted {greeting : Reply} : greeting.code = .serviceReady →
    Course config .clear (.ehlo (greetingName greeting)) [.heard greeting, .said (.ehlo config.ehloHostname)]
  | refused {ch : Channel} {hostname : String} {es : List Event} {reply : Reply} :
    Course config ch (.ehlo hostname) es → reply.isSuccess = false →
    Course config ch (.helo hostname) (es ++ [.heard reply, .said (.helo config.ehloHostname)])
  | offered {hostname : String} {es : List Event} {reply : Reply} :
    Course config .clear (.ehlo hostname) es → reply.isSuccess = true → config.security = .startTls →
    (known hostname reply).supportsStartTls = true →
    Course config .clear (.startTls hostname) (es ++ [.heard reply, .said .startTls])
  | secured {hostname : String} {es : List Event} {reply : Reply} {arrivals : List Arrival} :
    Course config .clear (.startTls hostname) es → reply.code = .serviceReady →
    Course config .secured (.ehlo hostname)
      (es ++ [.heard reply, .upgrade (.ok arrivals), .said (.ehlo config.ehloHostname)])
  | login {ch : Channel} {hostname : String} {es : List Event} {reply : Reply} {command : Command}
    {s : AuthSession} :
    Course config ch (.ehlo hostname) es → reply.isSuccess = true → (ch = .clear → config.security ≠ .startTls) →
    (AuthSession.new config (known hostname reply).authMechanisms).start = (.ok (.send command), s) →
    Course config ch (.login (known hostname reply) s) (es ++ [.heard reply, .said command])
  | answered {ch : Channel} {info : ServerInfo} {es : List Event} {reply : Reply} {command : Command}
    {s s' : AuthSession} : Course config ch (.login info s) es → s.advance reply = (.ok (.send command), s') →
    Course config ch (.login info s') (es ++ [.heard reply, .said command])

/-- A server that offers no mechanism gets no login line. -/
theorem beginLogin_bare {ch : Channel} {hostname : String} {command : Command} {phase : Phase ch} :
    beginLogin config ch { hostname } ≠ .ok (.send command phase) := by
  intro h
  obtain ⟨s, hs, -⟩ := loginMove_send h
  obtain ⟨m, initial, hm, -, -⟩ := AuthSession.start_send hs
  cases Sasl.mem_of_preferred hm

theorem course_bears (config : Config) (ch : Channel) :
    Dialogue.Bears (advance config : Dialogue (Phase ch) (Outcome ch)) (Course config ch) := by
  intro phase es reply command phase' hc hm
  cases phase with
  | greeting =>
    cases hc
    obtain ⟨hcode, he⟩ := expectReady_bind hm
    cases he
    exact .greeted hcode
  | ehlo hostname =>
    simp only [advance] at hm
    split at hm
    · next hok =>
      cases ch with
      | clear =>
        rcases afterHello_clear hm with ⟨hs, ho, he⟩ | ⟨hs, hlogin⟩
        · cases he
          exact .offered hc hok hs ho
        · obtain ⟨s, hstart, rfl⟩ := loginMove_send hlogin
          exact .login hc hok (fun _ => hs) hstart
      | secured =>
        obtain ⟨s, hstart, rfl⟩ := loginMove_send hm
        exact .login hc hok (fun he => by cases he) hstart
    · next hno =>
      cases hm
      exact .refused hc (by simpa using hno)
  | helo hostname =>
    simp only [advance] at hm
    split at hm
    · cases ch with
      | clear =>
        rcases afterHello_clear hm with ⟨-, ho, -⟩ | ⟨-, hlogin⟩
        · simp [ServerInfo.supportsStartTls, ServerInfo.supports] at ho
        · exact absurd hlogin beginLogin_bare
      | secured => exact absurd hm beginLogin_bare
    · cases hm
  | startTls hostname => cases (expectReady_bind hm).2
  | login info s =>
    obtain ⟨s', hadv, rfl⟩ := loginMove_send hm
    exact .answered hc hadv

/-! ### Phases -/

section Phases

variable {ch : Channel} {phase : Phase ch} {hostname : String} {es : List Event}

/-- A phase is reached by a line, but for the greeting. -/
theorem Course.ends (h : Course config ch phase es) :
    es = [] ∨ ∃ earlier command, es = earlier ++ [.said command] := by
  cases h with
  | silent => exact .inl rfl
  | greeted => exact .inr ⟨[_], _, rfl⟩
  | refused | offered | login | answered => exact .inr ⟨_, _, List.append_cons ..⟩
  | @secured _ es reply arrivals =>
    exact .inr ⟨es ++ [.heard reply, .upgrade (.ok arrivals)], .ehlo config.ehloHostname, by simp⟩

theorem Course.counts (h : Course config ch phase es) : (Event.replies es).length = (Event.lines es).length := by
  induction h with
  | silent => rfl
  | greeted => rfl
  | refused _ _ ih | offered _ _ _ _ ih | secured _ _ ih | login _ _ _ _ ih | answered _ _ ih => simp [ih]

theorem Course.ehlo_clear (h : Course config .clear (.ehlo hostname) es) :
    ∃ greeting, es = [.heard greeting, .said (.ehlo config.ehloHostname)] ∧ greeting.code = .serviceReady ∧
      hostname = greetingName greeting := by
  cases h with
  | greeted hcode => exact ⟨_, rfl, hcode, rfl⟩

theorem Course.ehlo (h : Course config ch (.ehlo hostname) es) :
    ∃ earlier, es = earlier ++ [.said (.ehlo config.ehloHostname)] := by
  cases h with
  | greeted => exact ⟨[_], rfl⟩
  | @secured _ es reply arrivals => exact ⟨es ++ [.heard reply, .upgrade (.ok arrivals)], by simp⟩

/-- STARTTLS is the second line, said to a server that offers it. -/
theorem Course.startTls (h : Course config .clear (.startTls hostname) es) :
    ∃ greeting reply, es = [.heard greeting, .said (.ehlo config.ehloHostname), .heard reply, .said .startTls] ∧
      hostname = greetingName greeting ∧ reply.isSuccess = true ∧ config.security = .startTls ∧
      ∃ line ∈ reply.message.drop 1, Extension.parse line = .startTls := by
  cases h with
  | @offered _ _ reply hc hok hs ho =>
    obtain ⟨greeting, rfl, -, rfl⟩ := hc.ehlo_clear
    exact ⟨greeting, reply, rfl, rfl, hok, hs, known_supportsStartTls.1 ho⟩

/-- A secured channel comes from an upgrade. -/
theorem Course.upgraded (h : Course config ch phase es) (hch : ch = .secured) :
    config.security = .startTls ∧ ∃ arrivals, .upgrade (.ok arrivals) ∈ es := by
  -- Only an upgrade changes the channel; all later lines are said behind it.
  induction h with
  | silent | greeted | offered => cases hch
  | @secured _ es reply arrivals hc =>
    obtain ⟨-, -, -, -, -, hs, -⟩ := hc.startTls
    exact ⟨hs, arrivals, by simp⟩
  | refused _ _ ih | login _ _ _ _ ih | answered _ _ ih =>
    obtain ⟨hs, arrivals, hmem⟩ := ih hch
    exact ⟨hs, arrivals, List.mem_append_left _ hmem⟩

/-- The login that a phase belongs to. -/
def Phase.session? {ch : Channel} : Phase ch → Option AuthSession
  | .login _ s => some s
  | _ => none

/-- A login waits for the reply to one of its lines; in clear there is one only
where STARTTLS is not asked for. -/
theorem Course.login_exchanging {s : AuthSession} (h : Course config ch phase es) (hs : phase.session? = some s) :
    (ch = .clear → config.security ≠ .startTls) ∧
      ∃ m earlier command, es = earlier ++ [.said command] ∧ command.isLogin = true ∧
        AuthSession.Exchanging m s := by
  induction h generalizing s with
  | silent | greeted | refused | offered | secured => cases hs
  | login _ _ hclear hstart =>
    cases hs
    obtain ⟨m, initial, -, rfl, hex⟩ := AuthSession.start_send hstart
    exact ⟨hclear, m, _, _, List.append_cons .., rfl, hex⟩
  | answered _ hadv ih =>
    cases hs
    obtain ⟨hclear, m, -, -, -, -, hex⟩ := ih rfl
    obtain ⟨-, ⟨text, rfl⟩, hnext⟩ := hex.send hadv
    exact ⟨hclear, m, _, _, List.append_cons .., rfl, hnext⟩

end Phases

/-- The dialogue in clear is over with STARTTLS only if the server is ready. -/
theorem finish_upgrade {phase : Phase .clear} {reply : Reply} {hostname : String}
    (h : advance config phase reply = .ok (.finish (.upgrade hostname))) :
    phase = .startTls hostname ∧ reply.code = .serviceReady := by
  have hhello : ∀ info, afterHello config .clear info ≠ .ok (.finish (.upgrade hostname)) := by
    intro info h
    rcases afterHello_clear h with ⟨-, -, he⟩ | ⟨-, hlogin⟩
    · cases he
    · obtain ⟨_, _, -, he⟩ := loginMove_finish hlogin
      cases he
  cases phase with
  | greeting => cases (expectReady_bind h).2
  | ehlo hostname =>
    simp only [advance] at h
    split at h
    · exact absurd h (hhello _)
    · cases h
  | helo hostname =>
    simp only [advance] at h
    split at h
    · exact absurd h (hhello _)
    · cases h
  | startTls hostname =>
    obtain ⟨hcode, he⟩ := expectReady_bind h
    cases he
    exact ⟨rfl, hcode⟩
  | login info s =>
    obtain ⟨_, _, -, he⟩ := loginMove_finish h
    cases he

end Handshake

/-! ## Attempts -/

/-- A peer whose stream has nothing on record yet. -/
def Peer.Fresh (peer : Peer) : Prop :=
  ∀ stream, peer.connect = .ok stream → stream.outbound.attempted = []

namespace Attempt

open Handshake

variable {config : Config} {now : Nat}

/-- The handshake on a secured channel where these arrive, from its EHLO on. -/
def overSecured (config : Config) (t : Transport) (arrivals : List Arrival) (hostname : String) (now : Nat)
    (later : List Nat) : List Event × Poll (Phase .secured × ReplyReader) (Outcome .secured) × Transport :=
  (advance config).follow (.ok (sayEhlo config .secured hostname)) (Transport.new { t.stream with arrivals })
    now later

/-- The handshake in clear on a stream, from the greeting on. -/
def overClear (config : Config) (stream : Stream) (now : Nat) (later : List Nat) :
    List Event × Poll (Phase .clear × ReplyReader) (Outcome .clear) × Transport :=
  (advance config).listen .greeting (Transport.new stream) now later

/-- What is heard and said after a poll in clear: if the server is ready for
TLS, the connector's answer, and the handshake on the channel that this gives. -/
def beyond (config : Config) (now : Nat) (peer : Peer) :
    Poll (Phase .clear × ReplyReader) (Outcome .clear) × Transport → List Event
  | (.ready (.ok (.upgrade hostname)), t) =>
    .upgrade (peer.upgrade t.stream.arrivals) ::
      match peer.upgrade t.stream.arrivals with
      | .error _ => []
      | .ok arrivals => (overSecured config t arrivals hostname now []).1
  | _ => []

/-- What is heard and said from a poll in clear on. -/
def overheardClear (config : Config) (now : Nat) (peer : Peer) (t : Transport) (state : Phase .clear × ReplyReader) :
    List Event :=
  (advance config).overheard now state t ++
    beyond config now peer (t.poll (Dialogue.conversation (advance config)) now state)

/-- What is heard and said when an attempt is polled. -/
def overheard (config : Config) (now : Nat) : Attempt → List Event
  | connecting ready peer =>
    if now < ready then []
    else
      match peer.connect with
      | .error _ => []
      | .ok stream => overheardClear config now peer (Transport.new stream) (.greeting, {})
  | clear peer t state => overheardClear config now peer t state
  | secured t state => (advance config).overheard now state t

/-- Polls an attempt once more, unless it is over. -/
def resume (config : Config) (now : Nat) : List Event × Progress → List Event × Progress
  | (es, .pending _ attempt) => (es ++ attempt.overheard config now, attempt.poll config now)
  | ended => ended

/-- An attempt from its beginning on, polled at each of these times: what was
heard and said, and how far it came. -/
def follow (config : Config) (peer : Peer) (begun : Nat) (polls : List Nat) : List Event × Progress :=
  polls.foldl (fun run now => resume config now run) ([], .pending (some (begun + peer.delay)) (start peer begun))

theorem follow_once (config : Config) (peer : Peer) (begun now : Nat) :
    (follow config peer begun [now]).2 = (start peer begun).poll config now := rfl

/-- The stages of an attempt, and the handshakes that it consists of. -/
inductive Stage (config : Config) (peer : Peer) : List Event × Progress → Prop where
  | connecting {ready : Nat} : Stage config peer ([], .pending (some ready) (.connecting ready peer))
  | unconnected {e : Error} : peer.connect = .error e → Stage config peer ([], .failed e {})
  | clear {stream : Stream} {now : Nat} {later : List Nat} {es : List Event}
    {p : Poll (Phase .clear × ReplyReader) (Outcome .clear)} {t : Transport} :
    peer.connect = .ok stream → overClear config stream now later = (es, p, t) →
    (∀ hostname, p ≠ .ready (.ok (.upgrade hostname))) → Stage config peer (es, onClear config now peer (p, t))
  | unsecured {stream : Stream} {now : Nat} {later : List Nat} {es : List Event} {hostname : String} {t : Transport}
    {e : Error} :
    peer.connect = .ok stream → overClear config stream now later = (es, .ready (.ok (.upgrade hostname)), t) →
    peer.upgrade t.stream.arrivals = .error e →
    Stage config peer (es ++ [.upgrade (.error e)], .failed e t.stream.outbound)
  | secured {stream : Stream} {now now' : Nat} {later later' : List Nat} {es : List Event} {hostname : String}
    {t : Transport} {arrivals : List Arrival} :
    peer.connect = .ok stream → overClear config stream now later = (es, .ready (.ok (.upgrade hostname)), t) →
    peer.upgrade t.stream.arrivals = .ok arrivals →
    Stage config peer (es ++ .upgrade (.ok arrivals) :: (overSecured config t arrivals hostname now' later').1,
      onSecured (overSecured config t arrivals hostname now' later').2)

/-- A poll in clear leads to the next stage. -/
theorem Stage.of_clear {peer : Peer} {stream : Stream} {now' : Nat} {later : List Nat} {es : List Event}
    {p : Poll (Phase .clear × ReplyReader) (Outcome .clear)} {t : Transport} (hc : peer.connect = .ok stream)
    (hrun : overClear config stream now' later = (es, p, t)) :
    Stage config peer (es ++ beyond config now peer (p, t), onClear config now peer (p, t)) := by
  by_cases hup : ∃ hostname, p = .ready (.ok (.upgrade hostname))
  · obtain ⟨hostname, rfl⟩ := hup
    simp only [beyond, onClear, secure]
    cases hu : peer.upgrade t.stream.arrivals with
    | error e => exact .unsecured hc hrun hu
    | ok arrivals => exact .secured hc hrun hu
  · have hstays := Stage.clear hc hrun (not_exists.1 hup)
    have hnone : beyond config now peer (p, t) = [] ∧
        onClear config now peer (p, t) = onClear config now' peer (p, t) := by
      rcases p with (e | session | hostname) | ⟨wake, state⟩
      · exact ⟨rfl, rfl⟩
      · exact ⟨rfl, rfl⟩
      · exact absurd ⟨hostname, rfl⟩ hup
      · exact ⟨rfl, rfl⟩
    rw [hnone.1, hnone.2, List.append_nil]
    exact hstays

theorem Stage.resume {peer : Peer} {run : List Event × Progress} (h : Stage config peer run) (now : Nat) :
    Stage config peer (resume config now run) := by
  cases h with
  | @connecting ready =>
    simp only [Attempt.resume, overheard, poll, List.nil_append]
    by_cases hready : now < ready
    · rw [if_pos hready, if_pos hready]
      exact .connecting
    rw [if_neg hready, if_neg hready]
    cases hc : peer.connect with
    | error e => exact .unconnected hc
    | ok stream => exact .of_clear hc (rfl : overClear config stream now [] = _)
  | unconnected hc => exact .unconnected hc
  | @clear stream now' later es p t hc hrun hup =>
    rcases p with (e | session | hostname) | ⟨wake, state⟩
    · exact .clear hc hrun hup
    · exact .clear hc hrun hup
    · exact absurd rfl (hup hostname)
    · -- The same handshake, polled once more.
      have hnext : overClear config stream now' (later ++ [now]) =
          (advance config).resume now (overClear config stream now' later) := Dialogue.goOn_concat ..
      rw [hrun] at hnext
      simp only [Attempt.resume, onClear, overheard, poll, overheardClear, ← List.append_assoc]
      exact .of_clear hc hnext
  | unsecured hc hrun hu => exact .unsecured hc hrun hu
  | @secured stream now₁ now₂ later later' es hostname t arrivals hc hrun hu =>
    have hsame := @Stage.secured _ _ _ _ now₂ _ later' _ _ _ _ hc hrun hu
    have hnext := @Stage.secured _ _ _ _ now₂ _ (later' ++ [now]) _ _ _ _ hc hrun hu
    have hstep : overSecured config t arrivals hostname now₂ (later' ++ [now]) =
        (advance config).resume now (overSecured config t arrivals hostname now₂ later') := Dialogue.goOn_concat ..
    rw [hstep] at hnext
    generalize overSecured config t arrivals hostname now₂ later' = run at hsame hnext ⊢
    obtain ⟨new, (e | ⟨⟨session⟩⟩) | ⟨wake, state⟩, t'⟩ := run
    · exact hsame
    · exact hsame
    · simp only [Attempt.resume, onSecured, overheard, poll, List.append_assoc, List.cons_append]
      exact hnext

/-- **An attempt goes through its stages**, whenever it is polled. -/
theorem follow_stage (config : Config) (peer : Peer) (begun : Nat) (polls : List Nat) :
    Stage config peer (follow config peer begun polls) := by
  unfold follow
  have hstart : Stage config peer ([], .pending (some (begun + peer.delay)) (start peer begun)) := .connecting
  generalize (([], .pending (some (begun + peer.delay)) (start peer begun)) : List Event × Progress) = run at hstart
  induction polls generalizing run with
  | nil => exact hstart
  | cons now polls ih => exact ih _ (hstart.resume now)

/-! ## Events and records -/

/-- Events that a handshake may have come to. -/
inductive Along (config : Config) : List Event → Prop where
  | unheard : Along config []
  | asked {ch : Channel} {phase : Phase ch} {es : List Event} : Course config ch phase es → Along config es
  | heard {ch : Channel} {phase : Phase ch} {es : List Event} {reply : Reply} :
    Course config ch phase es → Along config (es ++ [.heard reply])
  | upgraded {hostname : String} {es : List Event} {reply : Reply} {answer : Except Error (List Arrival)} :
    Course config .clear (.startTls hostname) es → reply.code = .serviceReady →
    Along config (es ++ [.heard reply, .upgrade answer])

theorem came_along {ch : Channel} {es : List Event} {p : Poll (Phase ch × ReplyReader) (Outcome ch)}
    (h : Dialogue.Came (advance config) (Course config ch) es p) : Along config es := by
  cases h with
  | waits hc | broke hc => exact .asked hc
  | finished hc | refused hc => exact .heard hc

theorem overClear_came (config : Config) (stream : Stream) (now : Nat) (later : List Nat) :
    Dialogue.Came (advance config) (Course config .clear) (overClear config stream now later).1
      (overClear config stream now later).2.1 :=
  Dialogue.listen_came (course_bears config .clear) .silent

/-- The dialogue in clear is over with STARTTLS when the server has said that
it is ready. -/
theorem came_upgrade {es : List Event} {hostname : String}
    (h : Dialogue.Came (advance config) (Course config .clear) es (.ready (.ok (.upgrade hostname)))) :
    ∃ earlier reply, es = earlier ++ [.heard reply] ∧ Course config .clear (.startTls hostname) earlier ∧
      reply.code = .serviceReady := by
  cases h with
  | finished hc hm =>
    obtain ⟨rfl, hcode⟩ := finish_upgrade hm
    exact ⟨_, _, rfl, hc, hcode⟩

/-- Behind it goes on the EHLO on the secured channel. -/
theorem came_secured {es : List Event} {hostname : String}
    (h : Dialogue.Came (advance config) (Course config .clear) es (.ready (.ok (.upgrade hostname))))
    (arrivals : List Arrival) : Course config .secured (.ehlo hostname)
      ((es ++ [.upgrade (.ok arrivals)]) ++ [.said (.ehlo config.ehloHostname)]) := by
  obtain ⟨earlier, reply, rfl, hcourse, hcode⟩ := came_upgrade h
  simp only [List.append_assoc]
  exact .secured hcourse hcode

theorem overClear_upgrade {stream : Stream} {later : List Nat} {es : List Event} {hostname : String} {t : Transport}
    (h : overClear config stream now later = (es, .ready (.ok (.upgrade hostname)), t)) :
    Dialogue.Came (advance config) (Course config .clear) es (.ready (.ok (.upgrade hostname))) := by
  have hcame := overClear_came config stream now later
  rw [h] at hcame
  exact hcame

theorem Stage.along {peer : Peer} {run : List Event × Progress} (h : Stage config peer run) :
    Along config run.1 := by
  cases h with
  | connecting | unconnected => exact .unheard
  | @clear stream now later es p t hc hrun =>
    have hcame := overClear_came config stream now later
    rw [hrun] at hcame
    exact came_along hcame
  | unsecured hc hrun =>
    obtain ⟨earlier, reply, rfl, hcourse, hcode⟩ := came_upgrade (overClear_upgrade hrun)
    rw [List.append_assoc]
    exact .upgraded hcourse hcode
  | @secured stream now now' later later' es hostname t arrivals hc hrun =>
    rw [List.append_cons]
    exact came_along (Dialogue.follow_came (course_bears config .secured) _
      (came_secured (overClear_upgrade hrun) arrivals))

/-- What was written so far. -/
def Progress.written : Progress → Outbound
  | .pending _ attempt => attempt.written
  | .opened _ t => t.stream.outbound
  | .failed _ o => o

theorem onSecured_written (r : Poll (Phase .secured × ReplyReader) (Outcome .secured) × Transport) :
    (onSecured r).written = r.2.stream.outbound := by
  obtain ⟨(e | ⟨⟨session⟩⟩) | ⟨wake, state⟩, t⟩ := r <;> rfl

theorem onClear_written {peer : Peer} {p : Poll (Phase .clear × ReplyReader) (Outcome .clear)} {t : Transport}
    (hup : ∀ hostname, p ≠ .ready (.ok (.upgrade hostname))) :
    (onClear config now peer (p, t)).written = t.stream.outbound := by
  rcases p with (e | session | hostname) | ⟨wake, state⟩
  · rfl
  · rfl
  · exact absurd rfl (hup hostname)
  · rfl

theorem overClear_outbound {stream : Stream} {later : List Nat} {es : List Event}
    {p : Poll (Phase .clear × ReplyReader) (Outcome .clear)} {t : Transport}
    (h : overClear config stream now later = (es, p, t)) :
    t.stream.outbound = stream.outbound.adding (Event.lines es) := by
  have hrecord := Dialogue.listen_outbound (advance config) .greeting (Transport.new stream) now later
  rw [← overClear, h] at hrecord
  exact hrecord

/-- Where there is a stream, the lines said are the lines on record. -/
theorem Stage.record {peer : Peer} {run : List Event × Progress} (h : Stage config peer run) :
    (∃ ready, run = ([], .pending (some ready) (.connecting ready peer))) ∨
    (∃ e, peer.connect = .error e ∧ run = ([], .failed e {})) ∨
    ∃ stream, peer.connect = .ok stream ∧ run.2.written = stream.outbound.adding (Event.lines run.1) := by
  cases h with
  | connecting => exact .inl ⟨_, rfl⟩
  | unconnected hc => exact .inr (.inl ⟨_, hc, rfl⟩)
  | clear hc hrun hup => exact .inr (.inr ⟨_, hc, (onClear_written hup).trans (overClear_outbound hrun)⟩)
  | unsecured hc hrun =>
    refine .inr (.inr ⟨_, hc, ?_⟩)
    simpa [Progress.written] using overClear_outbound hrun
  | secured hc hrun =>
    refine .inr (.inr ⟨_, hc, ?_⟩)
    rw [onSecured_written, overSecured, Dialogue.follow_outbound]
    simp [Transport.new, overClear_outbound hrun]

theorem Stage.written {peer : Peer} {run : List Event × Progress} (h : Stage config peer run) (hp : peer.Fresh) :
    run.2.written.attempted = Event.lines run.1 := by
  rcases h.record with ⟨ready, rfl⟩ | ⟨e, -, rfl⟩ | ⟨stream, hc, hrecord⟩
  · rfl
  · rfl
  · rw [hrecord, Outbound.adding, hp stream hc, List.nil_append]

end Attempt

end SmtpClient
