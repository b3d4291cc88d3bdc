/-
When a client logs in, and with what result. Policy, credentials and the names
that both sides accept decide whether a line is written at all
(`AuthSession.start_decision`); once it is, only the server's positive reply
makes the login succeed, and no result is one of those that are given without
a line (`Transport.login_matrix`).
-/
import SmtpClient.Proofs.Transcript

namespace SmtpClient

/-! ## Mechanisms -/

namespace Sasl

/-- The credentials that a mechanism cannot carry. -/
def Refuses (m : Mechanism) (username password : String) : Prop :=
  match m with
  | .plain => nul ∈ username.toList ∨ nul ∈ password.toList
  | .xoauth2 | .oauthBearer => controlA ∈ username.toList ∨ controlA ∈ password.toList
  | .login | .cramMd5 | .cramSha1 | .cramSha256 => False

namespace Client

variable {m : Mechanism} {username password : String}

theorem new_cases (m : Mechanism) (username password : String) :
    (Refuses m username password ∧ ∃ fault, Client.new m username password = .error (.invalidCredentials fault)) ∨
    (¬ Refuses m username password ∧ ∃ client, Client.new m username password = .ok client ∧ client.kind = m) := by
  cases m with
  | plain =>
    simp only [Client.new, ofPlain, Refuses]
    split
    · next h => exact .inl ⟨h, _, rfl⟩
    · next h => exact .inr ⟨h, _, rfl, rfl⟩
  | xoauth2 | oauthBearer =>
    simp only [Client.new, ofBearer, Refuses]
    split
    · next h => exact .inl ⟨h, _, rfl⟩
    · next h => exact .inr ⟨h, _, rfl, rfl⟩
  | login | cramMd5 | cramSha1 | cramSha256 => exact .inr ⟨id, _, rfl, rfl⟩

theorem answer_kind (c : Client) (challenge : List UInt8) : (c.answer challenge).2.kind = c.kind := by
  cases c <;> rfl

end Client

theorem preferred_eq_none {allowed : List String} :
    preferred allowed = none ↔ ∀ m : Mechanism, m.name ∉ allowed := by
  simp only [preferred, List.find?_eq_none, decide_eq_true_eq]
  refine ⟨fun h m => h m ?_, fun h m _ => h m⟩
  cases m <;> decide

@[simp] theorem preferred_nil : preferred [] = none := preferred_eq_none.2 fun _ => List.not_mem_nil

theorem mem_of_preferred {allowed : List String} {m : Mechanism} (h : preferred allowed = some m) :
    m.name ∈ allowed := by
  simpa using List.find?_some h

end Sasl

/-! ## The exchange -/

theorem Reply.kind_success {reply : Reply} : reply.kind = .success ↔ reply.isSuccess = true := by
  simp only [kind, ReplyCode.kind, isSuccess]
  split
  · next h => simp [h]
  · next h => split <;> simp [h]

namespace AuthSession

/-- How a session begins, by policy, credentials and the names allowed. -/
inductive Decision (config : Config) (allowed : List String) : Except Error AuthAction × AuthSession → Prop where
  | disabled {s : AuthSession} : config.login = .disabled → Decision config allowed (.ok (.done .skipped), s)
  | forgone {s : AuthSession} : config.login = .optional → config.hasCredentials = false ∨ allowed = [] →
    Decision config allowed (.ok (.done .skipped), s)
  | missing {s : AuthSession} : config.login = .required → config.hasCredentials = false →
    Decision config allowed (.error .missingCredentials, s)
  | unusable {s : AuthSession} : config.login = .required → config.hasCredentials = true → allowed = [] →
    Decision config allowed (.error .noUsableMechanism, s)
  | unsupported {s : AuthSession} : config.login ≠ .disabled → config.hasCredentials = true → allowed ≠ [] →
    Sasl.preferred allowed = none → Decision config allowed (.error .noSupportedMechanism, s)
  | refused {s : AuthSession} {username password : String} {m : Mechanism} {fault : CredentialFault} :
    config.login ≠ .disabled → config.username = some username → config.password = some password → allowed ≠ [] →
    Sasl.preferred allowed = some m → Sasl.Refuses m username password →
    Decision config allowed (.error (.invalidCredentials fault), s)
  | begins {s : AuthSession} {username password : String} {m : Mechanism} {client : Sasl.Client} :
    config.login ≠ .disabled → config.username = some username → config.password = some password → allowed ≠ [] →
    Sasl.preferred allowed = some m → ¬ Sasl.Refuses m username password → client.kind = m →
    s.state = .exchanging 0 → s.client = some client →
    Decision config allowed (.ok (.send (beginLine client)), s)

theorem forgo_eq (s : AuthSession) (e : Error) :
    s.forgo e = if s.login = .required then s.fail e else s.succeed .skipped := rfl

/-- What a session that does not begin comes to. -/
theorem forgo_decision {config : Config} {allowed : List String} {s : AuthSession} {e : Error}
    (hd : config.login ≠ .disabled) (hs : s.login = config.login)
    (hnone : config.hasCredentials = false ∨ allowed = [])
    (he : config.login = .required → Decision config allowed (s.fail e)) : Decision config allowed (s.forgo e) := by
  rw [forgo_eq, hs]
  by_cases hr : config.login = .required
  · rw [if_pos hr]
    exact he hr
  · rw [if_neg hr]
    have hopt : config.login = .optional := by
      cases hl : config.login <;> simp_all
    exact .forgone hopt hnone

theorem start_decision {config : Config} {allowed : List String} {s : AuthSession} (hinit : s.state = .init)
    (hlogin : s.login = config.login) (huser : s.username = config.username)
    (hpassword : s.password = config.password) (hallowed : s.allowed = allowed) :
    Decision config allowed s.start := by
  simp only [start, hinit, ne_eq, not_true_eq_false, if_false, huser, hpassword, hallowed]
  by_cases hd : config.login = .disabled
  · rw [if_pos (hlogin.trans hd)]
    exact .disabled hd
  rw [if_neg (hlogin ▸ hd)]
  cases hu : config.username with
  | none =>
    have hone : config.hasCredentials = false := by simp [Config.hasCredentials, hu]
    exact forgo_decision hd hlogin (.inl hone) fun hr => .missing hr hone
  | some username =>
    cases hp : config.password with
    | none =>
      have hone : config.hasCredentials = false := by simp [Config.hasCredentials, hp]
      exact forgo_decision hd hlogin (.inl hone) fun hr => .missing hr hone
    | some password =>
      have hboth : config.hasCredentials = true := by simp [Config.hasCredentials, hu, hp]
      simp only
      by_cases hempty : allowed = []
      · rw [if_pos hempty]
        exact forgo_decision hd hlogin (.inr hempty) fun hr => .unusable hr hboth hempty
      rw [if_neg hempty]
      simp only [begin, Sasl.choose]
      cases hm : Sasl.preferred allowed with
      | none => exact .unsupported hd hboth hempty hm
      | some m =>
        rcases Sasl.Client.new_cases m username password with ⟨hr, fault, hc⟩ | ⟨hr, client, hc, hk⟩
        · simp only [hc]
          exact .refused hd hu hp hempty hm hr
        · simp only [hc]
          exact .begins hd hu hp hempty hm hr hk rfl rfl

theorem new_decision (config : Config) (advertised : List String) :
    Decision config (Sasl.selectable advertised config.authMethods) (new config advertised).start :=
  start_decision rfl rfl rfl rfl rfl

/-- A session that waits for the reply to a line of its exchange. -/
def Exchanging (m : Mechanism) (s : AuthSession) : Prop :=
  ∃ client round, s.client = some client ∧ s.state = .exchanging round ∧ client.kind = m

/-- What a reply brings an exchange to. -/
theorem Exchanging.advance {m : Mechanism} {s : AuthSession} (h : Exchanging m s) (reply : Reply) :
    (reply.kind = .success ∧ (s.advance reply).1 = .ok (.done (.authenticated m))) ∨
    (reply.kind = .failure ∧ (s.advance reply).1 = .error (.auth m (reply.code.text ++ " " ++ reply.text))) ∨
    reply.kind = .proceed ∧
      ((∃ text fault, (s.advance reply).1 = .error (.protocol (.badChallenge text fault))) ∨
        ∃ text, (s.advance reply).1 = .ok (.send (.response text)) ∧ Exchanging m (s.advance reply).2) := by
  obtain ⟨client, round, hc, hs, rfl⟩ := h
  simp only [AuthSession.advance, hs, hc]
  cases hk : reply.kind with
  | success => exact .inl ⟨rfl, rfl⟩
  | failure => exact .inr (.inl ⟨rfl, rfl⟩)
  | proceed =>
    refine .inr (.inr ⟨rfl, ?_⟩)
    simp only [respond, hc]
    split
    · exact .inl ⟨_, _, rfl⟩
    · next challenge _ => exact .inr ⟨_, rfl, _, _, rfl, rfl, client.answer_kind challenge⟩

/-- The lines of an exchange under way, each with the reply before it. -/
inductive Exchange (m : Mechanism) : List Event → Prop where
  | auth {initial : Option String} : Exchange m [.said (.auth m initial)]
  | response {es : List Event} {reply : Reply} {text : String} :
    Exchange m es → reply.kind = .proceed → Exchange m (es ++ [.heard reply, .said (.response text)])

theorem Exchange.opening {m : Mechanism} {es : List Event} (h : Exchange m es) :
    ∃ initial rest, es = .said (.auth m initial) :: rest := by
  induction h with
  | auth => exact ⟨_, _, rfl⟩
  | response _ _ ih =>
    obtain ⟨initial, rest, rfl⟩ := ih
    exact ⟨initial, _, rfl⟩

theorem Exchange.waits {m : Mechanism} {es : List Event} (h : Exchange m es) :
    ∃ earlier command, es = earlier ++ [.said command] := by
  cases h with
  | auth => exact ⟨[], _, rfl⟩
  | response => exact ⟨_, _, List.append_cons ..⟩

/-- The exchange is under way, and these are its lines. -/
def Talks (m : Mechanism) (s : AuthSession) (es : List Event) : Prop :=
  Exchanging m s ∧ Exchange m es

theorem Exchanging.send {m : Mechanism} {s s' : AuthSession} {reply : Reply} {command : Command}
    (h : Exchanging m s) (hadv : s.advance reply = (.ok (.send command), s')) :
    reply.kind = .proceed ∧ (∃ text, command = .response text) ∧ Exchanging m s' := by
  have hcases := h.advance reply
  rw [hadv] at hcases
  rcases hcases with ⟨-, he⟩ | ⟨-, he⟩ | ⟨hk, ⟨_, _, he⟩ | ⟨text, he, hnext⟩⟩ <;> cases he
  exact ⟨hk, ⟨text, rfl⟩, hnext⟩

theorem dialogue_bears (m : Mechanism) : dialogue.Bears (Talks m) := by
  rintro s es reply command s' ⟨hs, he⟩ hm
  rcases hadv : s.advance reply with ⟨e | (command | outcome), s₁⟩ <;> simp only [dialogue, hadv] at hm <;> cases hm
  obtain ⟨hk, ⟨text, rfl⟩, hnext⟩ := hs.send hadv
  exact ⟨hnext, .response he hk⟩

/-! ## Conditions -/

section Conditions

variable {config : Config} {advertised : List String}

theorem start_skipped_iff : (new config advertised).start.1 = .ok (.done .skipped) ↔
    config.login = .disabled ∨ config.login = .optional ∧
      (config.hasCredentials = false ∨ Sasl.selectable advertised config.authMethods = []) := by
  have h := new_decision config advertised
  generalize (new config advertised).start = r at h ⊢
  cases h <;> simp_all [Config.hasCredentials]

theorem start_missing_iff : (new config advertised).start.1 = .error .missingCredentials ↔
    config.login = .required ∧ config.hasCredentials = false := by
  have h := new_decision config advertised
  generalize (new config advertised).start = r at h ⊢
  cases h <;> simp_all [Config.hasCredentials]

theorem start_unusable_iff : (new config advertised).start.1 = .error .noUsableMechanism ↔
    config.login = .required ∧ config.hasCredentials = true ∧
      Sasl.selectable advertised config.authMethods = [] := by
  have h := new_decision config advertised
  generalize (new config advertised).start = r at h ⊢
  cases h <;> simp_all

theorem start_unsupported_iff : (new config advertised).start.1 = .error .noSupportedMechanism ↔
    config.login ≠ .disabled ∧ config.hasCredentials = true ∧
      Sasl.selectable advertised config.authMethods ≠ [] ∧
      ∀ m : Mechanism, m.name ∉ Sasl.selectable advertised config.authMethods := by
  have h := new_decision config advertised
  rw [← Sasl.preferred_eq_none]
  generalize (new config advertised).start = r at h ⊢
  cases h with
  | forgone hopt hnone => rcases hnone with hone | hempty <;> simp_all
  | _ => simp_all

theorem start_refused_iff : (∃ fault, (new config advertised).start.1 = .error (.invalidCredentials fault)) ↔
    config.login ≠ .disabled ∧ ∃ username password m, config.username = some username ∧
      config.password = some password ∧
      Sasl.preferred (Sasl.selectable advertised config.authMethods) = some m ∧
      Sasl.Refuses m username password := by
  have h := new_decision config advertised
  generalize (new config advertised).start = r at h ⊢
  cases h with
  | forgone hopt hnone => rcases hnone with hone | hempty <;> simp_all [Config.hasCredentials]
  | _ => simp_all [Config.hasCredentials]

end Conditions

/-! ## Results -/

/-- The results that are there without a line: no login, and the errors of the
configuration. -/
def Unasked : Except Error AuthOutcome → Prop
  | .ok outcome => outcome = .skipped
  | .error e => e.isConfiguration = true

/-- A session is over at once, or says the line of the preferred mechanism. -/
theorem start_cases (config : Config) (advertised : List String) :
    (∃ result, Unasked result ∧ (new config advertised).start.1 = result.map AuthAction.done) ∨
    ∃ m initial s, Sasl.preferred (Sasl.selectable advertised config.authMethods) = some m ∧
      (new config advertised).start = (.ok (.send (.auth m initial)), s) ∧
      Talks m s [.said (.auth m initial)] := by
  have hd := new_decision config advertised
  rcases hs : (new config advertised).start with ⟨action, s⟩
  rw [hs] at hd
  cases hd with
  | disabled | forgone => exact .inl ⟨.ok .skipped, rfl, rfl⟩
  | missing => exact .inl ⟨.error .missingCredentials, rfl, rfl⟩
  | unusable => exact .inl ⟨.error .noUsableMechanism, rfl, rfl⟩
  | unsupported => exact .inl ⟨.error .noSupportedMechanism, rfl, rfl⟩
  | @refused _ _ _ _ fault => exact .inl ⟨.error (.invalidCredentials fault), rfl, rfl⟩
  | @begins _ username password m client hd hu hp hne hm hr hk hstate hclient =>
    subst hk
    exact .inr ⟨_, _, s, hm, rfl, ⟨client, 0, hclient, hstate, rfl⟩, .auth⟩

theorem start_send {config : Config} {advertised : List String} {command : Command} {s : AuthSession}
    (h : (new config advertised).start = (.ok (.send command), s)) :
    ∃ m initial, Sasl.preferred (Sasl.selectable advertised config.authMethods) = some m ∧
      command = .auth m initial ∧ Exchanging m s := by
  rcases start_cases config advertised with ⟨result, -, ho⟩ | ⟨m, initial, s', hm, hs, ht⟩
  · rw [h] at ho
    cases result <;> cases ho
  · rw [h] at hs
    cases hs
    exact ⟨m, initial, hm, rfl, ht.1⟩

theorem came_opening {m : Mechanism} {es : List Event} {p : Poll (AuthSession × ReplyReader) AuthOutcome}
    (h : dialogue.Came (Talks m) es p) : ∃ initial rest, es = .said (.auth m initial) :: rest := by
  cases h with
  | waits ht | broke ht => exact ht.2.opening
  | finished ht | refused ht =>
    obtain ⟨initial, rest, rfl⟩ := ht.2.opening
    exact ⟨initial, _, rfl⟩

theorem isWire_isConfiguration {e : Error} (h : e.isWire = true) : e.isConfiguration = false := by
  cases e <;> first | rfl | cases h

/-- An exchange ends well just by the server's word. -/
theorem Exchanging.finish {m : Mechanism} {s : AuthSession} {reply : Reply} {outcome : AuthOutcome}
    (h : Exchanging m s) (hm : dialogue s reply = .ok (.finish outcome)) :
    outcome = .authenticated m ∧ reply.isSuccess = true := by
  have hcases := h.advance reply
  rcases hadv : s.advance reply with ⟨action, s'⟩
  simp only [dialogue, hadv] at hm hcases
  rcases hcases with ⟨hk, rfl⟩ | ⟨-, rfl⟩ | ⟨-, ⟨text, fault, rfl⟩ | ⟨text, rfl, -⟩⟩ <;> cases hm
  exact ⟨rfl, Reply.kind_success.1 hk⟩

/-- An exchange fails because of what the server says. -/
theorem Exchanging.refuse {m : Mechanism} {s : AuthSession} {reply : Reply} {e : Error} (h : Exchanging m s)
    (hm : dialogue s reply = .error e) : e.isConfiguration = false ∧ reply.isSuccess = false := by
  have hcases := h.advance reply
  rcases hadv : s.advance reply with ⟨action, s'⟩
  simp only [dialogue, hadv] at hm hcases
  have hfailed : e.isConfiguration = false ∧ reply.kind ≠ .success := by
    rcases hcases with ⟨-, rfl⟩ | ⟨hk, rfl⟩ | ⟨hk, ⟨text, fault, rfl⟩ | ⟨text, rfl, -⟩⟩ <;> cases hm <;>
      exact ⟨rfl, by simp [hk]⟩
  exact ⟨hfailed.1, by simpa using hfailed.2 ∘ Reply.kind_success.2⟩

/-- An exchange comes to no result that needs no line. -/
theorem came_asked {m : Mechanism} {es : List Event} {result : Except Error AuthOutcome}
    (h : dialogue.Came (Talks m) es (.ready result)) : ¬ Unasked result := by
  cases h with
  | finished ht hm =>
    obtain ⟨rfl, -⟩ := ht.1.finish hm
    simp [Unasked]
  | refused ht hm => simp [Unasked, ht.1.refuse hm]
  | broke ht hw => simp [Unasked, isWire_isConfiguration hw]

/-- An exchange succeeds just if the last thing heard says so. -/
theorem came_authenticated {m : Mechanism} {es : List Event} {p : Poll (AuthSession × ReplyReader) AuthOutcome}
    (h : dialogue.Came (Talks m) es p) (m' : Mechanism) : p = .ready (.ok (.authenticated m')) ↔
      m' = m ∧ ∃ earlier reply, es = earlier ++ [.heard reply] ∧ reply.isSuccess = true := by
  -- Where a line has no reply yet, nobody has said that the login succeeded.
  have hunheard : ∀ {es}, Exchange m es → ∀ earlier reply, es ≠ earlier ++ [Event.heard reply] := by
    rintro es he earlier reply rfl
    obtain ⟨before, command, heq⟩ := he.waits
    cases (List.append_inj' heq rfl).2
  cases h with
  | waits ht | broke ht => exact ⟨by simp, fun ⟨_, _, _, he, _⟩ => absurd he (hunheard ht.2 _ _)⟩
  | @finished s es reply outcome ht hm =>
    obtain ⟨rfl, hok⟩ := ht.1.finish hm
    refine ⟨fun he => ?_, fun ⟨he, _⟩ => by rw [he]⟩
    cases he
    exact ⟨rfl, es, reply, rfl, hok⟩
  | @refused s es reply e ht hm =>
    refine ⟨by simp, fun ⟨_, earlier, last, he, hok⟩ => ?_⟩
    cases (List.append_inj' he rfl).2
    exact absurd hok (by simp [(ht.1.refuse hm).2])

end AuthSession

/-! ## Runs -/

namespace Transport

/-- The login, polled again at each of these times. -/
def login (t : Transport) (config : Config) (advertised : List String) (now : Nat) (later : List Nat) :
    List Event × Poll (AuthSession × ReplyReader) AuthOutcome × Transport :=
  AuthSession.dialogue.follow (AuthSession.move (AuthSession.new config advertised).start) t now later

theorem login_once (t : Transport) (config : Config) (advertised : List String) (now : Nat) :
    (t.login config advertised now []).2 = t.authenticate config advertised now := rfl

variable {t : Transport} {config : Config} {advertised : List String} {now : Nat} {later : List Nat}

open AuthSession

theorem login_settled {result : Except Error AuthOutcome}
    (h : (AuthSession.new config advertised).start.1 = result.map AuthAction.done) :
    t.login config advertised now later = ([], .ready result, t) := by
  rcases hs : (AuthSession.new config advertised).start with ⟨action, s⟩
  rw [hs] at h
  obtain rfl : action = result.map AuthAction.done := h
  rw [login, hs]
  cases result <;> exact Dialogue.follow_ready rfl rfl

theorem login_came {m : Mechanism} {initial : Option String} {s : AuthSession}
    (hs : (AuthSession.new config advertised).start = (.ok (.send (.auth m initial)), s))
    (ht : Talks m s [.said (.auth m initial)]) :
    dialogue.Came (Talks m) (t.login config advertised now later).1 (t.login config advertised now later).2.1 := by
  rw [login, hs]
  exact Dialogue.follow_came (dialogue_bears m) [] ht

/-- The result is one that needs no line just if the session begins with it. -/
theorem login_unasked (result : Except Error AuthOutcome) (hu : Unasked result) :
    (t.login config advertised now later).2.1 = .ready result ↔
      (AuthSession.new config advertised).start.1 = result.map AuthAction.done := by
  refine ⟨fun h => ?_, fun h => by rw [login_settled h]⟩
  rcases start_cases config advertised with ⟨other, -, hs⟩ | ⟨m, initial, s, -, hs, ht⟩
  · rw [login_settled hs] at h
    obtain rfl : other = result := Poll.ready.inj h
    exact hs
  · have hcame : dialogue.Came (Talks m) _ (t.login config advertised now later).2.1 := login_came hs ht
    rw [h] at hcame
    exact absurd hu (came_asked hcame)

/-- **The login matrix.** Policy, credentials and the names that both sides
accept decide which of the results comes that need no line, if any, and then
nothing is read or written; else the preferred mechanism's line is, and the
login has succeeded, with that mechanism, just if the last reply says so. -/
theorem login_matrix (t : Transport) (config : Config) (advertised : List String) (now : Nat) (later : List Nat) :
    let allowed := Sasl.selectable advertised config.authMethods
    let run := t.login config advertised now later
    (run.2.1 = .ready (.ok .skipped) ↔ config.login = .disabled ∨
      config.login = .optional ∧ (config.hasCredentials = false ∨ allowed = [])) ∧
    (run.2.1 = .ready (.error .missingCredentials) ↔ config.login = .required ∧ config.hasCredentials = false) ∧
    (run.2.1 = .ready (.error .noUsableMechanism) ↔
      config.login = .required ∧ config.hasCredentials = true ∧ allowed = []) ∧
    (run.2.1 = .ready (.error .noSupportedMechanism) ↔ config.login ≠ .disabled ∧ config.hasCredentials = true ∧
      allowed ≠ [] ∧ ∀ m : Mechanism, m.name ∉ allowed) ∧
    ((∃ fault, run.2.1 = .ready (.error (.invalidCredentials fault))) ↔ config.login ≠ .disabled ∧
      ∃ username password m, config.username = some username ∧ config.password = some password ∧
        Sasl.preferred allowed = some m ∧ Sasl.Refuses m username password) ∧
    (∀ result, Unasked result → run.2.1 = .ready result → run.1 = [] ∧ run.2.2 = t) ∧
    ((∀ result, Unasked result → run.2.1 ≠ .ready result) → ∃ m initial rest, Sasl.preferred allowed = some m ∧
      run.1 = .said (.auth m initial) :: rest ∧
      run.2.2.stream.outbound.attempted = t.stream.outbound.attempted ++ .auth m initial :: Event.lines rest ∧
      ∀ m', run.2.1 = .ready (.ok (.authenticated m')) ↔
        m' = m ∧ ∃ earlier reply, run.1 = earlier ++ [.heard reply] ∧ reply.isSuccess = true) := by
  intro allowed run
  refine ⟨(login_unasked (.ok .skipped) rfl).trans start_skipped_iff,
    (login_unasked (.error .missingCredentials) rfl).trans start_missing_iff,
    (login_unasked (.error .noUsableMechanism) rfl).trans start_unusable_iff,
    (login_unasked (.error .noSupportedMechanism) rfl).trans start_unsupported_iff,
    (exists_congr fun fault => login_unasked (.error (.invalidCredentials fault)) rfl).trans start_refused_iff,
    fun result hu h => ?_, fun hasked => ?_⟩
  · have hrun : run = ([], .ready result, t) := login_settled ((login_unasked result hu).1 h)
    rw [hrun]
    exact ⟨rfl, rfl⟩
  rcases start_cases config advertised with ⟨result, hu, hs⟩ | ⟨m, initial, s, hm, hs, ht⟩
  · exact absurd ((login_unasked result hu).2 hs) (hasked result hu)
  have hcame : dialogue.Came (Talks m) run.1 run.2.1 := login_came hs ht
  obtain ⟨initial, rest, hrest⟩ := came_opening hcame
  refine ⟨m, initial, rest, hm, hrest, ?_, came_authenticated hcame⟩
  have hrecord : run.2.2.stream.outbound = t.stream.outbound.adding (Event.lines run.1) :=
    Dialogue.follow_outbound ..
  rw [hrecord, hrest]
  rfl

/-! A login that the server accepts at once. -/

def accepting : Transport :=
  new { arrivals := [.data "235 welcome\r\n".toUTF8.toList] }

def member : Config := { host := "mx", login := .required, username := some "u", password := some "p" }

theorem login_matrix_accepted :
    let run := accepting.login member ["X-OTHER", "plain"] 0 []
    run.1 = [.said (.auth .plain (some "AHUAcA==")), .heard ⟨⟨235⟩, ["welcome"]⟩] ∧
      run.2.1 = .ready (.ok (.authenticated .plain)) := by
  intro run
  have hrun : run.1 = [.said (.auth .plain (some "AHUAcA==")), .heard ⟨⟨235⟩, ["welcome"]⟩] := by decide +kernel
  have hstart : (AuthSession.new member ["X-OTHER", "plain"]).start.1 =
      .ok (.send (.auth .plain (some "AHUAcA=="))) := by decide +kernel
  have hasked : ∀ result, Unasked result → run.2.1 ≠ .ready result := by
    intro result hu h
    rw [login_unasked result hu, hstart] at h
    cases result <;> cases h
  obtain ⟨m, initial, rest, -, hrest, -, hresult⟩ :=
    (login_matrix accepting member ["X-OTHER", "plain"] 0 []).2.2.2.2.2.2 hasked
  rw [hrun] at hrest
  cases hrest
  exact ⟨hrun, (hresult .plain).2 ⟨rfl, [_], _, hrun, by decide⟩⟩

end Transport

end SmtpClient
