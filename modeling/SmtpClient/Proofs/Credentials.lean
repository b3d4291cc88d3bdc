/-
Two pairs of credentials in the same place. The clients, the sessions and the
phases that carry them stay at the same point whatever the server says
(`AuthSession.advance_alike`, `Handshake.advance_alike`), and all lines look the
same in the logs; only a mechanism that refuses one of the pairs can part them,
and it is the one that was selected (`Handshake.Course.refuses`).
-/
import SmtpClient.Proofs.Encoding
import SmtpClient.Proofs.Likeness

namespace SmtpClient

/-! ## Lines as logs show them -/

namespace Command

theorem masked_auth_none (m : Mechanism) : (auth m none).masked = "AUTH " ++ m.name := rfl

theorem masked_auth_some (m : Mechanism) (initial : String) :
    (auth m (some initial)).masked = "AUTH " ++ m.name ++ " <redacted>" := by
  have hline : (auth m (some initial)).line.toList = ("AUTH " ++ m.name ++ " ").toList ++ initial.toList :=
    String.toList_append
  have hoffset : "AUTH ".length + m.name.length + 1 = Text.Utf8.size ("AUTH " ++ m.name ++ " ").toList := by
    cases m <;> rfl
  rw [masked, redaction, Redaction.apply, hline, hoffset, Text.splitAtByte_append]
  simp only [String.ofList_toList]
  cases m <;> rfl

theorem masked_response (text : String) : (response text).masked = "<redacted>" := by
  simp only [masked, redaction, Redaction.apply, Text.splitAtByte]
  rfl

end Command

/-! ## Clients -/

namespace Sasl.Client

/-- At the same point of an exchange with one mechanism. -/
inductive Alike : Client → Client → Prop where
  | plain (username password username' password' : String) :
    Alike (.plain username password) (.plain username' password')
  | login (username password username' password' : String) (answered : Nat) :
    Alike (.login username password answered) (.login username' password' answered)
  | cram (kind : Mechanism) (username password username' password' : String) :
    Alike (.cram kind username password) (.cram kind username' password')
  | bearer (kind : Mechanism) (username token username' token' : String) :
    Alike (.bearer kind username token) (.bearer kind username' token')

variable {c c' : Client}

theorem Alike.kind (h : Alike c c') : c.kind = c'.kind := by
  cases h <;> rfl

/-- A mechanism that separates its fields has something to open with. -/
theorem opening_separated {text : String} {separator : Char} (h : separator ∈ text.toList) :
    (Text.Utf8.encode text).isEmpty = false := by
  rw [List.isEmpty_eq_false_iff_exists_mem]
  obtain ⟨b, hb⟩ := List.exists_mem_of_length_pos (l := String.utf8EncodeChar separator)
    (by rw [String.length_utf8EncodeChar]; exact separator.utf8Size_pos)
  exact ⟨b, List.mem_flatMap.2 ⟨separator, h, hb⟩⟩

theorem Alike.opening (h : Alike c c') : c.opening.isEmpty = c'.opening.isEmpty := by
  cases h with
  | plain =>
    have hplain : ∀ username password, nul ∈ (plainMessage username password).toList := by simp [plainMessage]
    exact (opening_separated (hplain _ _)).trans (opening_separated (hplain _ _)).symm
  | login | cram => rfl
  | bearer kind =>
    have hbearer : ∀ username token, controlA ∈ (bearerMessage kind username token).toList := by
      simp [bearerMessage, fieldEnd]
    exact (opening_separated (hbearer _ _)).trans (opening_separated (hbearer _ _)).symm

theorem Alike.answer (h : Alike c c') (challenge : List UInt8) :
    Alike (c.answer challenge).2 (c'.answer challenge).2 := by
  cases h <;> constructor

theorem new_alike (m : Mechanism) (username password username' password' : String) :
    (∃ c c', Client.new m username password = .ok c ∧ Client.new m username' password' = .ok c' ∧ Alike c c') ∨
      Refused (Client.new m username password) ∨ Refused (Client.new m username' password') := by
  rcases new_cases m username password with ⟨-, hrefused⟩ | ⟨-, c, hc, -⟩
  · exact .inr (.inl hrefused)
  rcases new_cases m username' password' with ⟨-, hrefused⟩ | ⟨-, c', hc', -⟩
  · exact .inr (.inr hrefused)
  refine .inl ⟨c, c', hc, hc', ?_⟩
  cases m with
  | plain =>
    simp only [Client.new, ofPlain] at hc hc'
    split at hc <;> cases hc
    split at hc' <;> cases hc'
    exact .plain ..
  | login =>
    cases hc
    cases hc'
    exact .login ..
  | cramMd5 | cramSha1 | cramSha256 =>
    cases hc
    cases hc'
    exact .cram ..
  | xoauth2 | oauthBearer =>
    simp only [Client.new, ofBearer] at hc hc'
    split at hc <;> cases hc
    split at hc' <;> cases hc'
    exact .bearer ..

end Sasl.Client

/-! ## Logins -/

/-- The configuration with these credentials. -/
def Config.bearing (config : Config) (username password : String) : Config :=
  { config with username := some username, password := some password }

namespace AuthSession

/-- At the same point of a login. -/
structure Alike (s s' : AuthSession) : Prop where
  state : s.state = s'.state
  client : Option.Rel Sasl.Client.Alike s.client s'.client

/-- Two sessions want what looks alike, unless one of them fails because its
credentials are refused. -/
inductive WantsAlike : Except Error AuthAction × AuthSession → Except Error AuthAction × AuthSession → Prop where
  | fails (e : Error) (s s' : AuthSession) : WantsAlike (.error e, s) (.error e, s')
  | done (outcome : AuthOutcome) (s s' : AuthSession) : WantsAlike (.ok (.done outcome), s) (.ok (.done outcome), s')
  | sends {command command' : Command} {s s' : AuthSession} : command.masked = command'.masked → Alike s s' →
    WantsAlike (.ok (.send command), s) (.ok (.send command'), s')
  | refused {r r' : Except Error AuthAction × AuthSession} : Refused r.1 ∨ Refused r'.1 → WantsAlike r r'

variable {s s' : AuthSession} {client client' : Sasl.Client} {username password username' password' : String}

theorem move_refused {r : Except Error AuthAction × AuthSession} : Refused (move r) ↔ Refused r.1 := by
  obtain ⟨e | (command | outcome), s⟩ := r <;> simp [Refused, AuthSession.move]

theorem WantsAlike.move {r r' : Except Error AuthAction × AuthSession} (h : WantsAlike r r') :
    MovesAlike Alike (move r) (move r') := by
  cases h with
  | fails e => exact .fails e
  | done outcome => exact .finishes outcome
  | sends hmasked halike => exact .sends hmasked halike
  | refused hrefused => exact .refused (hrefused.imp move_refused.2 move_refused.2)

theorem forgo_alike (h : s.login = s'.login) (e : Error) : WantsAlike (s.forgo e) (s'.forgo e) := by
  simp only [forgo, h]
  split
  · exact .fails ..
  · exact .done ..

theorem beginLine_alike (h : client.Alike client') : (beginLine client).masked = (beginLine client').masked := by
  simp only [beginLine, h.kind, h.opening]
  split
  · rfl
  · rw [Command.masked_auth_some, Command.masked_auth_some]

theorem begin_alike (hallowed : s.allowed = s'.allowed) :
    WantsAlike (s.begin username password) (s'.begin username' password') := by
  simp only [begin, Sasl.choose, hallowed]
  cases Sasl.preferred s'.allowed with
  | none => exact .fails ..
  | some m =>
    rcases Sasl.Client.new_alike m username password username' password' with
      ⟨client, client', hc, hc', halike⟩ | ⟨fault, hc⟩ | ⟨fault, hc⟩
    · simp only [hc, hc']
      exact .sends (beginLine_alike halike) ⟨rfl, .some halike⟩
    · simp only [hc]
      exact .refused (.inl ⟨fault, rfl⟩)
    · simp only [hc]
      exact .refused (.inr ⟨fault, rfl⟩)

/-- Logins begin alike. -/
theorem start_alike (hinit : s.state = .init) (hinit' : s'.state = .init) (hlogin : s.login = s'.login)
    (hallowed : s.allowed = s'.allowed) (hu : s.username = some username) (hp : s.password = some password)
    (hu' : s'.username = some username') (hp' : s'.password = some password') : WantsAlike s.start s'.start := by
  simp only [start, hinit, hinit', ne_eq, not_true_eq_false, if_false, hlogin, hallowed, hu, hp, hu', hp']
  by_cases hd : s'.login = .disabled
  · rw [if_pos hd, if_pos hd]
    exact .done ..
  rw [if_neg hd, if_neg hd]
  by_cases hempty : s'.allowed = []
  · rw [if_pos hempty, if_pos hempty]
    exact forgo_alike (by rfl) _
  rw [if_neg hempty, if_neg hempty]
  exact begin_alike (by rfl)

theorem new_alike (config : Config) (advertised : List String) (username password username' password' : String) :
    WantsAlike (new (config.bearing username password) advertised).start
      (new (config.bearing username' password') advertised).start :=
  start_alike rfl rfl rfl rfl rfl rfl rfl rfl

theorem advance_alike (h : s.Alike s') (reply : Reply) : WantsAlike (s.advance reply) (s'.advance reply) := by
  obtain ⟨hstate, hclient⟩ := h
  simp only [advance, respond, hstate]
  cases s'.state with
  | exchanging round =>
    generalize s.client = client? at hclient ⊢
    generalize s'.client = client?' at hclient ⊢
    cases hclient with
    | none => exact .fails ..
    | @some client client' halike =>
      simp only [halike.kind]
      cases reply.kind with
      | success => exact .done ..
      | failure => exact .fails ..
      | proceed =>
        dsimp only
        split
        · exact .fails ..
        · next challenge _ =>
          refine .sends ?_ ⟨rfl, .some (halike.answer challenge)⟩
          rw [Command.masked_response, Command.masked_response]
  | init | selecting | success | failure => exact .fails ..

theorem dialogue_alike : DialoguesAlike Alike dialogue dialogue :=
  fun _ _ reply h => (advance_alike h reply).move

end AuthSession

/-! ## Handshakes -/

namespace Handshake

variable {ch : Channel} {config : Config} {es : List Event}

/-- Waiting for the same reply, with logins at the same point. -/
inductive Phase.Alike : {ch : Channel} → Phase ch → Phase ch → Prop where
  | greeting : Alike .greeting .greeting
  | ehlo {ch : Channel} (hostname : String) : Alike (.ehlo hostname : Phase ch) (.ehlo hostname)
  | helo {ch : Channel} (hostname : String) : Alike (.helo hostname : Phase ch) (.helo hostname)
  | startTls (hostname : String) : Alike (.startTls hostname) (.startTls hostname)
  | login {ch : Channel} {s s' : AuthSession} (info : ServerInfo) :
    s.Alike s' → Alike (.login info s : Phase ch) (.login info s')

theorem loginMove_refused {r : Except Error AuthAction × AuthSession} {info : ServerInfo} :
    Refused (loginMove ch info r) ↔ Refused r.1 := by
  obtain ⟨e | (command | outcome), s⟩ := r <;> simp [Refused, loginMove]

theorem loginMove_alike {r r' : Except Error AuthAction × AuthSession} (ch : Channel) (info : ServerInfo)
    (h : AuthSession.WantsAlike r r') : MovesAlike Phase.Alike (loginMove ch info r) (loginMove ch info r') := by
  cases h with
  | fails e => exact .fails e
  | done outcome => exact .finishes _
  | sends hmasked halike => exact .sends hmasked (.login info halike)
  | refused hrefused => exact .refused (hrefused.imp loginMove_refused.2 loginMove_refused.2)

section Pairs

variable (config : Config) (username password username' password' : String)

/-- What follows a hello is alike. -/
theorem afterHello_alike (ch : Channel) (info : ServerInfo) :
    MovesAlike Phase.Alike (afterHello (config.bearing username password) ch info)
      (afterHello (config.bearing username' password') ch info) := by
  have hlogin : MovesAlike Phase.Alike (beginLogin (config.bearing username password) ch info)
      (beginLogin (config.bearing username' password') ch info) := loginMove_alike ch info (AuthSession.new_alike ..)
  cases ch with
  | secured => exact hlogin
  | clear =>
    have hsecurity : (config.bearing username password).security = config.security ∧
      (config.bearing username' password').security = config.security := ⟨rfl, rfl⟩
    simp only [afterHello, hsecurity]
    by_cases hs : config.security = .startTls
    · simp only [hs, if_true]
      split
      · exact .sends rfl (.startTls _)
      · exact .fails _
    · simp only [if_neg hs]
      exact hlogin

theorem advance_alike (ch : Channel) :
    DialoguesAlike Phase.Alike (advance (config.bearing username password) : Dialogue (Phase ch) (Outcome ch))
      (advance (config.bearing username' password')) := by
  intro phase phase' reply h
  cases h with
  | greeting =>
    simp only [advance]
    cases expectReady reply with
    | error e => exact .fails e
    | ok u => exact .sends rfl (.ehlo _)
  | ehlo hostname =>
    simp only [advance]
    split
    · exact afterHello_alike ..
    · exact .sends rfl (.helo hostname)
  | helo hostname =>
    simp only [advance]
    split
    · exact afterHello_alike ..
    · exact .fails _
  | startTls hostname =>
    simp only [advance]
    cases expectReady reply with
    | error e => exact .fails e
    | ok u => exact .finishes _
  | login info hsession => exact loginMove_alike ch info (AuthSession.advance_alike hsession reply)

end Pairs

/-! ### Which credentials are refused -/

/-- The mechanism is selected after these events. -/
def Selects (config : Config) (before : List Event) (m : Mechanism) : Prop :=
  config.login ≠ .disabled ∧ Warrants config before (.auth m none)

/-- A mechanism that is selected on the way, if any is, accepts the credentials. -/
def Admits (config : Config) (es : List Event) (username password : String) : Prop :=
  ∀ before after m, es = before ++ after → Selects config before m → ¬ Sasl.Refuses m username password

section Refusal

variable {username password : String} {phase : Phase ch} {reply : Reply}

theorem expectReady_accepts {α : Type} (reply : Reply) (value : α) :
    ¬ Refused (expectReady reply >>= fun _ => pure value : Except Error α) := by
  rintro ⟨fault, h⟩
  unfold expectReady at h
  split at h
  · cases h
  · split at h <;> cases h

theorem beginLogin_refused {info : ServerInfo} (h : Refused (beginLogin (config.bearing username password) ch info)) :
    config.login ≠ .disabled ∧ ∃ m,
      Sasl.preferred (Sasl.selectable info.authMechanisms config.authMethods) = some m ∧
        Sasl.Refuses m username password := by
  obtain ⟨hlogin, u, p, m, hu, hp, hm, hr⟩ := AuthSession.start_refused_iff.1 (loginMove_refused.1 h)
  cases hu
  cases hp
  exact ⟨hlogin, m, hm, hr⟩

theorem afterHello_refused {info : ServerInfo} (h : Refused (afterHello (config.bearing username password) ch info)) :
    (ch = .clear → config.security ≠ .startTls) ∧ Refused (beginLogin (config.bearing username password) ch info) := by
  cases ch with
  | secured => exact ⟨nofun, h⟩
  | clear =>
    obtain ⟨fault, h⟩ := h
    simp only [afterHello] at h
    split at h
    · split at h <;> cases h
    · next hs => exact ⟨fun _ => hs, fault, h⟩

/-- Just the mechanism that was selected refuses credentials. -/
theorem Course.refuses (hc : Course (config.bearing username password) ch phase es)
    (h : Refused (advance (config.bearing username password) phase reply)) :
    ∃ m, Selects config (es ++ [.heard reply]) m ∧ Sasl.Refuses m username password := by
  cases phase with
  | greeting => exact absurd h (expectReady_accepts reply _)
  | ehlo hostname =>
    simp only [advance] at h
    split at h
    · next hok =>
      obtain ⟨hclear, hbegin⟩ := afterHello_refused h
      obtain ⟨hlogin, m, hm, hr⟩ := beginLogin_refused hbegin
      obtain ⟨earlier, hearlier⟩ := hc.ehlo
      refine ⟨m, ⟨hlogin, hc.guarded hclear reply, earlier, reply, ?_, hok, hm⟩, hr⟩
      rw [hearlier, List.append_assoc]
      rfl
    · obtain ⟨fault, h⟩ := h
      cases h
  | helo hostname =>
    simp only [advance] at h
    split at h
    · obtain ⟨-, hbegin⟩ := afterHello_refused h
      obtain ⟨-, m, hm, -⟩ := beginLogin_refused hbegin
      cases Sasl.mem_of_preferred hm
    · obtain ⟨fault, h⟩ := h
      cases h
  | startTls hostname => exact absurd h (expectReady_accepts reply _)
  | login info s =>
    obtain ⟨-, m, -, -, -, -, hex⟩ := hc.login_exchanging rfl
    obtain ⟨fault, hmove⟩ := AuthSession.move_refused.2 (loginMove_refused.1 h)
    cases (hex.refuse hmove).1

theorem came_refused {result : Except Error (Outcome ch)}
    (h : Dialogue.Came (advance (config.bearing username password)) (Course (config.bearing username password) ch) es
      (.ready result)) (hr : Refused result) : ∃ m, Selects config es m ∧ Sasl.Refuses m username password := by
  obtain ⟨fault, rfl⟩ := hr
  cases h with
  | refused hc hm => exact hc.refuses ⟨fault, hm⟩
  | broke hc hw => cases hw

end Refusal

end Handshake

end SmtpClient
