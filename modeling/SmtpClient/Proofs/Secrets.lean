/-
What the credentials do not show in. Two pairs that are accepted, used over
streams that deliver the same, leave the same lines in the logs, get the same
replies and come to the same result, in a login as in an attempt to open a
connection (`Transport.secrets_unseen`).
-/
import SmtpClient.Proofs.Credentials

namespace SmtpClient

/-! ## Attempts -/

/-- The same awaits both, in any pieces and at any pace, and their logs show the
same so far. -/
structure Transport.Alike (t t' : Transport) : Prop where
  delivery : t.delivery = t'.delivery
  room : t.stream.outbound.room = t'.stream.outbound.room
  log : t.stream.outbound.log = t'.stream.outbound.log

namespace Attempt

open Handshake

/-- Connecting fails in the same way, or gives streams that are alike. -/
inductive ConnectsAlike : Except Error Stream → Except Error Stream → Prop where
  | fails (e : Error) : ConnectsAlike (.error e) (.error e)
  | gives {stream stream' : Stream} : (Transport.new stream).Alike (Transport.new stream') →
    ConnectsAlike (.ok stream) (.ok stream')

variable {config : Config} {username password username' password' hostname : String} {stream stream' : Stream}
  {es es' after after' : List Event} {result result' : Option (Except Error Established)} {out out' : Outbound}
  {met : List UInt8 × Ending}

theorem clearFate_alike (config : Config) (username password username' password' : String)
    (hs : (Transport.new stream).Alike (Transport.new stream')) :
    FatesAlike (clearFate (config.bearing username password) stream)
      (clearFate (config.bearing username' password') stream') := by
  simp only [clearFate, hs.delivery]
  exact Dialogue.fate_alike (advance_alike config username password username' password' .clear) .greeting hs.room {} _

theorem securedFate_alike (config : Config) (username password username' password' : String)
    (hroom : out.room = out'.room) (hostname : String) (met : List UInt8 × Ending) :
    FatesAlike (securedFate (config.bearing username password) hostname out met)
      (securedFate (config.bearing username' password') hostname out' met) :=
  Dialogue.outset_alike (advance_alike config username password username' password' .secured)
    (.sends rfl (.ehlo hostname)) hroom met

/-- What is admitted is not refused in clear. -/
theorem Settled.clear_admitted (h : Settled (config.bearing username password) stream es result)
    (ha : Admits config es username password) :
    ¬ FateRefused (clearFate (config.bearing username password) stream) := by
  rintro ⟨outcome, hp, hr⟩
  have hcame := clearFate_came (config.bearing username password) stream
  cases h with
  | @clear _ p hf hup =>
    rw [hf] at hp hcame
    obtain rfl : p = .ready outcome := hp
    obtain ⟨m, hm, hrefuses⟩ := came_refused hcame hr
    exact ha es [] m es.append_nil.symm hm hrefuses
  | secured hf =>
    rw [hf] at hp
    cases hp
    obtain ⟨fault, he⟩ := hr
    cases he

/-- Nor is it on a secured channel. -/
theorem securedFate_admitted {arrivals : List Arrival}
    (hf : clearFate (config.bearing username password) stream = (es, .ready (.ok (.upgrade hostname))))
    (ha : Admits config (es ++ .upgrade (.ok arrivals) ::
      (securedFate (config.bearing username password) hostname out met).1) username password) :
    ¬ FateRefused (securedFate (config.bearing username password) hostname out met) := by
  rintro ⟨outcome, hp, hr⟩
  have hcame := securedFate_came hf arrivals out met
  rw [hp] at hcame
  obtain ⟨m, hm, hrefuses⟩ := came_refused hcame hr
  exact ha _ [] m (List.append_nil _).symm hm hrefuses

theorem securedResult_eq {p p' : Poll (Phase .secured × ReplyReader) (Outcome .secured)} (h : p.result? = p'.result?) :
    securedResult? p = securedResult? p' := by
  cases p <;> cases p' <;> cases h <;> rfl

/-- What follows on the connector's answer is alike. -/
theorem sealedFate_alike {answer answer' : Except Error (List Arrival)}
    (hf : clearFate (config.bearing username password) stream = (es, .ready (.ok (.upgrade hostname))))
    (hf' : clearFate (config.bearing username' password') stream' = (es', .ready (.ok (.upgrade hostname))))
    (hanswer : answer.map Arrival.delivery = answer'.map Arrival.delivery) (hroom : out.room = out'.room)
    (hsealed : (after, result) =
      sealedFate (config.bearing username password) hostname out (answer.map Arrival.delivery))
    (hsealed' : (after', result') =
      sealedFate (config.bearing username' password') hostname out' (answer'.map Arrival.delivery))
    (ha : Admits config (es ++ .upgrade answer :: after) username password)
    (ha' : Admits config (es' ++ .upgrade answer' :: after') username' password') :
    Event.sights after = Event.sights after' ∧ result = result' := by
  cases answer with
  | error e =>
    cases answer' <;> cases hanswer
    cases hsealed
    cases hsealed'
    exact ⟨rfl, rfl⟩
  | ok arrivals =>
    cases answer' with
    | error e => cases hanswer
    | ok arrivals' =>
      have hmet : Arrival.delivery arrivals = Arrival.delivery arrivals' := Except.ok.inj hanswer
      simp only [Except.map, ← hmet] at hsealed hsealed'
      cases hsealed
      cases hsealed'
      obtain ⟨hsights, hresult⟩ := securedFate_alike config username password username' password' hroom hostname
        (Arrival.delivery arrivals) (securedFate_admitted hf ha) (securedFate_admitted hf' ha')
      exact ⟨hsights, securedResult_eq hresult⟩

/-- **What two pairs come to is alike.** -/
theorem Settled.alike (h : Settled (config.bearing username password) stream es result)
    (h' : Settled (config.bearing username' password') stream' es' result')
    (hs : (Transport.new stream).Alike (Transport.new stream'))
    (hanswers : ∀ answer ∈ Event.answers es, ∀ answer' ∈ Event.answers es', answer = answer')
    (ha : Admits config es username password) (ha' : Admits config es' username' password') :
    Event.sights es = Event.sights es' ∧ result = result' := by
  obtain ⟨hsights, hresult⟩ := clearFate_alike config username password username' password' hs (h.clear_admitted ha)
    (h'.clear_admitted ha')
  -- The results in clear are the same, so both attempts go on to a secured channel or neither does.
  cases h with
  | @clear _ p hf hup =>
    cases h' with
    | clear hf' =>
      rw [hf, hf'] at hsights hresult
      exact ⟨hsights, congrArg (Option.bind · clearResult?) hresult⟩
    | secured hf' =>
      rw [hf, hf'] at hresult
      cases p <;> cases hresult
      exact absurd rfl (hup _)
  | @secured es after hostname result answer hf hsealed =>
    cases h' with
    | @clear _ p' hf' hup' =>
      rw [hf, hf'] at hresult
      cases p' <;> cases hresult
      exact absurd rfl (hup' _)
    | @secured es' after' _ result' answer' hf' hsealed' =>
      rw [hf, hf'] at hsights hresult
      cases hresult
      have hanswer : answer.map Arrival.delivery = answer'.map Arrival.delivery :=
        hanswers _ (Event.mem_answers_split es after answer) _ (Event.mem_answers_split es' after' answer')
      obtain ⟨hafter, hresult⟩ := sealedFate_alike hf hf' hanswer (Outbound.adding_sights hs.room hsights) hsealed
        hsealed' ha ha'
      refine ⟨?_, hresult⟩
      rw [Event.sights_append, Event.sights_append, hsights]
      exact congrArg (Event.sights es' ++ ·) (congrArg₂ List.cons (congrArg Sight.upgrade hanswer) hafter)

theorem Stage.alike {peer peer' : Peer} {run run' : List Event × Progress}
    (h : Stage (config.bearing username password) peer run) (h' : Stage (config.bearing username' password') peer' run')
    (hconnect : ConnectsAlike peer.connect peer'.connect)
    (hanswers : ∀ answer ∈ Event.answers run.1, ∀ answer' ∈ Event.answers run'.1, answer = answer')
    (ha : Admits config run.1 username password) (ha' : Admits config run'.1 username' password')
    (hs : run.2.settled = true) (hs' : run'.2.settled = true) :
    run.2.written.log = run'.2.written.log ∧ Event.sights run.1 = Event.sights run'.1 ∧
      run.2.result? = run'.2.result? := by
  have hrecord := h.record.resolve_left (by rintro ⟨ready, rfl⟩; cases hs)
  have hrecord' := h'.record.resolve_left (by rintro ⟨ready, rfl⟩; cases hs')
  rcases hrecord with ⟨e, hc, rfl⟩ | ⟨stream, hc, hw⟩ <;> rcases hrecord' with ⟨e', hc', rfl⟩ | ⟨stream', hc', hw'⟩ <;>
    rw [hc, hc'] at hconnect <;> cases hconnect
  · exact ⟨rfl, rfl, rfl⟩
  · next halike =>
    obtain ⟨hsights, hresult⟩ := (h.settled hc hs).alike (h'.settled hc' hs') halike hanswers ha ha'
    rw [hw, hw']
    exact ⟨Outbound.log_sights halike.log hsights, hsights, hresult⟩

end Attempt

/-! ## Runs -/

namespace Transport

open Handshake

variable {config : Config} {advertised : List String} {username password username' password' : String}
  {t t' : Transport} {now now' : Nat} {later later' : List Nat}

/-- The mechanism that is selected among these names, if any is, accepts the
credentials. -/
def Accepted (config : Config) (advertised : List String) (username password : String) : Prop :=
  config.login ≠ .disabled → ∀ m, Sasl.preferred (Sasl.selectable advertised config.authMethods) = some m →
    ¬ Sasl.Refuses m username password

theorem login_accepted (h : Accepted config advertised username password) {es : List Event} : ¬ FateRefused
    (es, (t.login (config.bearing username password) advertised now later).2.1) := by
  rintro ⟨result, hready, fault, rfl⟩
  have hstart := (login_unasked (.error (.invalidCredentials fault)) rfl).1 hready
  obtain ⟨hlogin, u, p, m, hu, hp, hm, hr⟩ := AuthSession.start_refused_iff.1 ⟨fault, hstart⟩
  cases hu
  cases hp
  exact h hlogin m hm hr

/-- Logins with two pairs are alike. -/
theorem login_alike (ht : t.Alike t') (h : Accepted config advertised username password)
    (h' : Accepted config advertised username' password')
    (hs : (t.login (config.bearing username password) advertised now later).2.1.settled = true)
    (hs' : (t'.login (config.bearing username' password') advertised now' later').2.1.settled = true) :
    Event.sights (t.login (config.bearing username password) advertised now later).1 =
        Event.sights (t'.login (config.bearing username' password') advertised now' later').1 ∧
      (t.login (config.bearing username password) advertised now later).2.1.result? =
        (t'.login (config.bearing username' password') advertised now' later').2.1.result? := by
  have hfirst := (AuthSession.new_alike config advertised username password username' password').move
  have halike := Dialogue.outset_alike AuthSession.dialogue_alike hfirst ht.room t.delivery
  have hfate := Dialogue.follow_settled hs
  have hfate' := Dialogue.follow_settled hs'
  rw [← ht.delivery] at hfate'
  rw [← hfate, ← hfate'] at halike
  exact halike (login_accepted h) (login_accepted h')

/-- **Credentials are not seen.** Of the lines that carry them logs show that
there is one, and the mechanism. Two pairs are used, with one configuration, in
logins or in attempts to open a connection; the streams deliver the same bytes
and the same errors, and whatever mechanism is selected accepts the pair. Then
the logs, the replies heard and the results are the same. -/
theorem secrets_unseen (config : Config) (username password username' password' : String) :
    (∀ m initial text, (Command.auth m none).masked = "AUTH " ++ m.name ∧
      (Command.auth m (some initial)).masked = "AUTH " ++ m.name ++ " <redacted>" ∧
      (Command.response text).masked = "<redacted>") ∧
    (∀ (advertised : List String) (t t' : Transport) (now now' : Nat) (later later' : List Nat), t.Alike t' →
      Accepted config advertised username password → Accepted config advertised username' password' →
      let run := t.login (config.bearing username password) advertised now later
      let run' := t'.login (config.bearing username' password') advertised now' later'
      run.2.1.settled = true → run'.2.1.settled = true →
      run.2.2.stream.outbound.log = run'.2.2.stream.outbound.log ∧ Event.replies run.1 = Event.replies run'.1 ∧
        run.2.1.result? = run'.2.1.result?) ∧
    ∀ (peer peer' : Peer) (begun begun' : Nat) (polls polls' : List Nat),
      Attempt.ConnectsAlike peer.connect peer'.connect →
      let run := Attempt.follow (config.bearing username password) peer begun polls
      let run' := Attempt.follow (config.bearing username' password') peer' begun' polls'
      (∀ answer ∈ Event.answers run.1, ∀ answer' ∈ Event.answers run'.1, answer = answer') →
      Admits config run.1 username password → Admits config run'.1 username' password' →
      run.2.settled = true → run'.2.settled = true →
      run.2.written.log = run'.2.written.log ∧ Event.replies run.1 = Event.replies run'.1 ∧
        run.2.result? = run'.2.result? := by
  refine ⟨fun m initial text => ⟨Command.masked_auth_none m, Command.masked_auth_some m initial,
    Command.masked_response text⟩, ?_, ?_⟩
  · intro advertised t t' now now' later later' ht h h' run run' hs hs'
    obtain ⟨hsights, hresult⟩ := login_alike ht h h' hs hs'
    refine ⟨?_, Event.replies_of_sights hsights, hresult⟩
    have hrecord : run.2.2.stream.outbound = t.stream.outbound.adding (Event.lines run.1) :=
      Dialogue.follow_outbound ..
    have hrecord' : run'.2.2.stream.outbound = t'.stream.outbound.adding (Event.lines run'.1) :=
      Dialogue.follow_outbound ..
    rw [hrecord, hrecord']
    exact Outbound.log_sights ht.log hsights
  · intro peer peer' begun begun' polls polls' hconnect run run' hanswers ha ha' hs hs'
    have hstage := Attempt.follow_stage (config.bearing username password) peer begun polls
    have hstage' := Attempt.follow_stage (config.bearing username' password') peer' begun' polls'
    obtain ⟨hlog, hsights, hresult⟩ := hstage.alike hstage' hconnect hanswers ha ha' hs hs'
    exact ⟨hlog, Event.replies_of_sights hsights, hresult⟩

/-! Servers that say the same as others, in other pieces and with pauses. -/

def pausing : Transport :=
  new { arrivals := [.data "23".toUTF8.toList, .delay 4, .data "5 welcome\r\n".toUTF8.toList] }

def hesitant : Peer where
  delay := 1
  connect := .ok { arrivals := [
    .data "220 mx re".toUTF8.toList, .delay 2, .data "ady\r\n250-mx\r\n250 STARTTLS\r\n".toUTF8.toList,
    .data "220 go\r\n250 stale\r\n".toUTF8.toList] }
  upgrade := fun _ => .ok [
    .data "250-mx\r\n250 AUTH LOGIN\r\n3".toUTF8.toList, .delay 5,
    .data "34 VXNlcg==\r\n334 UGFzcw==\r\n235 ok\r\n".toUTF8.toList]

theorem secrets_unseen_hesitant :
    let config : Config := { host := "mx" }
    let login := accepting.login (config.bearing "u" "p") ["PLAIN"] 0 []
    let login' := pausing.login (config.bearing "somebody" "and their secret") ["PLAIN"] 0 [4]
    let run := Attempt.follow (config.bearing "u" "p") Attempt.wary 0 [0]
    let run' := Attempt.follow (config.bearing "somebody" "and their secret") hesitant 0 [1, 3, 8]
    (Event.lines login.1 ≠ Event.lines login'.1 ∧ login'.2.2.stream.outbound.log = ["AUTH PLAIN <redacted>"] ∧
      login'.2.1.result? = some (.ok (.authenticated .plain))) ∧
    Event.lines run.1 ≠ Event.lines run'.1 ∧
      run'.2.written.log = ["EHLO localhost", "STARTTLS", "EHLO localhost", "AUTH LOGIN", "<redacted>", "<redacted>"] ∧
      (Event.replies run'.1).length = 7 ∧
      run'.2.result? = some (.ok ⟨{ hostname := "mx", extensions := [.auth ["LOGIN"]] }, .authenticated .login⟩) := by
  intro config login login' run run'
  have haccepted : ∀ m, ¬ Sasl.Refuses m "u" "p" := by
    intro m
    cases m <;> simp [Sasl.Refuses, Sasl.nul, Sasl.controlA]
  have haccepted' : ∀ m, ¬ Sasl.Refuses m "somebody" "and their secret" := by
    intro m
    cases m <;> simp [Sasl.Refuses, Sasl.nul, Sasl.controlA]
  have hsettled : login.2.1.settled = true ∧ login'.2.1.settled = true ∧ run.2.settled = true ∧ run'.2.settled = true ∧
      ∀ answer ∈ Event.answers run.1, ∀ answer' ∈ Event.answers run'.1, answer = answer' := by decide +kernel
  obtain ⟨hl, hl', hr, hr', hanswers⟩ := hsettled
  obtain ⟨-, hlogin, hattempt⟩ := secrets_unseen config "u" "p" "somebody" "and their secret"
  obtain ⟨hlog, -, hresult⟩ := hlogin ["PLAIN"] accepting pausing 0 0 [] [4]
    ⟨by decide +kernel, by decide +kernel, by decide +kernel⟩ (fun _ m _ => haccepted m) (fun _ m _ => haccepted' m)
    hl hl'
  obtain ⟨hlog', hreplies', hresult'⟩ := hattempt Attempt.wary hesitant 0 0 [0] [1, 3, 8]
    (.gives ⟨by decide +kernel, by decide +kernel, by decide +kernel⟩) hanswers
    (fun _ _ m _ _ => haccepted m) (fun _ _ m _ _ => haccepted' m) hr hr'
  rw [← hlog, ← hresult, ← hlog', ← hreplies', ← hresult']
  decide +kernel

end Transport

end SmtpClient
