/-
What a login sends, round by round. A session remembers its round twice, in its
state and in its client, and both go one round on with every challenge
(`Standing.advance`). So the answers of a whole exchange are the ones that the
mechanism prescribes for its challenges (`exchange_answers`), however long the
server goes on.
-/
import SmtpClient.Proofs.Base64
import SmtpClient.Proofs.Calls
import SmtpClient.Proofs.Messages

namespace SmtpClient

/-! ## Mechanisms -/

namespace Sasl

/-- Bytes in base 16, with small letters. -/
def hexForm (bytes : List UInt8) : List Char :=
  bytes.flatMap fun b =>
    let digits := "0123456789abcdef".toList
    [digits.getD (b.toNat / 16) ' ', digits.getD (b.toNat % 16) ' ']

/-- What the challenge mechanisms answer. -/
def keyedAnswer (hash : Digest.Hash) (username password : String) (challenge : List UInt8) : List UInt8 :=
  Text.Utf8.encode username ++ Text.Utf8.encode " " ++
    Text.Utf8.encode (String.ofList (hexForm (Digest.hmac hash (Text.Utf8.encode password) challenge)))

/-- What a mechanism says without being asked. -/
def unasked? (m : Mechanism) (username password : String) : Option (List UInt8) :=
  match m with
  | .plain | .xoauth2 | .oauthBearer => some (Text.Utf8.encode (Client.message m username password))
  | .login | .cramMd5 | .cramSha1 | .cramSha256 => none

/-- What a mechanism answers to the challenge of a round. -/
def answerTo (m : Mechanism) (username password : String) (round : Nat) (challenge : List UInt8) : List UInt8 :=
  match m, round with
  | .plain, _ | .xoauth2, _ | .oauthBearer, _ => []
  | .login, 0 => Text.Utf8.encode username
  | .login, 1 => Text.Utf8.encode password
  | .login, _ + 2 => []
  | .cramMd5, _ => keyedAnswer .md5 username password challenge
  | .cramSha1, _ => keyedAnswer .sha1 username password challenge
  | .cramSha256, _ => keyedAnswer .sha256 username password challenge

theorem hexPairs_eq (bytes : List UInt8) : Client.hexPairs bytes = hexForm bytes := by
  have hdigit : ∀ n < 16, Nat.digitChar n = "0123456789abcdef".toList.getD n ' ' := by decide
  refine List.flatMap_congr fun b _ => ?_
  have hb := b.toNat_lt
  rw [hdigit (b.toNat / 16) (by omega), hdigit (b.toNat % 16) (by omega)]

theorem cramAnswer_eq (m : Mechanism) (username password : String) (challenge : List UInt8) :
    Client.cramAnswer m username password challenge = keyedAnswer (Client.hashOf m) username password challenge := by
  have htext (cs : List Char) : username ++ String.ofList (' ' :: cs) = username ++ " " ++ String.ofList cs := by
    rw [← String.toList_inj]
    simp
  rw [Client.cramAnswer, hexPairs_eq, htext, Text.Utf8.encode_append, Text.Utf8.encode_append]
  rfl

namespace Client

variable {m : Mechanism} {username password : String}

theorem standing_kind (m : Mechanism) (username password : String) (round : Nat) :
    (standing m username password round).kind = m := by
  cases m <;> rfl

/-- A client answers as its mechanism prescribes, and stands a round further. -/
theorem standing_answer (m : Mechanism) (username password : String) (round : Nat) (challenge : List UInt8) :
    (standing m username password round).answer challenge =
      (answerTo m username password round challenge, standing m username password (round + 1)) := by
  cases m with
  | plain | xoauth2 | oauthBearer => rfl
  | login =>
    match round with
    | 0 | 1 => rfl
    | later + 2 => rfl
  | cramMd5 | cramSha1 | cramSha256 => exact congrArg (·, _) (cramAnswer_eq ..)

theorem message_ne_nil (h : (separator? m).isSome = true) (username password : String) :
    Text.Utf8.encode (message m username password) ≠ [] := by
  intro hnil
  have hmessage : message m username password = "" := Text.Utf8.encode_injective hnil
  rw [← String.toList_inj] at hmessage
  cases m with
  | plain | xoauth2 | oauthBearer => simp [message, plainMessage, bearerMessage, fieldEnd] at hmessage
  | login | cramMd5 | cramSha1 | cramSha256 => cases h

/-- What is said without being asked goes with the first line. -/
theorem beginLine_standing (m : Mechanism) (username password : String) (round : Nat) :
    AuthSession.beginLine (standing m username password round) =
      .auth m ((unasked? m username password).map Text.Base64.encode) := by
  have hspoken (h : (separator? m).isSome = true) : AuthSession.beginLine (standing m username password round) =
      .auth m (some (Text.Base64.encode (Text.Utf8.encode (message m username password)))) := by
    rw [AuthSession.beginLine, standing_kind, opening_standing h,
      if_neg (by simpa using message_ne_nil h username password)]
  cases m with
  | plain | xoauth2 | oauthBearer => exact hspoken rfl
  | login | cramMd5 | cramSha1 | cramSha256 => rfl

end Client

end Sasl

/-! ## Rounds -/

namespace AuthSession

/-- The results of some calls. -/
def results (s : AuthSession) (calls : List Call) : List (Except Error AuthAction) :=
  (s.taken calls).map fun t => (t.1.call t.2).1

theorem results_advance (s : AuthSession) (reply : Reply) (calls : List Call) :
    s.results (.advance reply :: calls) = (s.advance reply).1 :: (s.advance reply).2.results calls := rfl

/-- The bytes for which a text stands. -/
def unpack (text : String) : Except Text.Base64.Fault (List UInt8) :=
  Text.Base64.decode (Text.Utf8.encode text)

/-- A reply that asks for one more line, and gives a challenge for it. -/
def Challenges (reply : Reply) (challenge : List UInt8) : Prop :=
  reply.kind = .proceed ∧ Text.trim reply.lastLine = Text.Base64.encode challenge

instance (reply : Reply) (challenge : List UInt8) : Decidable (Challenges reply challenge) :=
  inferInstanceAs (Decidable (_ ∧ _))

/-- The session waits for the challenge of this round. -/
structure Standing (m : Mechanism) (username password : String) (round : Nat) (s : AuthSession) : Prop where
  client : s.client = some (.standing m username password round)
  state : s.state = .exchanging round

theorem unpack_encode (bytes : List UInt8) : unpack (Text.Base64.encode bytes) = .ok bytes :=
  Text.Base64.decode_eq_ok_iff.2 rfl

variable {m : Mechanism} {username password : String} {round : Nat} {s : AuthSession} {reply : Reply}

namespace Standing

/-- A challenge is answered, and the session stands a round further. -/
theorem advance {challenge : List UInt8} (h : Standing m username password round s) (hc : Challenges reply challenge) :
    (s.advance reply).1 =
      .ok (.send (.response (Text.Base64.encode (Sasl.answerTo m username password round challenge)))) ∧
    Standing m username password (round + 1) (s.advance reply).2 := by
  obtain ⟨hkind, htext⟩ := hc
  have hunpack : Text.Base64.decode (Text.Utf8.encode (Text.trim reply.lastLine)) = .ok challenge := by
    rw [htext]
    exact unpack_encode challenge
  have hadvance : s.advance reply =
      (.ok (.send (.response (Text.Base64.encode (Sasl.answerTo m username password round challenge)))),
        { s with client := some (.standing m username password (round + 1)), state := .exchanging (round + 1) }) := by
    simp only [AuthSession.advance, h.state, h.client, hkind, respond, hunpack, Sasl.Client.standing_answer]
  rw [hadvance]
  exact ⟨rfl, rfl, rfl⟩

/-- Any number of challenges is answered, each as its round prescribes. -/
theorem rounds (h : Standing m username password round s) {rounds : List (Reply × List UInt8)}
    (hr : ∀ r ∈ rounds, Challenges r.1 r.2) :
    s.results (rounds.map fun r => .advance r.1) =
      ((rounds.map Prod.snd).mapIdx fun i => Sasl.answerTo m username password (round + i)).map
        (fun answer => .ok (.send (.response (Text.Base64.encode answer)))) ∧
    Standing m username password (round + rounds.length) (s.after (rounds.map fun r => .advance r.1)) := by
  induction rounds generalizing s round with
  | nil => exact ⟨rfl, h⟩
  | cons r rounds ih =>
    obtain ⟨hr, hrounds⟩ := List.forall_mem_cons.1 hr
    obtain ⟨hsent, hnext⟩ := h.advance hr
    obtain ⟨hlater, hend⟩ := ih hnext hrounds
    have hround (i : Nat) : round + 1 + i = round + (i + 1) := by omega
    simp only [hround] at hlater hend
    refine ⟨?_, hend⟩
    rw [List.map_cons, results_advance, hsent, hlater, List.map_cons, List.mapIdx_cons, Nat.add_zero, List.map_cons]

theorem succeeds (h : Standing m username password round s) (hk : reply.kind = .success) :
    s.advance reply = (.ok (.done (.authenticated m)), { s with state := .success, client := none }) := by
  simp only [AuthSession.advance, h.state, h.client, hk, succeed, Sasl.Client.standing_kind]

theorem fails (h : Standing m username password round s) (hk : reply.kind = .failure) :
    s.advance reply = s.fail (.auth m (reply.code.text ++ " " ++ "\n".intercalate reply.message)) := by
  simp only [AuthSession.advance, h.state, h.client, hk, Sasl.Client.standing_kind]
  rfl

/-- A challenge that is no base64 fails the session. -/
theorem garbled (h : Standing m username password round s) (hk : reply.kind = .proceed)
    (htext : ∀ bytes, Text.trim reply.lastLine ≠ Text.Base64.encode bytes) :
    ∃ fault, s.advance reply = s.fail (.protocol (.badChallenge (Text.trim reply.lastLine) fault)) := by
  simp only [AuthSession.advance, h.state, h.client, hk, respond]
  cases hd : Text.Base64.decode (Text.Utf8.encode (Text.trim reply.lastLine)) with
  | ok bytes => exact absurd (Text.Base64.decode_eq_ok_iff.1 hd) (htext bytes)
  | error fault => exact ⟨fault, rfl⟩

end Standing

/-- A session with credentials that the preferred mechanism accepts begins with
the line of this mechanism. -/
theorem start_standing {config : Config} {advertised : List String} (hlogin : config.login ≠ .disabled)
    (hu : config.username = some username) (hp : config.password = some password)
    (hm : Sasl.preferred (Sasl.selectable advertised config.authMethods) = some m)
    (hr : ¬ Sasl.Refuses m username password) :
    (new config advertised).start.1 =
      .ok (.send (.auth m ((Sasl.unasked? m username password).map Text.Base64.encode))) ∧
    Standing m username password 0 (new config advertised).start.2 := by
  have hallowed : Sasl.selectable advertised config.authMethods ≠ [] :=
    List.ne_nil_of_mem (Sasl.mem_of_preferred hm)
  have hnew : Sasl.Client.new m username password = .ok (.standing m username password 0) :=
    Sasl.Client.new_eq_ok_iff.2 ⟨hr, rfl⟩
  simp only [start, new, ne_eq, not_true_eq_false, if_false, hlogin, hu, hp, hallowed, begin, Sasl.choose, hm, hnew,
    Except.map, Sasl.Client.beginLine_standing]
  exact ⟨trivial, rfl, rfl⟩

/-- **Exchanges of any length are correct.** With a policy to log in, credentials
that the preferred mechanism accepts and replies that each bring a challenge:
the session says the line of this mechanism, with the message that belongs to it,
then the answer to each challenge, and stands in the round after the last one. The
next reply ends it as its class says, and a challenge that is no base64 fails it. -/
theorem exchange_answers {config : Config} (advertised : List String) (m : Mechanism) {username password : String}
    (hlogin : config.login ≠ .disabled) (hu : config.username = some username) (hp : config.password = some password)
    (hm : Sasl.preferred (Sasl.selectable advertised config.authMethods) = some m)
    (hr : ¬ Sasl.Refuses m username password) (rounds : List (Reply × List UInt8))
    (hc : ∀ r ∈ rounds, Challenges r.1 r.2) :
    let start := new config advertised
    let calls := Call.start :: rounds.map fun r => .advance r.1
    let s := start.after calls
    (∃ (initial : Option String) (responses : List String),
      start.results calls = .ok (.send (.auth m initial)) :: responses.map (fun text => .ok (.send (.response text))) ∧
      initial.map unpack = (Sasl.unasked? m username password).map .ok ∧
      responses.map unpack = ((rounds.map Prod.snd).mapIdx (Sasl.answerTo m username password)).map .ok) ∧
    s.state = .exchanging rounds.length ∧
    (∀ reply : Reply, reply.kind = .success →
      s.advance reply = (.ok (.done (.authenticated m)), { s with state := .success, client := none })) ∧
    (∀ reply : Reply, reply.kind = .failure →
      s.advance reply = (.error (.auth m (reply.code.text ++ " " ++ "\n".intercalate reply.message)),
        { s with state := .failure, client := none })) ∧
    ∀ reply : Reply, reply.kind = .proceed → (∀ bytes, Text.trim reply.lastLine ≠ Text.Base64.encode bytes) →
      ∃ fault, s.advance reply = (.error (.protocol (.badChallenge (Text.trim reply.lastLine) fault)),
        { s with state := .failure, client := none }) := by
  intro start calls s
  obtain ⟨hfirst, hbegun⟩ := start_standing hlogin hu hp hm hr
  obtain ⟨hanswers, hend⟩ := hbegun.rounds hc
  rw [Nat.zero_add] at hend
  refine ⟨⟨(Sasl.unasked? m username password).map Text.Base64.encode,
    ((rounds.map Prod.snd).mapIdx (Sasl.answerTo m username password)).map Text.Base64.encode, ?_, ?_, ?_⟩,
    hend.state, fun _ => hend.succeeds, fun _ => hend.fails, fun _ => hend.garbled⟩
  · have hresults : start.results calls =
        start.start.1 :: start.start.2.results (rounds.map fun r => .advance r.1) := rfl
    rw [hresults, hfirst, hanswers]
    simp only [Nat.zero_add, List.map_map]
    rfl
  · simp [Function.comp_def, unpack_encode]
  · simp [Function.comp_def, unpack_encode]

/-- LOGIN with a server that goes on asking. -/
theorem exchange_answers_tireless :
    let config : Config := { host := "mx", username := some "ann", password := some "secret" }
    let asks (text : String) : Reply := ⟨⟨334⟩, [text]⟩
    let rounds := [(asks "VXNlcm5hbWU6", Text.Utf8.encode "Username:"), (asks " UGFzc3dvcmQ6 ",
      Text.Utf8.encode "Password:"), (asks "", [])]
    let start := new config ["LOGIN"]
    let calls := Call.start :: rounds.map fun r => .advance r.1
    let s := start.after calls
    start.results calls = [.ok (.send (.auth .login none)), .ok (.send (.response "YW5u")),
      .ok (.send (.response "c2VjcmV0")), .ok (.send (.response ""))] ∧
    s.state = .exchanging 3 ∧
    s.advance ⟨⟨535⟩, ["no", "way"]⟩ =
      (.error (.auth .login "535 no\nway"), { s with state := .failure, client := none }) ∧
    ∃ fault, s.advance (asks "x") =
      (.error (.protocol (.badChallenge "x" fault)), { s with state := .failure, client := none }) := by
  intro config asks rounds start calls s
  have hrounds : ∀ r ∈ rounds, Challenges r.1 r.2 := by decide +kernel
  have hu : config.username = some "ann" := rfl
  have hp : config.password = some "secret" := rfl
  obtain ⟨-, hstate, -, hfailure, hgarbled⟩ :=
    exchange_answers ["LOGIN"] .login (by decide) hu hp (by decide) id rounds hrounds
  have htrim : Text.trim (asks "x").lastLine = "x" := by decide
  have hodd (bytes : List UInt8) : "x" ≠ Text.Base64.encode bytes := by
    intro hx
    have hread : unpack "x" = .error (.leftover 1) := by decide
    rw [unpack, Text.Base64.decode_eq_ok_iff.2 hx] at hread
    cases hread
  have hlast := hgarbled (asks "x") (by decide)
  rw [htrim] at hlast
  exact ⟨by decide +kernel, hstate, hfailure _ (by decide), hlast hodd⟩

end AuthSession

end SmtpClient
