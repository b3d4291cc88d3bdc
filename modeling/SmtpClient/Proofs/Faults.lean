/-
Where `poolClosed` comes from: a pool gives it, or a connector does. No
stream, no reply and no dialogue over a stream can (`Attempt.poll_poolClosed`).
-/
import SmtpClient.Attempt

namespace SmtpClient

variable {σ β : Type}

/-! ## Conversations -/

/-- All errors that a conversation can end with. -/
structure Conversation.Errors (k : Conversation σ β) (P : Error → Prop) : Prop where
  feed : ∀ s byte e, k.feed s byte = .done (.error e) → P e
  finish : ∀ s, P (k.finish s)
  stream : ∀ text, P (.stream (.other text))

namespace Conversation.Errors

variable {k : Conversation σ β} {P : Error → Prop} {e : Error} {out out' : Outbound} {t t' : Transport}
  {now : Nat}

theorem write {command : Command} (h : k.Errors P) (hw : out.write command = (.error e, out')) : P e := by
  simp only [Outbound.write] at hw
  split at hw
  · simp only [Prod.mk.injEq] at hw
    obtain ⟨he, -⟩ := hw
    split at he <;> cases he
    exact h.stream _
  · simp at hw

theorem consume (h : k.Errors P) {bytes unread : List UInt8} {s : σ}
    (hc : k.consume s out bytes = (.done (.error e) unread, out')) : P e := by
  induction bytes generalizing s out with
  | nil => simp [Conversation.consume] at hc
  | cons byte bytes ih =>
    simp only [Conversation.consume] at hc
    split at hc
    · exact ih hc
    · split at hc
      · exact ih hc
      · next hw => cases hc; exact h.write hw
    · next hf => cases hc; exact h.feed _ _ _ hf

theorem receive (h : k.Errors P) {arrivals : List Arrival} {s : σ}
    (hr : k.receive now s out arrivals = (.ready (.error e), t)) : P e := by
  induction arrivals generalizing s out with
  | nil => simp only [Conversation.receive] at hr; cases hr; exact h.finish s
  | cons arrival rest ih =>
    cases arrival with
    | data bytes =>
      simp only [Conversation.receive] at hr
      split at hr
      · exact ih hr
      · next hc => cases hr; exact h.consume hc
    | delay ms =>
      simp only [Conversation.receive] at hr
      split at hr
      · exact ih hr
      · cases hr
    | due time =>
      simp only [Conversation.receive] at hr
      split at hr
      · exact ih hr
      · cases hr
    | fault text => simp only [Conversation.receive] at hr; cases hr; exact h.stream text
    | stall => simp only [Conversation.receive] at hr; cases hr

theorem poll (h : k.Errors P) {s : σ} (hp : t.poll k now s = (.ready (.error e), t')) : P e := by
  simp only [Transport.poll] at hp
  split at hp
  · exact h.receive hp
  · next hc => cases hp; exact h.consume hc

end Conversation.Errors

/-! ## Replies and dialogues -/

/-- What can go wrong between a client and the bytes of a server. -/
def Error.isWire : Error → Bool
  | stream _ | protocol _ | connectionClosed => true
  | _ => false

theorem Error.isWire_ne_poolClosed {e : Error} (h : e.isWire = true) : e ≠ .poolClosed := by
  rintro rfl
  cases h

theorem LineReader.finish_error {r : LineReader} {e : Error} (h : r.finish = .error e) : e.isWire = true := by
  simp only [finish] at h
  split at h
  · cases h; rfl
  split at h
  · cases h
  split at h <;> cases h <;> rfl

theorem Reply.ofLines_error {lines : List String} {e : Error} (h : Reply.ofLines lines = .error e) :
    e.isWire = true := by
  have htexts : ∀ lines e, Reply.textsOf lines = .error e → e.isWire = true := by
    intro lines
    induction lines with
    | nil => intro e h; cases h
    | cons line lines ih =>
      intro e h
      simp only [textsOf] at h
      split at h
      · cases hl : textsOf lines with
        | ok texts => rw [hl] at h; cases h
        | error e' => rw [hl] at h; cases h; exact ih _ hl
      · cases h; rfl
  simp only [ofLines] at h
  split at h
  · cases h; rfl
  split at h
  · cases h; rfl
  · next first rest _ code _ =>
    cases hl : textsOf (first :: rest) with
    | ok texts => rw [hl] at h; cases h
    | error e' => rw [hl] at h; cases h; exact htexts _ _ hl

namespace ReplyReader

theorem feed_error {r : ReplyReader} {byte : UInt8} {e : Error} (h : r.feed byte = .done (.error e)) :
    e.isWire = true := by
  simp only [feed] at h
  split at h
  · cases h
  · next hl =>
    cases h
    simp only [LineReader.feed] at hl
    split at hl
    · exact LineReader.finish_error (Fed.done.inj hl)
    · cases hl
  · simp only [take] at h
    split at h
    · cases h
    split at h
    · exact Reply.ofLines_error (Fed.done.inj h)
    split at h
    · cases h; rfl
    · cases h

theorem finish_error (r : ReplyReader) : r.finish.isWire = true := by
  simp only [finish]
  split
  · next h => exact LineReader.finish_error h
  · rfl

end ReplyReader

theorem Dialogue.conversation_errors {d : Dialogue σ β} {P : Error → Prop} (hwire : ∀ e, e.isWire = true → P e)
    (hd : ∀ s reply e, d s reply = .error e → P e) : d.conversation.Errors P := by
  refine ⟨?_, fun s => hwire _ (ReplyReader.finish_error _), fun text => hwire _ rfl⟩
  rintro ⟨s, reader⟩ byte e h
  simp only [Dialogue.conversation] at h
  split at h
  · cases h
  · next hf => cases h; exact hwire _ (ReplyReader.feed_error hf)
  split at h
  · next hm => cases h; exact hd _ _ _ hm
  · cases h
  · cases h

/-! ## Login and handshake -/

namespace AuthSession

variable {s s' : AuthSession} {e e' : Error}

theorem fail_error (hne : e' ≠ .poolClosed) (h : s.fail e' = (.error e, s')) : e ≠ .poolClosed := by
  cases h; exact hne

theorem forgo_error (hne : e' ≠ .poolClosed) (h : s.forgo e' = (.error e, s')) : e ≠ .poolClosed := by
  simp only [forgo] at h
  split at h
  · exact fail_error hne h
  · cases h

theorem choose_error {username password : String} {allowed : List String}
    (h : Sasl.choose username password allowed = .error e) : e ≠ .poolClosed := by
  simp only [Sasl.choose] at h
  split at h
  · cases h
  next kind _ =>
  cases hc : Sasl.Client.new kind username password with
  | ok client => rw [hc] at h; cases h
  | error e' =>
    rw [hc] at h
    cases h
    cases kind <;> simp only [Sasl.Client.new, Sasl.Client.ofPlain, Sasl.Client.ofBearer, reduceCtorEq] at hc <;>
      (split at hc <;> cases hc; simp)

theorem start_error (h : s.start = (.error e, s')) : e ≠ .poolClosed := by
  simp only [start] at h
  split at h
  · cases h; simp
  split at h
  · cases h
  split at h
  · split at h
    · exact forgo_error (by simp) h
    · simp only [begin] at h
      split at h
      · next hc => exact fail_error (choose_error hc) h
      · exact fail_error (by simp) h
      · cases h
  · exact forgo_error (by simp) h

theorem advance_error {reply : Reply} (h : s.advance reply = (.error e, s')) : e ≠ .poolClosed := by
  simp only [advance] at h
  split at h
  · split at h
    · cases h; simp
    split at h
    · cases h
    · exact fail_error (by simp) h
    · simp only [respond] at h
      split at h
      · exact fail_error (by simp) h
      split at h
      · exact fail_error (by simp) h
      · cases h
  · cases h; simp

end AuthSession

namespace Handshake

variable {ch : Channel} {e : Error}

theorem loginMove_error {info : ServerInfo} {r : Except Error AuthAction × AuthSession}
    (hr : ∀ e s, r = (.error e, s) → e ≠ .poolClosed) (h : loginMove ch info r = .error e) : e ≠ .poolClosed := by
  obtain ⟨action, s⟩ := r
  cases action with
  | error e' => cases h; exact hr _ _ rfl
  | ok action => cases action <;> cases h

theorem expectReady_error {reply : Reply} (h : expectReady reply = .error e) : e ≠ .poolClosed := by
  simp only [expectReady] at h
  split at h
  · cases h
  split at h <;> cases h <;> simp [Error.ofReply]

theorem afterHello_error {config : Config} {info : ServerInfo} (h : afterHello config ch info = .error e) :
    e ≠ .poolClosed := by
  have hlogin : ∀ {ch}, beginLogin config ch info = .error e → e ≠ .poolClosed := fun h =>
    loginMove_error (fun _ _ => AuthSession.start_error) h
  cases ch with
  | clear =>
    simp only [afterHello] at h
    split at h
    · split at h <;> cases h
      simp
    · exact hlogin h
  | secured => exact hlogin h

theorem advance_error (config : Config) (phase : Phase ch) (reply : Reply)
    (h : advance config phase reply = .error e) : e ≠ .poolClosed := by
  have hready : ∀ {next : Next ch},
      (expectReady reply >>= fun _ => pure next) = (.error e : Except Error (Next ch)) → e ≠ .poolClosed := by
    intro next h
    cases hr : expectReady reply with
    | ok u => rw [hr] at h; cases h
    | error e' => rw [hr] at h; cases h; exact expectReady_error hr
  cases phase with
  | greeting => exact hready h
  | ehlo hostname =>
    simp only [advance] at h
    split at h
    · exact afterHello_error h
    · cases h
  | helo hostname =>
    simp only [advance] at h
    split at h
    · exact afterHello_error h
    · cases h; simp [Error.ofReply]
  | startTls hostname => exact hready h
  | login info session => exact loginMove_error (fun _ _ => AuthSession.advance_error) h

theorem conversation_errors (config : Config) :
    (Dialogue.conversation (advance config : Dialogue (Phase ch) (Outcome ch))).Errors (· ≠ .poolClosed) :=
  Dialogue.conversation_errors (fun _ => Error.isWire_ne_poolClosed) fun phase reply _ =>
    advance_error config phase reply

end Handshake

/-! ## Attempts -/

namespace Attempt

/-- The handshake in clear came to the upgrade, and the connector refuses it. -/
def UpgradeRefused (peer : Peer) (e : Error) :
    Poll (Handshake.Phase .clear × ReplyReader) (Handshake.Outcome .clear) × Transport → Prop
  | (.ready (.ok (.upgrade _)), t) => peer.upgrade t.stream.arrivals = .error e
  | _ => False

/-- The connector itself answers with this error when the attempt goes on. -/
def Refused (config : Config) (now : Nat) (e : Error) : Attempt → Prop
  | connecting _ peer =>
    peer.connect = .error e ∨ ∃ stream, peer.connect = .ok stream ∧ UpgradeRefused peer e
      ((Transport.new stream).poll (Dialogue.conversation (Handshake.advance config)) now (.greeting, {}))
  | clear peer t state =>
    UpgradeRefused peer e (t.poll (Dialogue.conversation (Handshake.advance config)) now state)
  | secured .. => False

variable {config : Config} {now : Nat} {o : Outbound}

theorem onSecured_poolClosed
    {r : Poll (Handshake.Phase .secured × ReplyReader) (Handshake.Outcome .secured) × Transport}
    (hr : ∀ e t, r = (.ready (.error e), t) → e ≠ .poolClosed) : onSecured r ≠ .failed .poolClosed o := by
  intro h
  unfold onSecured at h
  split at h
  · cases h
  · cases h; exact hr _ _ rfl rfl
  · cases h

theorem begin_error {d : Dialogue σ β} {first : Except Error (Move σ β)} {t t' : Transport} {e : Error}
    (hfirst : ∀ e, first = .error e → e ≠ .poolClosed) (hd : d.conversation.Errors (· ≠ .poolClosed))
    (h : d.begin first now t = (.ready (.error e), t')) : e ≠ .poolClosed := by
  unfold Dialogue.begin at h
  split at h
  · cases h; exact hfirst _ rfl
  · cases h
  · split at h
    · exact hd.poll h
    · next hw =>
      cases h
      simp only [Transport.write, Prod.mk.injEq] at hw
      exact hd.write (Prod.ext hw.1 rfl)

theorem onClear_poolClosed {peer : Peer}
    {r : Poll (Handshake.Phase .clear × ReplyReader) (Handshake.Outcome .clear) × Transport}
    (hr : ∀ e t, r = (.ready (.error e), t) → e ≠ .poolClosed)
    (h : onClear config now peer r = .failed .poolClosed o) : UpgradeRefused peer .poolClosed r := by
  unfold onClear at h
  split at h
  · cases h
  · cases h; exact absurd rfl (hr _ _ rfl)
  · cases h
  · next t hostname =>
    simp only [secure] at h
    split at h
    · next he => cases h; exact he
    · refine absurd h (onSecured_poolClosed fun e t hb => ?_)
      exact begin_error (fun e he => by cases he) (Handshake.conversation_errors config) hb

/-- An attempt fails with `poolClosed` only if the connector says so. -/
theorem poll_poolClosed {attempt : Attempt} (h : attempt.poll config now = .failed .poolClosed o) :
    attempt.Refused config now .poolClosed := by
  have herrors : ∀ {ch e} {t t' : Transport} {s : Handshake.Phase ch × ReplyReader},
      t.poll (Dialogue.conversation (Handshake.advance config)) now s = (.ready (.error e), t') → e ≠ .poolClosed :=
    fun hp => (Handshake.conversation_errors config).poll hp
  cases attempt with
  | connecting ready peer =>
    simp only [poll] at h
    split at h
    · cases h
    split at h
    · next hc => cases h; exact .inl hc
    · next stream hc => exact .inr ⟨stream, hc, onClear_poolClosed (fun _ _ => herrors) h⟩
  | clear peer t state => exact onClear_poolClosed (fun _ _ => herrors) h
  | secured t state => exact absurd h (onSecured_poolClosed fun _ _ => herrors)

end Attempt

end SmtpClient
