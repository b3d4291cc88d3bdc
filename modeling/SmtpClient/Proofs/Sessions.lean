/-
Servers that answer each line once, in order. A dialogue gets the answers one
by one (`Dialogue.poll_awaits`), so that when an attempt has opened a
connection nothing is unread but the answers to the lines to come
(`Attempt.poll_said`).
-/
import Mathlib.Data.List.Basic
import SmtpClient.Proofs.Input

namespace SmtpClient

variable {σ β : Type}

theorem Outbound.write_ok {o o' : Outbound} {command : Command} (h : o.write command = (.ok (), o')) :
    o' = { o with attempted := o.attempted ++ [command] } := by
  simp only [write] at h
  split at h <;> exact (congrArg Prod.snd h).symm

/-! ## Dialogues -/

namespace Dialogue

variable {d : Dialogue σ β} {P : σ → Outbound → List Answer → Prop} {now : Nat} {t t' : Transport}
  {state state' : σ × ReplyReader}

/-- The dialogue waits for the first of some answers, and these are all that
is on its way, with what it has read of the first. -/
def Awaits (P : σ → Outbound → List Answer → Prop) (state : σ × ReplyReader) (t : Transport) : Prop :=
  ∃ taken answers, ({} : ReplyReader).read taken = .more state.2 ∧ taken ++ t.unread = wire answers ∧
    P state.1 t.stream.outbound answers

/-- With each line that is sent one answer is used up. -/
def Keeps (d : Dialogue σ β) (P : σ → Outbound → List Answer → Prop) : Prop :=
  ∀ s out a later command s' out', P s out (a :: later) → d s a.reply = .ok (.send command s') →
    out.write command = (.ok (), out') → P s' out' later

/-- Where a dialogue is that has used some bytes, with these behind them. -/
inductive Follows (d : Dialogue σ β) (P : σ → Outbound → List Answer → Prop) (behind : List UInt8) :
    Consumed (σ × ReplyReader) β → Outbound → Prop where
  | hungry {s : σ} {reader : ReplyReader} {out : Outbound} {taken : List UInt8} {answers : List Answer} :
    ({} : ReplyReader).read taken = .more reader → taken ++ behind = wire answers → P s out answers →
    Follows d P behind (.hungry (s, reader)) out
  | finish {s : σ} {out : Outbound} {a : Answer} {later : List Answer} {b : β} {unread : List UInt8} :
    P s out (a :: later) → d s a.reply = .ok (.finish b) → unread ++ behind = wire later →
    Follows d P behind (.done (.ok b) unread) out
  | error {e : Error} {unread : List UInt8} {out : Outbound} : Follows d P behind (.done (.error e) unread) out

theorem consume_follows (hk : d.Keeps P) {s : σ} {reader : ReplyReader} {out : Outbound} {answers : List Answer}
    {taken xs behind : List UInt8} (hr : ({} : ReplyReader).read taken = .more reader)
    (hall : taken ++ (xs ++ behind) = wire answers) (hp : P s out answers) :
    Follows d P behind (d.conversation.consume (s, reader) out xs).1
      (d.conversation.consume (s, reader) out xs).2 := by
  induction xs generalizing taken s reader out answers with
  | nil => exact .hungry hr hall hp
  | cons byte xs ih =>
    have hfed : ({} : ReplyReader).read (taken ++ [byte]) = reader.read [byte] := ReplyReader.read_more hr _
    have hall' : (taken ++ [byte]) ++ (xs ++ behind) = wire answers := by rw [← hall]; simp
    cases hf : reader.feed byte with
    | more reader' =>
      have hmore : ({} : ReplyReader).read (taken ++ [byte]) = .more reader' := by
        rw [hfed]; simp only [ReplyReader.read, hf]
      simp only [Conversation.consume, conversation, hf]
      exact ih hmore hall' hp
    | done result =>
      cases result with
      | error e =>
        simp only [Conversation.consume, conversation, hf]
        exact .error
      | ok reply =>
        -- What was read is the first answer, and no more than that.
        have hdone : ({} : ReplyReader).read (taken ++ [byte]) = .done (.ok reply, []) := by
          rw [hfed]; simp only [ReplyReader.read, hf]
        have hread := ReplyReader.read_done hdone (xs ++ behind)
        rw [hall'] at hread
        cases answers with
        | nil => cases hread
        | cons a later =>
          rw [Answer.wire_cons, a.read] at hread
          simp only [Fed.done.injEq, Prod.mk.injEq, Except.ok.injEq, List.nil_append] at hread
          obtain ⟨rfl, hlater⟩ := hread
          simp only [Conversation.consume, conversation, hf]
          cases hm : d s a.reply with
          | error e => exact .error
          | ok move =>
            cases move with
            | finish b => exact .finish hp hm hlater.symm
            | send command s' =>
              simp only
              cases hw : out.write command with
              | mk wrote out' =>
                cases wrote with
                | error e => exact .error
                | ok u =>
                  have hnext : [] ++ (xs ++ behind) = wire later := hlater.symm
                  exact ih rfl hnext (hk s out a later command s' out' hp hm hw)

theorem poll_awaits {wake : Option Nat} (hk : d.Keeps P) (ha : Awaits P state t)
    (h : t.poll d.conversation now state = (.pending wake state', t')) : Awaits P state' t' := by
  obtain ⟨taken, answers, hr, hall, hp⟩ := ha
  obtain ⟨used, he, hu⟩ := Transport.poll_used h
  rw [he] at hall
  have hf := consume_follows hk hr hall hp
  cases hu with
  | pending hc =>
    rw [hc] at hf
    cases hf with
    | hungry hr' hall' hp' => exact ⟨_, _, hr', hall', hp'⟩

theorem poll_finish {b : β} (hk : d.Keeps P) (ha : Awaits P state t)
    (h : t.poll d.conversation now state = (.ready (.ok b), t')) :
    ∃ s a later, P s t'.stream.outbound (a :: later) ∧ d s a.reply = .ok (.finish b) ∧ t'.unread = wire later := by
  obtain ⟨taken, answers, hr, hall, hp⟩ := ha
  obtain ⟨used, he, hu⟩ := Transport.poll_used h
  rw [he] at hall
  have hf := consume_follows hk hr hall hp
  cases hu with
  | ok hc =>
    rw [hc] at hf
    cases hf with
    | finish hp' hm hlater => exact ⟨_, _, _, hp', hm, hlater⟩

end Dialogue

/-! ## Sessions -/

/-- What a server says in one session: its greeting and an answer to each
line, with those after STARTTLS on the secured channel. -/
structure Session where
  greeting : Answer
  clear : List Answer
  secured : List Answer

/-- A peer that says this and nothing else. -/
structure Peer.Says (peer : Peer) (session : Session) : Prop where
  clear : ∀ stream, peer.connect = .ok stream → stream.outbound.attempted = [] ∧
    Arrival.incoming stream.arrivals = wire (session.greeting :: session.clear)
  secured : ∀ unread arrivals, peer.upgrade unread = .ok arrivals → Arrival.incoming arrivals = wire session.secured

/-- The peer that sends all of a session at once. -/
def Session.peer (session : Session) : Peer where
  connect := .ok { arrivals := [.data (wire (session.greeting :: session.clear))] }
  upgrade := fun _ => .ok [.data (wire session.secured)]

theorem Session.peer_said (session : Session) : session.peer.Says session := by
  refine ⟨fun stream hc => ?_, fun unread arrivals hu => ?_⟩
  · cases hc
    exact ⟨rfl, List.append_nil _⟩
  · cases hu
    exact List.append_nil _

/-- The answers to the lines that a client will write on an open connection,
where it has written these. -/
def Session.ahead (session : Session) (config : Config) (written : List Command) : List Answer :=
  if config.security = .startTls then session.secured.drop (written.length - (written.idxOf .startTls + 1))
  else session.clear.drop written.length

/-- The lines written on an open connection: with STARTTLS if it is asked for. -/
def Opened (config : Config) (written : List Command) : Prop :=
  config.security = .startTls → .startTls ∈ written

theorem Session.ahead_write {config : Config} {written : List Command} (h : Opened config written)
    (session : Session) (command : Command) :
    session.ahead config (written ++ [command]) = (session.ahead config written).drop 1 := by
  unfold ahead
  split
  · next hs =>
    have hlt : written.idxOf .startTls < written.length := List.idxOf_lt_length_iff.2 (h hs)
    rw [List.idxOf_append_of_mem (h hs), List.drop_drop, List.length_append]
    congr 1
    simp only [List.length_singleton]
    omega
  · rw [List.drop_drop, List.length_append, List.length_singleton]

/-! ## Handshakes -/

namespace Handshake

variable {config : Config} {session : Session} {number : Nat} {now : Nat}

/-- What was written in clear up to a phase: STARTTLS comes last, and only if
it is asked for. -/
def Wrote (config : Config) (written : List Command) : Phase .clear → Prop
  | .startTls _ => config.security = .startTls ∧ ∃ before, written = before ++ [.startTls] ∧ .startTls ∉ before
  | .login .. => config.security ≠ .startTls
  | _ => .startTls ∉ written

/-- In clear the greeting stands before the answers. -/
def ClearSays (config : Config) (session : Session) (number : Nat) (phase : Phase .clear) (out : Outbound)
    (answers : List Answer) : Prop :=
  out.number = number ∧ answers = (session.greeting :: session.clear).drop out.attempted.length ∧
    Wrote config out.attempted phase

/-- On a secured channel the answers are counted from the upgrade. -/
def SecuredSays (config : Config) (session : Session) (number : Nat) (_ : Phase .secured) (out : Outbound)
    (answers : List Answer) : Prop :=
  out.number = number ∧ config.security = .startTls ∧ ∃ before after, out.attempted = before ++ .startTls :: after ∧
    .startTls ∉ before ∧ after ≠ [] ∧ answers = session.secured.drop (after.length - 1)

/-- The login sends no line but its own. -/
theorem loginMove_send {ch : Channel} {info : ServerInfo} {r : Except Error AuthAction × AuthSession}
    {command : Command} {phase : Phase ch} (h : loginMove ch info r = .ok (.send command phase)) :
    ∃ s, r = (.ok (.send command), s) ∧ phase = .login info s := by
  obtain ⟨action, s⟩ := r
  cases action with
  | error e => cases h
  | ok action =>
    cases action with
    | send c => cases h; exact ⟨s, rfl, rfl⟩
    | done auth => cases h

theorem loginMove_finish {ch : Channel} {info : ServerInfo} {r : Except Error AuthAction × AuthSession}
    {outcome : Outcome ch} (h : loginMove ch info r = .ok (.finish outcome)) :
    ∃ auth s, r = (.ok (.done auth), s) ∧ outcome = .ready { info, auth } := by
  obtain ⟨action, s⟩ := r
  cases action with
  | error e => cases h
  | ok action =>
    cases action with
    | send c => cases h
    | done auth => cases h; exact ⟨auth, s, rfl, rfl⟩

/-- What a client says after the hello in clear: STARTTLS if that is asked for
and else the login. -/
theorem afterHello_clear {info : ServerInfo} {next : Next .clear} (h : afterHello config .clear info = .ok next) :
    (config.security = .startTls ∧ info.supportsStartTls = true ∧ next = .send .startTls (.startTls info.hostname)) ∨
    (config.security ≠ .startTls ∧ beginLogin config .clear info = .ok next) := by
  simp only [afterHello] at h
  split at h
  · next hs =>
    split at h
    · next ho => cases h; exact .inl ⟨hs, ho, rfl⟩
    · cases h
  · next hs => exact .inr ⟨hs, h⟩

theorem expectReady_bind {α : Type} {reply : Reply} {next : α} {value : α}
    (h : (expectReady reply >>= fun _ => pure value) = (.ok next : Except Error α)) :
    reply.code = .serviceReady ∧ next = value := by
  unfold expectReady at h
  split at h
  · next hc => cases h; exact ⟨hc, rfl⟩
  · split at h <;> cases h

theorem keeps_clear (config : Config) (session : Session) (number : Nat) :
    Dialogue.Keeps (advance config) (ClearSays config session number) := by
  intro phase out a later command phase' out' ⟨hnumber, hanswers, hphase⟩ hm hw
  obtain rfl := Outbound.write_ok hw
  have hlater : later = (session.greeting :: session.clear).drop (out.attempted ++ [command]).length := by
    rw [List.length_append, List.length_singleton, ← List.drop_drop, ← hanswers, List.drop_one, List.tail_cons]
  refine ⟨hnumber, hlater, ?_⟩
  have hhello : ∀ {info}, .startTls ∉ out.attempted →
      afterHello config .clear info = .ok (.send command phase') →
      Wrote config (out.attempted ++ [command]) phase' := by
    intro info hnot h
    rcases afterHello_clear h with ⟨hs, -, he⟩ | ⟨hs, hlogin⟩
    · cases he
      exact ⟨hs, _, rfl, hnot⟩
    · obtain ⟨s, -, rfl⟩ := loginMove_send hlogin
      exact hs
  cases phase with
  | greeting =>
    cases (expectReady_bind hm).2
    simpa [Wrote] using hphase
  | ehlo hostname =>
    simp only [advance] at hm
    split at hm
    · exact hhello hphase hm
    · cases hm; simpa [Wrote] using hphase
  | helo hostname =>
    simp only [advance] at hm
    split at hm
    · exact hhello hphase hm
    · cases hm
  | startTls hostname => cases (expectReady_bind hm).2
  | login info s =>
    obtain ⟨s', -, rfl⟩ := loginMove_send hm
    exact hphase

theorem keeps_secured (config : Config) (session : Session) (number : Nat) :
    Dialogue.Keeps (advance config) (SecuredSays config session number) := by
  intro phase out a later command phase' out' ⟨hnumber, hs, before, after, hout, hnot, hne, hanswers⟩ _ hw
  obtain rfl := Outbound.write_ok hw
  refine ⟨hnumber, hs, before, after ++ [command], by simp [hout], hnot, by simp, ?_⟩
  have hpos : 0 < after.length := List.length_pos_iff.2 hne
  have hlen : (after ++ [command]).length - 1 = (after.length - 1) + 1 := by simp; omega
  rw [hlen, ← List.drop_drop, ← hanswers, List.drop_one, List.tail_cons]

/-- The dialogue in clear is over with an open connection that asked for no
upgrade, or with the upgrade. -/
theorem finish_clear {phase : Phase .clear} {out : Outbound} {a : Answer} {later : List Answer}
    {outcome : Outcome .clear} (h : ClearSays config session number phase out (a :: later))
    (hm : advance config phase a.reply = .ok (.finish outcome)) :
    (config.security ≠ .startTls ∧ (∃ est, outcome = .ready est) ∧
      later = session.clear.drop out.attempted.length) ∨
    (config.security = .startTls ∧ (∃ hostname, outcome = .upgrade hostname) ∧
      ∃ before, out.attempted = before ++ [.startTls] ∧ .startTls ∉ before) := by
  obtain ⟨-, hanswers, hphase⟩ := h
  have hlater : later = session.clear.drop out.attempted.length := by
    have htail := congrArg List.tail hanswers
    rwa [List.tail_cons, List.tail_drop, List.drop_succ_cons] at htail
  have hhello : ∀ {info}, afterHello config .clear info = .ok (.finish outcome) →
      config.security ≠ .startTls ∧ (∃ est, outcome = .ready est) ∧
        later = session.clear.drop out.attempted.length := by
    intro info h
    rcases afterHello_clear h with ⟨-, -, he⟩ | ⟨hs, hlogin⟩
    · cases he
    · obtain ⟨auth, s, -, rfl⟩ := loginMove_finish hlogin
      exact ⟨hs, ⟨_, rfl⟩, hlater⟩
  cases phase with
  | greeting => cases (expectReady_bind hm).2
  | ehlo hostname =>
    simp only [advance] at hm
    split at hm
    · exact .inl (hhello hm)
    · cases hm
  | helo hostname =>
    simp only [advance] at hm
    split at hm
    · exact .inl (hhello hm)
    · cases hm
  | startTls hostname =>
    cases (expectReady_bind hm).2
    exact .inr ⟨hphase.1, ⟨hostname, rfl⟩, hphase.2⟩
  | login info s =>
    obtain ⟨auth, s', -, rfl⟩ := loginMove_finish hm
    exact .inl ⟨hphase, ⟨_, rfl⟩, hlater⟩

end Handshake

/-! ## Attempts -/

variable {config : Config} {session : Session} {number : Nat} {now : Nat}

/-- An open transport with nothing unread but the answers to the lines to come. -/
def Transport.InStep (t : Transport) (config : Config) (session : Session) (number : Nat) : Prop :=
  t.stream.outbound.number = number ∧ Opened config t.stream.outbound.attempted ∧
    t.unread = wire (session.ahead config t.stream.outbound.attempted)

namespace Attempt

open Handshake

/-- An attempt at a peer that says this, on a stream with this number. -/
def Says (config : Config) (session : Session) (number : Nat) : Attempt → Prop
  | connecting _ peer =>
    peer.Says session ∧ ∀ stream, peer.connect = .ok stream → stream.outbound.number = number
  | clear peer t state => peer.Says session ∧ Dialogue.Awaits (ClearSays config session number) state t
  | secured t state => Dialogue.Awaits (SecuredSays config session number) state t

def Progress.Says (config : Config) (session : Session) (number : Nat) : Progress → Prop
  | .pending _ attempt => attempt.Says config session number
  | .opened _ t => t.InStep config session number
  | .failed .. => True

theorem onSecured_said {t : Transport} {state : Phase .secured × ReplyReader}
    (h : Dialogue.Awaits (SecuredSays config session number) state t) :
    (onSecured (t.poll (Dialogue.conversation (advance config)) now state)).Says config session number := by
  cases hp : t.poll (Dialogue.conversation (advance config)) now state with
  | mk p t' =>
    cases p with
    | pending wake state' => exact Dialogue.poll_awaits (keeps_secured config session number) h hp
    | ready result =>
      cases result with
      | error e => exact True.intro
      | ok outcome =>
        obtain ⟨phase, a, later, ⟨hnumber, hs, before, after, hout, hnot, hne, hanswers⟩, -, hunread⟩ :=
          Dialogue.poll_finish (keeps_secured config session number) h hp
        cases outcome with
        | ready est =>
          refine ⟨hnumber, fun _ => by simp [hout], ?_⟩
          have hpos : 0 < after.length := List.length_pos_iff.2 hne
          have hidx : t'.stream.outbound.attempted.idxOf .startTls = before.length := by
            rw [hout, List.idxOf_append_of_notMem hnot, List.idxOf_cons_self, Nat.add_zero]
          have hlen : t'.stream.outbound.attempted.length - (before.length + 1) = after.length - 1 + 1 := by
            rw [hout, List.length_append, List.length_cons]
            omega
          rw [hunread, Session.ahead, if_pos hs, hidx, hlen, ← List.drop_drop, ← hanswers, List.drop_one,
            List.tail_cons]

/-- After the upgrade the first line is answered first. -/
theorem secure_said {peer : Peer} {t : Transport} {hostname : String} {before : List Command}
    (hp : peer.Says session) (hnumber : t.stream.outbound.number = number) (hs : config.security = .startTls)
    (hout : t.stream.outbound.attempted = before ++ [.startTls]) (hnot : .startTls ∉ before) :
    (secure config now peer t hostname).Says config session number := by
  simp only [secure]
  split
  · exact True.intro
  next arrivals hu =>
  have hsecured := hp.secured _ _ hu
  simp only [Dialogue.begin, sayEhlo]
  split
  · next t' hw =>
    simp only [Transport.write, Prod.mk.injEq] at hw
    obtain ⟨hok, rfl⟩ := hw
    have hwrote : (t.stream.outbound.write (.ehlo config.ehloHostname)).2 =
        { t.stream.outbound with attempted := t.stream.outbound.attempted ++ [.ehlo config.ehloHostname] } :=
      Outbound.write_ok (Prod.ext hok rfl)
    refine onSecured_said ⟨[], session.secured, rfl, hsecured, ?_⟩
    show SecuredSays config session number _ (t.stream.outbound.write (.ehlo config.ehloHostname)).2 _
    rw [hwrote]
    exact ⟨hnumber, hs, before, [.ehlo config.ehloHostname], by simp [hout], hnot, by simp, rfl⟩
  · exact True.intro

theorem onClear_said {peer : Peer} {t : Transport} {state : Phase .clear × ReplyReader} (hp : peer.Says session)
    (h : Dialogue.Awaits (ClearSays config session number) state t) :
    (onClear config now peer (t.poll (Dialogue.conversation (advance config)) now state)).Says
      config session number := by
  cases hpoll : t.poll (Dialogue.conversation (advance config)) now state with
  | mk p t' =>
    cases p with
    | pending wake state' => exact ⟨hp, Dialogue.poll_awaits (keeps_clear config session number) h hpoll⟩
    | ready result =>
      cases result with
      | error e => exact True.intro
      | ok outcome =>
        obtain ⟨phase, a, later, hsaid, hm, hunread⟩ :=
          Dialogue.poll_finish (keeps_clear config session number) h hpoll
        rcases finish_clear hsaid hm with ⟨hs, ⟨est, rfl⟩, hlater⟩ | ⟨hs, ⟨hostname, rfl⟩, before, hout, hnot⟩
        · refine ⟨hsaid.1, fun hs' => absurd hs' hs, ?_⟩
          rw [hunread, hlater, Session.ahead, if_neg hs]
        · exact secure_said hp hsaid.1 hs hout hnot

theorem poll_said {attempt : Attempt} (h : attempt.Says config session number) :
    (attempt.poll config now).Says config session number := by
  cases attempt with
  | connecting ready peer =>
    simp only [poll]
    split
    · exact h
    split
    · exact True.intro
    next stream hc =>
    obtain ⟨hempty, hall⟩ := h.1.clear stream hc
    refine onClear_said h.1 ⟨[], session.greeting :: session.clear, rfl, hall, h.2 stream hc, ?_, ?_⟩
    · simp only [Transport.new, hempty]; rfl
    · simp only [Transport.new, hempty, Wrote, List.not_mem_nil, not_false_eq_true]
  | clear peer t state => exact onClear_said h.1 h.2
  | secured t state => exact onSecured_said h

end Attempt

end SmtpClient
