/-
What becomes of a connection in a step. It stays, changes hands or is used, and
what breaks it is said by `Breaks`; nothing else makes one connection of another
(`Tracked.descends`). So whatever is kept from one to the next holds of a
connection until it is gone (`Tracked.along`).
-/
import SmtpClient.Proofs.Owners
import SmtpClient.Proofs.Pairing

namespace SmtpClient

/-! ## Operations -/

namespace Connection

variable {c c' : Connection} {now : Nat} {r : ReplyReader} {line : Command}

theorem isBroken_of_status (h : c'.status = c.status) : c'.isBroken = c.isBroken := by
  rw [isBroken, isBroken, h]

theorem isBroken_inUse (h : c.status = .inUse) : c.isBroken = false := by
  simp [isBroken, h]

theorem not_closed (h : c.isBroken = false) : c.status ≠ .closed := by
  intro hc
  simp [isBroken, hc] at h

theorem setBroken_broken (h : c.isBroken = true) : c.setBroken = c := by
  rcases (isBroken_eq c).1 h with hs | hs <;> cases c <;> cases hs <;> rfl

theorem setBroken_written (c : Connection) : c.setBroken.written = c.written := by
  rw [written, setBroken_transport, written]

/-- A line is attempted where the connection is not broken. -/
theorem begin_written (h : c.isBroken = false) (line : Command) :
    (c.begin line).2.written = { c.written with attempted := c.written.attempted ++ [line] } := by
  cases hb : c.begin line with
  | mk result c' =>
    cases result with
    | ok r => exact (begin_ok hb).2.2.2
    | error e =>
      simp only [begin, h, Bool.false_eq_true, if_false] at hb
      split at hb
      · cases hb
      next t hw =>
      cases hb
      simp only [Transport.write, Prod.mk.injEq] at hw
      obtain ⟨-, rfl⟩ := hw
      rw [setBroken_written]
      simp only [written, Outbound.write]
      split <;> rfl

/-- Who waits for a reply writes nothing. -/
theorem poll_written (c : Connection) (now : Nat) (r : ReplyReader) : (c.poll now r).2.written = c.written := by
  cases hp : c.transport.poll Transport.reply now r with
  | mk progress t =>
    have hout : t.stream.outbound = c.transport.stream.outbound := by
      obtain ⟨used, -, hu⟩ := Transport.poll_used hp
      cases hu with
      | pending hc | ok hc | failed hc | cut hc =>
        rw [Transport.consume_reply] at hc
        exact (congrArg Prod.snd hc).symm
    simp only [poll, hp]
    split
    · next he => cases he; exact hout
    · next he => cases he; exact (setBroken_written _).trans hout
    · next he =>
      cases he
      dsimp only
      split
      · exact (setBroken_written _).trans hout
      · exact hout

theorem poll_leaves {reply : Reply} (h : c.poll now r = (.ready (.ok reply), c'))
    (hcode : reply.code = .serviceUnavailable) : c'.isBroken = true := by
  simp only [poll] at h
  split at h <;> cases h
  rw [if_pos hcode]
  exact setBroken_isBroken _

/-- A reply breaks a connection if there is none or the server goes away. -/
theorem poll_breaks (h : c.isBroken = false) : (c.poll now r).2.isBroken = true ↔
    (∃ e, (c.poll now r).1 = .ready (.error e)) ∨
      ∃ reply, (c.poll now r).1 = .ready (.ok reply) ∧ reply.code = .serviceUnavailable := by
  cases hp : c.poll now r with
  | mk progress c' =>
    cases progress with
    | pending wake r' =>
      have hsame := isBroken_of_status (poll_pending_status hp)
      simp [hsame, h]
    | ready result =>
      cases result with
      | error e => simp [poll_error hp]
      | ok reply =>
        have hs := poll_ok_status hp (not_closed h)
        by_cases hcode : reply.code = .serviceUnavailable
        · rw [if_pos hcode] at hs
          simp [isBroken, hs, hcode]
        · rw [if_neg hcode] at hs
          simp [isBroken_of_status hs, h, hcode]

/-- A probe leaves a connection unbroken just if the reply is positive. -/
theorem judge_breaks {result : Except Error Reply} (hp : c.poll now r = (.ready result, c')) (h : c.isBroken = false) :
    (c'.judge result).2.isBroken = true ↔ ∀ reply, result = .ok reply → reply.isSuccess = false := by
  cases result with
  | error e => simpa [judge] using poll_error hp
  | ok reply =>
    by_cases hs : reply.isSuccess = true
    · have hcode : reply.code ≠ .serviceUnavailable := by
        intro hc
        rw [Reply.isSuccess, hc] at hs
        cases hs
      have hstatus := poll_ok_status hp (not_closed h)
      rw [if_neg hcode] at hstatus
      simp [judge, hs, isBroken_of_status hstatus, h]
    · simp [judge, hs, setBroken_isBroken]

end Connection

namespace Pool

/-- The connection that an exchange gives back with its result. -/
def Purpose.settled (c : Connection) (result : Except Error Reply) : Purpose → Connection
  | .command _ => c
  | .probe => (c.judge result).2

namespace Service

variable {w w' : Service} {s : Step} {t x : Ticket} {c c' : Connection} {p p' : Place} {owner : String}
  {purpose : Purpose} {line : Command} {reader : ReplyReader} {id : Nat}

/-! ## What happens to connections -/

/-- A task waits for a reply, for this purpose. -/
inductive Awaits (w : Service) (t : Ticket) : Purpose → Connection → ReplyReader → Prop where
  | exchange {owner : String} {purpose : Purpose} {c : Connection} {reader : ReplyReader} :
    w.work? t = some (.exchange owner purpose c (some reader)) → Awaits w t purpose c reader
  | verify {owner : String} {c : Connection} {reader : ReplyReader} :
    w.work? t = some (.acquire owner (.verifying c reader)) → Awaits w t .probe c reader

/-- What breaks a connection: its caller says so, an exchange fails to write or
to read, the server goes away or does not answer a probe with success. -/
inductive Breaks (w : Service) : Step → Connection → Prop where
  | called {owner : String} {c : Connection} : w.held? owner = some c → Breaks w (.request (.setBroken owner)) c
  | unwritten {t : Ticket} {line : Command} {c c' : Connection} {e : Error} : w.line? t = some (line, c) →
    c.begin line = (.error e, c') → Breaks w (.run t) c
  | unanswered {t : Ticket} {purpose : Purpose} {c c' : Connection} {reader : ReplyReader} {e : Error} :
    w.Awaits t purpose c reader → c.poll w.now reader = (.ready (.error e), c') → Breaks w (.run t) c
  | leaves {t : Ticket} {purpose : Purpose} {c c' : Connection} {reader : ReplyReader} {reply : Reply} :
    w.Awaits t purpose c reader → c.poll w.now reader = (.ready (.ok reply), c') →
    reply.code = .serviceUnavailable → Breaks w (.run t) c
  | refused {t : Ticket} {c c' : Connection} {reader : ReplyReader} {reply : Reply} :
    w.Awaits t .probe c reader → c.poll w.now reader = (.ready (.ok reply), c') → reply.isSuccess = false →
    Breaks w (.run t) c

/-- The connection with this identifier is broken by a step. -/
def Spoils (w : Service) (s : Step) (id : Nat) : Prop :=
  ∃ c, w.Breaks s c ∧ c.id = id

/-- What a step makes of a connection. One that is broken stays as it is, where
it is or with a task that closes it. -/
structure Descends (w : Service) (s : Step) (c : Connection) (p : Place) (c' : Connection) (p' : Place) : Prop where
  id : c'.id = c.id
  broken : c.isBroken = true → c' = c ∧ (p' = p ∨ ∃ t, p' = .closing t)
  spoilt : c.isBroken = false → c'.isBroken = true → w.Spoils s c.id
  closing : ∀ t, p = .closing t → p' = p

namespace Descends

theorem stays : w.Descends s c p c p :=
  ⟨rfl, fun _ => ⟨rfl, .inl rfl⟩, fun h h' => absurd (h.symm.trans h') Bool.false_ne_true, fun _ _ => rfl⟩

theorem dismissed (hp : ∀ t, p ≠ .closing t) : w.Descends s c p c (.closing t) :=
  ⟨rfl, fun _ => ⟨rfl, .inr ⟨t, rfl⟩⟩, fun h h' => absurd (h.symm.trans h') Bool.false_ne_true,
    fun t he => absurd he (hp t)⟩

/-- A connection that is used is not broken before. -/
theorem used (hb : c.isBroken = false) (hid : c'.id = c.id) (hs : c'.isBroken = true → w.Spoils s c.id)
    (hp : p' = p ∨ ∀ t, p ≠ .closing t) : w.Descends s c p c' p' :=
  ⟨hid, fun h => absurd (hb.symm.trans h) Bool.false_ne_true, fun _ => hs,
    fun t he => hp.resolve_right fun hnot => hnot t he⟩

/-- It may change hands while it is not broken. -/
theorem passed (hb : c.isBroken = false) (hid : c'.id = c.id) (hb' : c'.isBroken = false)
    (hp : p' = p ∨ ∀ t, p ≠ .closing t) : w.Descends s c p c' p' :=
  used hb hid (fun h => absurd (hb'.symm.trans h) Bool.false_ne_true) hp

/-- A line was begun on it. -/
theorem begun (hb : c.begin line = (.ok reader, c')) : w.Descends s c p c' p :=
  have hsound := (Connection.begin_ok hb).1
  passed hsound (Connection.id_of_begin hb)
    ((Connection.isBroken_of_status (Connection.begin_ok_status hb)).trans hsound) (.inl rfl)

/-- It was waited on for longer. -/
theorem pending {now : Nat} {wake : Option Nat} {reader' : ReplyReader} (hb : c.isBroken = false)
    (hp : c.poll now reader = (.pending wake reader', c')) : w.Descends s c p c' p :=
  passed hb (Connection.id_of_poll hp)
    ((Connection.isBroken_of_status (Connection.poll_pending_status hp)).trans hb) (.inl rfl)

end Descends

/-- A connection that an attempt opened and that is about to be recorded. -/
structure Arises (w : Service) (c : Connection) : Prop where
  named : w.Named c.id
  sound : c.isBroken = false

/-! ### Where they were -/

theorem has_work {work : Work} (ht : w.work? t = some work)
    (ho : Task.owns { ticket := t, work } = some (c, p)) : w.Has c p := by
  obtain ⟨task, hmem, rfl, rfl⟩ := work?_some ht
  exact .task hmem ho

theorem has_held (h : w.held? owner = some c) : w.Has c (.caller owner) := by
  obtain ⟨before, after, he, -⟩ := List.lookup_eq_some_iff.1 h
  exact .held (by rw [he]; exact List.mem_append_right _ List.mem_cons_self)

theorem Released.has (h : Released w s c) : ∃ p, w.Has c p ∧ ∀ t, p ≠ .closing t := by
  cases h with
  | request _ hc => exact ⟨_, has_held hc, by simp⟩
  | giveBack ht => exact ⟨_, has_work ht rfl, by simp⟩

theorem Dismissed.has (h : Dismissed w s c) : ∃ p, w.Has c p ∧ ∀ t, p ≠ .closing t := by
  rcases h with hr | ⟨_, -, l, id, deadline, hl, hmem⟩
  · exact hr.has
  · exact ⟨_, .parked hl hmem, by simp⟩

/-! ### What a reply does -/

theorem settled_id (purpose : Purpose) (c : Connection) (result : Except Error Reply) :
    (purpose.settled c result).id = c.id := by
  cases purpose with
  | command command => rfl
  | probe => exact c.judge_id result

/-- An exchange that breaks a connection has a reason to. -/
theorem Awaits.spoils {result : Except Error Reply} (h : w.Awaits t purpose c reader)
    (hp : c.poll w.now reader = (.ready result, c')) (hb : c.isBroken = false)
    (hb' : (purpose.settled c' result).isBroken = true) : w.Spoils (.run t) c.id := by
  cases result with
  | error e => exact ⟨c, .unanswered h hp, rfl⟩
  | ok reply =>
    by_cases hcode : reply.code = .serviceUnavailable
    · exact ⟨c, .leaves h hp hcode, rfl⟩
    have hstatus := Connection.poll_ok_status hp (Connection.not_closed hb)
    rw [if_neg hcode] at hstatus
    cases purpose with
    | command command =>
      have hsame := (Connection.isBroken_of_status hstatus).trans hb
      exact absurd (hsame.symm.trans hb') Bool.false_ne_true
    | probe => exact ⟨c, .refused h hp ((Connection.judge_breaks hp hb).1 hb' reply rfl), rfl⟩

/-- Whatever is broken when the reply comes is broken when the exchange is over. -/
theorem settled_broken (purpose : Purpose) (result : Except Error Reply) (h : c.isBroken = true) :
    (purpose.settled c result).isBroken = true := by
  cases purpose with
  | command command => exact h
  | probe =>
    rcases c.judge_cases result with he | hb
    · rwa [Purpose.settled, he]
    · exact hb

/-! ### What becomes of them -/

theorem Tracked.arises (h : w.Tracked) {work : Work} (ht : w.work? t = some work)
    (hw : (∃ owner, work = .acquire owner (.opening (.named c))) ∨ ∃ waiter, work = .serve waiter (.named c)) :
    w.Arises c := by
  have hfit := h.fitted.work _ _ ht
  rcases hw with ⟨owner, rfl⟩ | ⟨waiter, rfl⟩
  · exact ⟨⟨t, _, ht, rfl⟩, Connection.isBroken_inUse hfit⟩
  · exact ⟨⟨t, _, ht, rfl⟩, Connection.isBroken_inUse hfit⟩

theorem Tracked.parked_sound (h : w.Tracked) (hp : w.Parked c) : c.isBroken = false := by
  simp [Connection.isBroken, h.fitted.parked c hp]

theorem Gets.descends (h : w.Tracked) (hg : Gets w s owner c') :
    w.Arises c' ∨ ∃ c p, w.Has c p ∧ w.Descends s c p c' (.caller owner) := by
  have hfit : ∀ {t work}, w.work? t = some work → work.Fits := fun ht => h.fitted.work _ _ ht
  have hcaller : ∀ {owner t}, Place.caller owner ≠ .closing t := by simp
  cases hg with
  | @verified t _ c c₁ _ reader result ht hp hj =>
    have hinuse : c.status = .inUse := hfit ht
    have hb := Connection.isBroken_inUse (Connection.passed_status hp hj hinuse)
    refine .inr ⟨c, .caller owner, has_work ht rfl, .passed (Connection.isBroken_inUse hinuse) ?_ hb (.inl rfl)⟩
    exact (Connection.id_of_judge hj).trans (Connection.id_of_poll hp)
  | @opened t _ step _ ht hr =>
    rw [runOpening_ends hr] at ht
    exact .inl (h.arises ht (.inl ⟨_, rfl⟩))
  | @handed t _ _ ht =>
    have hb := Connection.isBroken_inUse (hfit ht)
    exact .inr ⟨c', .channel t, has_work ht rfl, .passed hb rfl hb (.inr (by simp))⟩
  | @refused t _ purpose c _ e ht hb =>
    refine .inr ⟨c, .caller owner, has_work ht rfl, ?_⟩
    cases hc : c.isBroken with
    | true =>
      rw [Connection.begin_unusable hc] at hb
      cases hb
      exact .stays
    | false =>
      have hline : w.line? t = some (purpose.line, c) := by simp [line?, ht, hc]
      exact .used hc (Connection.id_of_begin hb) (fun _ => ⟨c, .unwritten hline hb, rfl⟩) (.inl rfl)
  | @replied t _ command c _ reader result ht hp =>
    have hb := Connection.isBroken_inUse (hfit ht)
    exact .inr ⟨c, .caller owner, has_work ht rfl, .used hb (Connection.id_of_poll hp)
      (fun hb' => Awaits.spoils (.exchange ht) hp hb hb') (.inl rfl)⟩
  | @probed t _ c c₁ reader result ht hp =>
    have hb := Connection.isBroken_inUse (hfit ht)
    exact .inr ⟨c, .caller owner, has_work ht rfl,
      .used hb ((settled_id .probe c₁ result).trans (Connection.id_of_poll hp))
        (fun hb' => Awaits.spoils (.exchange ht) hp hb hb') (.inl rfl)⟩
  | @spoilt _ c hc =>
    refine .inr ⟨c, .caller owner, has_held hc, ?_⟩
    cases hb : c.isBroken with
    | true =>
      rw [Connection.setBroken_broken hb]
      exact .stays
    | false => exact .used hb c.setBroken_id (fun _ => ⟨c, .called hc, rfl⟩) (.inl rfl)
  | @abandoned _ task purpose _ reader hu he =>
    have ht := (underWay?_work h.accounts.tickets hu).1.trans (congrArg some he)
    exact .inr ⟨c', .caller owner, has_work ht rfl, .stays⟩

theorem Starts.descends {work : Work} (hs : Starts w s work) (ho : Task.owns { ticket := t, work } = some (c', p')) :
    ∃ c p, w.Has c p ∧ w.Descends s c p c' p' := by
  have hdismissed : ∀ {c : Connection}, Dismissed w s c →
      ∃ c₀ p, w.Has c₀ p ∧ w.Descends s c₀ p c (.closing t) := by
    intro c hd
    obtain ⟨p, hp, hnot⟩ := hd.has
    exact ⟨c, p, hp, .dismissed hnot⟩
  cases hs with
  | exchange hc => cases ho; exact ⟨_, _, has_held hc, .stays⟩
  | close hc => cases ho; exact ⟨_, _, has_held hc, .dismissed (by simp)⟩
  | dismiss hd => cases ho; exact hdismissed hd
  | giveUp hd => cases ho; exact hdismissed hd
  | _ => cases ho

theorem Goes.descends (h : w.Tracked) {work work' : Work} (ht : w.work? t = some work) (hg : Goes w work work')
    (ho : Task.owns { ticket := t, work := work' } = some (c', p')) :
    w.Arises c' ∨ ∃ c p, w.Has c p ∧ w.Descends (.run t) c p c' p' := by
  have hfit := h.fitted.work _ _ ht
  cases hg with
  | @reuse owner l l' c _ reader hl hopen htake hb =>
    cases ho
    have hid := Connection.id_of_begin hb
    obtain ⟨id, c₀, deadline, hmem, rfl, -⟩ := Ledger.takeIdle_some htake
    have hidle := h.parked_sound ⟨l, id, deadline, hl, hmem⟩
    have hinuse : c'.isBroken = false := Connection.isBroken_inUse (Connection.begin_ok_status hb)
    exact .inr ⟨c₀, _, .parked hl hmem, .passed hidle hid hinuse (.inr (by simp))⟩
  | @reuseFails owner l l' c _ e hl hopen htake hb =>
    cases ho
    have hid := Connection.id_of_begin hb
    have hline : w.line? t = some (.rset, c) := by simp [line?, ht, hl, hopen, htake]
    obtain ⟨id, c₀, deadline, hmem, rfl, -⟩ := Ledger.takeIdle_some htake
    have hidle := h.parked_sound ⟨l, id, deadline, hl, hmem⟩
    exact .inr ⟨c₀, _, .parked hl hmem, .used hidle hid
      (fun _ => ⟨_, .unwritten hline hb, rfl⟩) (.inr (by simp))⟩
  | verify hp =>
    cases ho
    exact .inr ⟨_, _, has_work ht rfl, .pending (Connection.isBroken_inUse hfit) hp⟩
  | @verifyFails owner c c₁ _ reader result e hp hj =>
    cases ho
    have hb : c.isBroken = false := Connection.isBroken_inUse hfit
    have hsettled : Purpose.probe.settled c₁ result = c' := by rw [Purpose.settled, hj]
    refine .inr ⟨c, _, has_work ht rfl, .used hb ?_ (fun hb' => ?_) (.inl rfl)⟩
    · exact (Connection.id_of_judge hj).trans (Connection.id_of_poll hp)
    · exact Awaits.spoils (.verify ht) hp hb (hsettled ▸ hb')
  | reserve hl =>
    cases ho
    exact .inr ⟨_, _, has_work ht rfl, .stays⟩
  | begin hb =>
    cases ho
    exact .inr ⟨_, _, has_work ht rfl, .begun hb⟩
  | exchange hp =>
    cases ho
    exact .inr ⟨_, _, has_work ht rfl, .pending (Connection.isBroken_inUse hfit) hp⟩
  | quit hb =>
    cases ho
    exact .inr ⟨_, _, has_work ht rfl, .begun hb⟩
  | @quitting owner holdsPool c _ reader reader' deadline wake hp =>
    cases ho
    have hb : c.isBroken = false := by
      have hstatus : c.status = .inUse ∨ c.status = .idle := hfit
      rcases hstatus with hs | hs <;> simp [Connection.isBroken, hs]
    exact .inr ⟨c, _, has_work ht rfl, .pending hb hp⟩
  | expire hl htake =>
    cases ho
    obtain ⟨deadline, -, hslot, -⟩ := Ledger.takeExpired_some htake
    exact .inr ⟨_, _, .parked hl (Ledger.slot?_mem hslot), .dismissed (by simp)⟩
  | bounce hr =>
    cases ho
    rw [runOpening_ends hr] at ht
    exact .inl (h.arises ht (.inr ⟨_, rfl⟩))
  | _ => cases ho

theorem Comes.descends (h : w.Tracked) {work : Work} (hc : Comes w s t work)
    (ho : Task.owns { ticket := t, work } = some (c', p')) :
    w.Arises c' ∨ ∃ c p, w.Has c p ∧ w.Descends s c p c' p' := by
  cases hc with
  | starts _ hs => exact .inr (hs.descends ho)
  | goes ht hg => exact hg.descends h ht ho
  | @handed _ _ owner result _ hr hb =>
    cases result with
    | error e => cases ho
    | ok c =>
      cases ho
      cases hr with
      | released hrel _ =>
        obtain ⟨p, hp, hnot⟩ := hrel.has
        have hsound := hb c' rfl hrel
        exact .inr ⟨c', p, hp, .passed hsound rfl hsound (.inr hnot)⟩
      | opened ht hend =>
        rw [runOpening_ends hend] at ht
        exact .inl (h.arises ht (.inr ⟨_, rfl⟩))
  | drained => cases ho

/-- A parked connection stands under its own identifier. -/
theorem Tracked.slot_id (h : w.Tracked) {l : Ledger} {deadline : Nat} (hl : w.ledger = some l)
    (hmem : (id, .idle c deadline) ∈ l.live) : c.id = id := by
  have hb := h.accounts.booked hl
  exact (hb.idle id c deadline ((Ledger.lookup_eq_some hb.ascending).2 hmem)).1

namespace Tracked

/-- **Where connections come from.** Whatever is there after a step was there
before it or is fresh from an attempt. -/
theorem descends (h : w.Tracked) (hc : (w.step s).Has c' p') :
    w.Arises c' ∨ ∃ c p, w.Has c p ∧ w.Descends s c p c' p' := by
  have heff := step_effect w s
  cases hc with
  | @parked l' id deadline _ hl' hmem =>
    rcases heff.parked id c' deadline ⟨l', hl', hmem⟩ with ⟨l, hl, hmem⟩ | hparks
    · exact .inr ⟨c', _, .parked hl hmem, .stays⟩
    · cases hparks with
      | @released c hr hb =>
        obtain ⟨p, hp, hnot⟩ := hr.has
        have hidle : Connection.isBroken { c with status := .idle } = false := rfl
        exact .inr ⟨c, p, hp, .passed hb rfl hidle (.inr hnot)⟩
  | held hmem =>
    rcases heff.held _ hmem with hmem | hg
    · exact .inr ⟨c', _, .held hmem, .stays⟩
    · exact hg.descends h
  | @task task _ _ hmem ho =>
    have hw := work?_eq (h.step s).accounts.tickets hmem
    rcases step_work hw with hsame | hcomes
    · exact .inr ⟨c', p', has_work hsame ho, .stays⟩
    · exact hcomes.descends h ho

/-- Whatever holds of a connection and of what a step makes of it holds as long
as it is there. -/
theorem along (h : w.Tracked) (ht : w.Taken id) {Q : Service → Connection → Place → Prop}
    (hstep : ∀ {w s c p c' p'}, w.Tracked → w.Has c p → w.Descends s c p c' p' → (w.step s).Has c' p' →
      Q w c p → Q (w.step s) c' p')
    (hq : ∀ c p, w.Has c p → c.id = id → Q w c p) (later : List Step) :
    ∀ c p, (w.steps later).Has c p → c.id = id → Q (w.steps later) c p := by
  induction later generalizing w with
  | nil => exact hq
  | cons s later ih =>
    refine ih (h.step s) (ht.step s) fun c' p' hc' hid => ?_
    rcases h.descends hc' with hnew | ⟨c, p, hc, hd⟩
    · exact absurd (hid ▸ hnew.named) ht.recorded
    · exact hstep h hc hd hc' (hq c p hc (hd.id.symm.trans hid))

end Tracked

end Service

end Pool

end SmtpClient
