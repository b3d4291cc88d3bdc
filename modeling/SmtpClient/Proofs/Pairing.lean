/-
Whose reply an exchange gets. Where servers answer each line once, nothing is
unread on a connection at rest but the answers to the lines to come, unless an
exchange on it was abandoned after its line was written (`Paired`). What such
an exchange leaves unread is what the next one reads.
-/
import SmtpClient.Proofs.Drain
import SmtpClient.Proofs.Sessions

namespace SmtpClient.Pool

/-! ## One exchange -/

/-- The line was written since, and this reader has what was read since. -/
def Asked (c : Connection) (line : Command) (c' : Connection) (reader : ReplyReader) : Prop :=
  c'.written = { c.written with attempted := c.written.attempted ++ [line] } ∧
    ∃ taken, ({} : ReplyReader).read taken = .more reader ∧ taken ++ c'.unread = c.unread

variable {c c' : Connection} {line : Command} {now : Nat}

theorem Asked.begin {reader : ReplyReader} (h : c.begin line = (.ok reader, c')) : Asked c line c' reader := by
  obtain ⟨-, rfl, hunread, hw⟩ := Connection.begin_ok h
  exact ⟨hw, [], rfl, hunread⟩

theorem Asked.pending {wake : Option Nat} {reader reader' : ReplyReader} {c'' : Connection}
    (h : Asked c line c' reader) (hp : c'.poll now reader = (.pending wake reader', c'')) :
    Asked c line c'' reader' := by
  obtain ⟨hw, taken, hr, hall⟩ := h
  obtain ⟨used, hunread, hused, hsame⟩ := Connection.poll_pending hp
  refine ⟨hsame.trans hw, taken ++ used, (ReplyReader.read_more hr used).trans hused, ?_⟩
  rw [List.append_assoc, ← hunread, hall]

theorem Asked.replied {reply : Reply} {reader : ReplyReader} {c'' : Connection}
    (h : Asked c line c' reader) (hp : c'.poll now reader = (.ready (.ok reply), c'')) :
    c''.written = { c.written with attempted := c.written.attempted ++ [line] } ∧
      ∃ taken, ({} : ReplyReader).read taken = .done (.ok reply, []) ∧ taken ++ c''.unread = c.unread := by
  obtain ⟨hw, taken, hr, hall⟩ := h
  obtain ⟨used, hunread, hused, hsame⟩ := Connection.poll_ok hp
  refine ⟨hsame.trans hw, taken ++ used, (ReplyReader.read_more hr used).trans hused, ?_⟩
  rw [List.append_assoc, ← hunread, hall]

/-! ## Connections -/

/-- What is known of the servers of a run: what they say on each stream, and
where something may be left unread. -/
structure Conduct where
  config : Config
  sessions : Nat → Session
  dirty : Nat → Prop

namespace Conduct

variable {k : Conduct} {r r' : ReplyReader}

/-- The answers to the lines to come on a connection. -/
def ahead (k : Conduct) (c : Connection) : List Answer :=
  (k.sessions c.written.number).ahead k.config c.written.attempted

/-- The answers from that to the last line on. -/
def awaited (k : Conduct) (c : Connection) : List Answer :=
  (k.sessions c.written.number).ahead k.config c.written.attempted.dropLast

/-- A connection that nothing is done with: the answers to come are unread,
with what was left in front of them. -/
def Rests (k : Conduct) (c : Connection) : Prop :=
  Opened k.config c.written.attempted ∧ ∃ stale, c.unread = stale ++ wire (k.ahead c) ∧ EndsLine stale ∧
    (stale ≠ [] → k.dirty c.written.number)

/-- A connection that waits for the reply to its last line. -/
def Reads (k : Conduct) (c' : Connection) (r : ReplyReader) : Prop :=
  ∃ c line, k.Rests c ∧ Asked c line c' r

theorem Rests.begin {command : Command} (h : k.Rests c) (hb : c.begin command = (.ok r, c')) : k.Reads c' r :=
  ⟨c, command, h, .begin hb⟩

theorem Reads.pending {wake : Option Nat} (h : k.Reads c r) (hp : c.poll now r = (.pending wake r', c')) :
    k.Reads c' r' := by
  obtain ⟨c₀, line, hrests, hasked⟩ := h
  exact ⟨c₀, line, hrests, hasked.pending hp⟩

/-- With a line that is written one answer is no longer to come. -/
theorem ahead_write {line : Command} (ho : Opened k.config c.written.attempted)
    (hw : c'.written = { c.written with attempted := c.written.attempted ++ [line] }) :
    Opened k.config c'.written.attempted ∧ k.ahead c' = (k.ahead c).drop 1 ∧ k.awaited c' = k.ahead c := by
  rw [ahead, awaited, hw, List.dropLast_concat]
  exact ⟨fun hs => List.mem_append_left _ (ho hs), Session.ahead_write ho _ _, rfl⟩

theorem Reads.ok {reply : Reply} (h : k.Reads c r) (hp : c.poll now r = (.ready (.ok reply), c')) : k.Rests c' := by
  obtain ⟨c₀, line, ⟨hopened, stale, hunread, he, hd⟩, hasked⟩ := h
  obtain ⟨hw, taken, hread, hall⟩ := hasked.replied hp
  obtain ⟨hopened', hahead, -⟩ := ahead_write hopened hw
  obtain ⟨⟨rest, hrest, hends, hnil⟩, -⟩ := reads_own he hread (hall.trans hunread)
  refine ⟨hopened', rest, hahead ▸ hrest, hends, fun hne => ?_⟩
  rw [hw]
  exact hd fun hs => hne (hnil hs)

/-- What an abandoned exchange leaves. -/
theorem Reads.left (h : k.Reads c r) :
    Opened k.config c.written.attempted ∧ ∃ rest, c.unread = rest ++ wire (k.ahead c) ∧ EndsLine rest ∧
      (k.awaited c ≠ [] → rest ≠ [] ∧ (r = {} → ¬ Blank rest)) := by
  obtain ⟨c₀, line, ⟨hopened, stale, hunread, he, -⟩, hw, taken, hr, hall⟩ := h
  obtain ⟨hopened', hahead, hawaited⟩ := ahead_write hopened hw
  rw [hahead, hawaited]
  exact ⟨hopened', left_of_more he hr (hall.trans hunread)⟩

theorem Reads.abandon (h : k.Reads c r) (hd : k.dirty c.written.number) : k.Rests c := by
  obtain ⟨hopened, rest, hunread, hends, -⟩ := h.left
  exact ⟨hopened, rest, hunread, hends, fun _ => hd⟩

/-- More than blank lines stands unread in front of the answers to come. -/
def Astray (k : Conduct) (c : Connection) : Prop :=
  ∃ stale, c.unread = stale ++ wire (k.ahead c) ∧ ¬ Blank stale

theorem Rests.dirty (h : k.Rests c) (ha : k.Astray c) : k.dirty c.written.number := by
  obtain ⟨-, stale, hunread, -, hd⟩ := h
  obtain ⟨stale', hunread', hblank⟩ := ha
  obtain rfl : stale' = stale := List.append_cancel_right (hunread'.symm.trans hunread)
  refine hd ?_
  rintro rfl
  exact hblank rfl

/-- Whoever has not begun to read leaves all of the answer. -/
theorem Reads.astray (h : k.Reads c {}) (hne : k.awaited c ≠ []) : k.Astray c := by
  obtain ⟨-, rest, hunread, -, hleft⟩ := h.left
  exact ⟨rest, hunread, (hleft hne).2 rfl⟩

/-- The reply to the next line is the next answer just if nothing is astray. -/
theorem Rests.own {taken unread : List UInt8} {reply : Reply} (h : k.Rests c)
    (hr : ({} : ReplyReader).read taken = .done (.ok reply, [])) (hall : taken ++ unread = c.unread) :
    (∃ own rest, k.ahead c = own :: rest ∧ reply = own.reply ∧ unread = wire rest) ↔ ¬ k.Astray c := by
  obtain ⟨-, stale, hunread, he, -⟩ := h
  have hblank : Blank stale ↔ ¬ k.Astray c := by
    constructor
    · rintro hb ⟨stale', hunread', hnot⟩
      obtain rfl : stale' = stale := List.append_cancel_right (hunread'.symm.trans hunread)
      exact hnot hb
    · intro hnot
      by_contra hb
      exact hnot ⟨stale, hunread, hb⟩
  exact (reads_own he hr (hall.trans hunread)).2.trans hblank

/-- How far an opening is, with a server that says what it should. -/
def Opens (k : Conduct) : Opening → Prop
  | .attempting attempt => ∃ number, attempt.Says k.config (k.sessions number) number
  | .named c => k.Rests c
  | _ => True

/-- What a task may do with a connection that it has. -/
def Does (k : Conduct) : Work → Prop
  | .acquire _ (.verifying c r) | .exchange _ _ c (some r) => k.Reads c r
  | .acquire _ (.handed (.ok c)) | .exchange _ _ c none | .giveBack c => c.isBroken = false → k.Rests c
  | .acquire _ (.opening step) | .serve _ step => k.Opens step
  | _ => True

end Conduct

/-- Servers that say what these sessions hold, each on its own stream. -/
def Say (peers : List Peer) (sessions : Nat → Session) : Prop :=
  ∀ (n : Nat) (peer : Peer), peers[n]? = some peer → peer.Says (sessions n)

namespace Service

variable {config : Config} {spawns : Bool} {w : Service} {s : Step} {k : Conduct} {peers : List Peer} {t : Ticket}

/-- The next peer says what belongs to the number of its stream. -/
theorem next_said (h : Say peers k.sessions) (hp : w.peers = peers.drop w.connects) :
    ((w.peers.headD noPeer).numbered w.connects).Says (k.sessions w.connects) ∧
    ∀ stream, ((w.peers.headD noPeer).numbered w.connects).connect = .ok stream →
      stream.outbound.number = w.connects := by
  have hsaid : (w.peers.headD noPeer).Says (k.sessions w.connects) := by
    rw [List.headD_eq_head?_getD, hp, List.head?_drop]
    cases hn : peers[w.connects]? with
    | some peer => exact h _ _ hn
    | none =>
      refine ⟨fun _ hc => ?_, fun _ _ hu => ?_⟩
      · cases hc
      · cases hu
  have hnumbered : ∀ {stream}, ((w.peers.headD noPeer).numbered w.connects).connect = .ok stream →
      ∃ plain, (w.peers.headD noPeer).connect = .ok plain ∧
        stream = { plain with outbound := { plain.outbound with number := w.connects } } := by
    intro stream hc
    simp only [Peer.numbered] at hc
    cases hplain : (w.peers.headD noPeer).connect with
    | error e => rw [hplain] at hc; cases hc
    | ok plain => rw [hplain] at hc; cases hc; exact ⟨plain, rfl, rfl⟩
  refine ⟨⟨fun stream hc => ?_, hsaid.secured⟩, fun stream hc => ?_⟩
  · obtain ⟨plain, hplain, rfl⟩ := hnumbered hc
    exact hsaid.clear plain hplain
  · obtain ⟨plain, -, rfl⟩ := hnumbered hc
    rfl

theorem runOpening_opens (hs : Say peers k.sessions) (hc : w.config = k.config)
    (hp : w.peers = peers.drop w.connects) {step step' : Opening} {wait : Wait} (h : k.Opens step)
    (hr : (w.runOpening step).1 = .goesOn step' wait) : k.Opens step' := by
  cases step with
  | reserved => cases hr; exact ⟨w.connects, next_said hs hp⟩
  | attempting attempt =>
    obtain ⟨number, hsaid⟩ := h
    have hpoll : (attempt.poll k.config w.now).Says k.config (k.sessions number) number := Attempt.poll_said hsaid
    simp only [runOpening, hc] at hr
    split at hr
    · next hp => rw [hp] at hpoll; cases hr; exact ⟨number, hpoll⟩
    · next hp =>
      rw [hp] at hpoll
      cases hr
      obtain ⟨hnumber, hopened, hunread⟩ := hpoll
      refine ⟨hopened, [], ?_, fun _ hb => (by cases hb), fun hne => absurd rfl hne⟩
      rw [List.nil_append, Conduct.ahead]
      simp only [Connection.written, Connection.ofEstablished, Connection.unread, hnumber, hunread]
    · cases hr; exact True.intro
  | failed e => cases hr
  | named c => cases hr

/-- An exchange on a stream is abandoned after its line was written. -/
def Abandons (w : Service) (s : Step) (n : Nat) : Prop :=
  ∃ owner task purpose c reader, s = .request (.abandon owner) ∧ w.underWay? owner = some task ∧
    task.work = .exchange owner purpose c (some reader) ∧ c.written.number = n

/-- Every connection that can still be used is as it should be. -/
structure Paired (k : Conduct) (peers : List Peer) (w : Service) : Prop where
  config : w.config = k.config
  peers : w.peers = peers.drop w.connects
  work : ∀ t work, w.work? t = some work → k.Does work
  held : ∀ owner c, (owner, c) ∈ w.holding → c.isBroken = false → k.Rests c
  parked : ∀ c, w.Parked c → k.Rests c

namespace Paired

theorem held? (h : Paired k peers w) {owner : String} (hc : w.held? owner = some c) (hb : c.isBroken = false) :
    k.Rests c := by
  obtain ⟨before, after, he, -⟩ := List.lookup_eq_some_iff.1 hc
  exact h.held owner c (by rw [he]; exact List.mem_append_right _ List.mem_cons_self) hb

theorem released (h : Paired k peers w) (hr : Released w s c) (hb : c.isBroken = false) : k.Rests c := by
  cases hr with
  | request _ hc => exact h.held? hc hb
  | giveBack ht => exact h.work _ _ ht hb

theorem opened {step : Opening} (h : k.Opens step) (hr : (w.runOpening step).1 = .ends (.ok c)) : k.Rests c := by
  rw [runOpening_ends hr] at h
  exact h

theorem comes (h : Paired k peers w) (hs : Say peers k.sessions) {work : Work} (hc : Comes w s t work) :
    k.Does work := by
  cases hc with
  | starts _ hstart =>
    cases hstart with
    | exchange hc => exact h.held? hc
    | _ => exact True.intro
  | goes ht hg =>
    have hold := h.work _ _ ht
    cases hg with
    | reuse hl _ htake hb =>
      obtain ⟨id, c₀, deadline, hmem, rfl, -⟩ := Ledger.takeIdle_some htake
      have hrests : k.Rests c₀ := h.parked c₀ ⟨_, id, deadline, hl, hmem⟩
      exact Conduct.Rests.begin (c := { c₀ with status := .inUse }) hrests hb
    | verify hp => exact hold.pending hp
    | exchange hp => exact hold.pending hp
    | begin hb => exact (hold (Connection.begin_ok hb).1).begin hb
    | opening hr => exact runOpening_opens hs h.config h.peers hold hr
    | serve hr => exact runOpening_opens hs h.config h.peers hold hr
    | bounce hr => exact fun _ => opened hold hr
    | create => exact True.intro
    | replace => exact True.intro
    | _ => exact True.intro
  | @handed _ _ owner result _ hr =>
    cases hr with
    | released hr _ => exact h.released hr
    | opened ht hend =>
      cases result with
      | ok c => exact fun _ => opened (h.work _ _ ht) hend
      | error e => exact True.intro
    | closed => exact True.intro
  | drained => exact True.intro

theorem gets (h : Paired k peers w) (hn : (w.tasks.map Task.ticket).Nodup)
    (hd : ∀ n, w.Abandons s n → k.dirty n) {owner : String} (hg : Gets w s owner c) (hb : c.isBroken = false) :
    k.Rests c := by
  have hbroken : ∀ {c : Connection}, c.isBroken = true → c.isBroken = false → k.Rests c := fun h h' =>
    absurd (h'.symm.trans h) Bool.false_ne_true
  have hreplied : ∀ {c c' : Connection} {r result}, k.Reads c r → c.poll w.now r = (.ready result, c') →
      c'.isBroken = false → k.Rests c' := by
    intro c c' r result hr hp hb
    cases result with
    | ok reply => exact hr.ok hp
    | error e => exact hbroken (Connection.poll_error hp) hb
  cases hg with
  | @verified t owner c₀ c₁ _ reader result ht hp hj =>
    have hsame : c = c₁ := by
      cases result with
      | error e => cases hj
      | ok reply => simp only [Connection.judge] at hj; split at hj <;> cases hj; rfl
    subst hsame
    exact hreplied (h.work _ _ ht) hp hb
  | opened ht hr => exact opened (h.work _ _ ht) hr
  | handed ht => exact h.work _ _ ht hb
  | refused _ he => exact hbroken (Connection.begin_error he) hb
  | replied ht hp => exact hreplied (h.work _ _ ht) hp hb
  | @probed t owner c₀ c₁ reader result ht hp =>
    have hr : c₁.isBroken = false → k.Rests c₁ := hreplied (h.work _ _ ht) hp
    rcases c₁.judge_cases result with he | hj
    · rw [he] at hb ⊢
      exact hr hb
    · exact hbroken hj hb
  | spoilt => exact hbroken (Connection.setBroken_isBroken _) hb
  | @abandoned owner task purpose _ reader hu he =>
    have hwork := h.work _ _ ((underWay?_work hn hu).1.trans (congrArg some he))
    cases reader with
    | none => exact hwork hb
    | some reader => exact hwork.abandon (hd _ ⟨owner, task, purpose, c, reader, rfl, hu, he, rfl⟩)

/-- Only what is abandoned is left unread. -/
theorem step (h : Paired k peers w) (hs : Say peers k.sessions) (hn : (w.tasks.map Task.ticket).Nodup)
    (hd : ∀ n, w.Abandons s n → k.dirty n) : Paired k peers (w.step s) := by
  have heff := step_effect w s
  refine ⟨(step_config w s).1.trans h.config, ?_, fun t work hw => ?_, fun owner c hmem hb => ?_, fun c hc => ?_⟩
  · rcases heff.connects with ⟨hc, hp⟩ | ⟨-, hc, hp⟩
    · rw [hc, hp, h.peers]
    · rw [hc, hp, h.peers, List.drop_drop]
  · rcases step_work hw with hw | hc
    · exact h.work t work hw
    · exact h.comes hs hc
  · rcases heff.held _ hmem with hmem | hg
    · exact h.held owner c hmem hb
    · exact h.gets hn hd hg hb
  · obtain ⟨l, id, deadline, hl, hmem⟩ := hc
    rcases heff.parked id c deadline ⟨l, hl, hmem⟩ with ⟨l, hl, hmem⟩ | ⟨hr, hb⟩
    · exact h.parked c ⟨l, id, deadline, hl, hmem⟩
    · have hrests := h.released hr hb
      exact hrests

theorem new (hk : k.config = config) : Paired k peers (Service.new config spawns peers) := by
  refine ⟨hk.symm, rfl, fun t work hw => ?_, fun owner c hmem => ?_, fun c hc => ?_⟩
  · cases hw
  · cases hmem
  · obtain ⟨l, id, deadline, hl, hmem⟩ := hc
    cases hl
    cases hmem

theorem steps (h : Paired k peers w) (hs : Say peers k.sessions) (ha : Accounts [] w none 0) (run : List Step)
    (hd : ∀ n, (w.Happened run fun w s => w.Abandons s n) → k.dirty n) : Paired k peers (w.steps run) := by
  induction run generalizing w with
  | nil => exact h
  | cons s run ih =>
    refine ih (h.step hs ha.tickets fun n hn => hd n ⟨[], s, run, rfl, hn⟩) (ha.step s) ?_
    rintro n ⟨before, s', later, rfl, hn⟩
    exact hd n ⟨s :: before, s', later, rfl, hn⟩

end Paired

/-! ## From the line to its reply -/

/-- The line that a task writes when it runs next, and the connection. -/
def line? (w : Service) (t : Ticket) : Option (Command × Connection) :=
  match w.work? t, w.ledger with
  | some (.exchange _ purpose c none), _ => if c.isBroken then none else some (purpose.line, c)
  | some (.acquire _ .start), some l => if l.closing then none else l.takeIdle.map fun (c, _) => (.rset, c)
  | _, _ => none

/-- The reply that a task has when it runs next, with which a command returns
or by which a probe judges the connection. -/
def reply? (w : Service) (t : Ticket) : Option (Reply × Connection) :=
  match w.work? t with
  | some (.exchange _ _ c (some reader)) | some (.acquire _ (.verifying c reader)) =>
    match c.poll w.now reader with
    | (.ready (.ok reply), c) => some (reply, c)
    | _ => none
  | _ => none

theorem line?_some (h : w.line? t = some (line, c)) :
    (∃ owner purpose, w.work? t = some (.exchange owner purpose c none) ∧ c.isBroken = false ∧
      line = purpose.line) ∨
    ∃ owner l l', w.work? t = some (.acquire owner .start) ∧ w.ledger = some l ∧ l.closing = false ∧
      l.takeIdle = some (c, l') ∧ line = .rset := by
  unfold line? at h
  split at h
  · next ht =>
    split at h
    · cases h
    · next hsound =>
      cases h
      exact .inl ⟨_, _, ht, by simpa using hsound, rfl⟩
  · next l ht hl =>
    split at h
    · cases h
    · next hopen =>
      obtain ⟨⟨c', l'⟩, htake, he⟩ := Option.map_eq_some_iff.1 h
      cases he
      exact .inr ⟨_, l, l', ht, hl, by simpa using hopen, htake, rfl⟩
  · cases h

theorem reply?_some {reply : Reply} (h : w.reply? t = some (reply, c')) :
    ∃ c reader, ((∃ owner purpose, w.work? t = some (.exchange owner purpose c (some reader))) ∨
      ∃ owner, w.work? t = some (.acquire owner (.verifying c reader))) ∧
      c.poll w.now reader = (.ready (.ok reply), c') := by
  have hpoll : ∀ {c : Connection} {reader : ReplyReader},
      (match c.poll w.now reader with
        | (.ready (.ok reply), c) => some (reply, c)
        | _ => none) = some (reply, c') → c.poll w.now reader = (.ready (.ok reply), c') := by
    intro c reader h
    split at h
    · next hp => cases h; exact hp
    · cases h
  unfold reply? at h
  split at h
  · next c reader ht => exact ⟨c, reader, .inl ⟨_, _, ht⟩, hpoll h⟩
  · next c reader ht => exact ⟨c, reader, .inr ⟨_, ht⟩, hpoll h⟩
  · cases h

/-- A command returns just the reply that its task has. -/
theorem act_replied {owner : String} {command : Command} {reader : ReplyReader} {reply : Reply}
    (ht : w.work? t = some (.exchange owner (.command command) c (some reader))) :
    (w.act (.run t)).events = w.events ++ [(owner, .replied reply)] ↔ ∃ c', w.reply? t = some (reply, c') := by
  simp only [act, reply?, ht, runWork, runExchange]
  cases c.poll w.now reader with
  | mk p c₁ =>
    cases p with
    | pending wake reader => simp [await]
    | ready result => cases result <;> simp [settleExchange, tell, hold, endTask]

/-- A probe of a caller succeeds just if its task has a reply that says so. -/
theorem act_sound {owner : String} {reader : ReplyReader}
    (ht : w.work? t = some (.exchange owner .probe c (some reader))) :
    (w.act (.run t)).events = w.events ++ [(owner, .sound)] ↔
      ∃ reply c', w.reply? t = some (reply, c') ∧ reply.isSuccess = true := by
  simp only [act, reply?, ht, runWork, runExchange]
  cases c.poll w.now reader with
  | mk p c₁ =>
    cases p with
    | pending wake reader => simp [await]
    | ready result =>
      cases result with
      | error e => simp [settleExchange, Connection.judge, tell, hold, endTask]
      | ok reply =>
        cases hs : reply.isSuccess <;> simp [settleExchange, Connection.judge, hs, tell, hold, endTask]

/-- An acquire returns the connection that it probes just if it has such a reply. -/
theorem act_verified {owner : String} {reader : ReplyReader}
    (ht : w.work? t = some (.acquire owner (.verifying c reader))) :
    (∃ id auth status, (w.act (.run t)).events = w.events ++ [(owner, .acquired id auth status)]) ↔
      ∃ reply c', w.reply? t = some (reply, c') ∧ reply.isSuccess = true := by
  simp only [act, reply?, ht, runWork, runAcquire]
  cases c.poll w.now reader with
  | mk p c₁ =>
    cases p with
    | pending wake reader => simp [await]
    | ready result =>
      cases result with
      | error e => simp [Connection.judge, become, await]
      | ok reply =>
        cases hs : reply.isSuccess <;>
          simp [Connection.judge, hs, conclude, tell, hold, endTask, become, await]

/-- What a task that waits for a reply has come from: it wrote the line in this
run, and has asked since. -/
def Traced (w : Service) (run : List Step) (t : Ticket) (c' : Connection) (reader : ReplyReader) : Prop :=
  ∃ before later line c, run = before ++ .run t :: later ∧ (w.steps before).line? t = some (line, c) ∧
    Asked c line c' reader

theorem Traced.pending {run : List Step} {now : Nat} {wake : Option Nat} {reader reader' : ReplyReader}
    {c'' : Connection} (h : w.Traced run t c' reader) (hp : c'.poll now reader = (.pending wake reader', c''))
    (s : Step) : w.Traced (run ++ [s]) t c'' reader' := by
  obtain ⟨before, later, line, c, rfl, hline, hasked⟩ := h
  exact ⟨before, later ++ [s], line, c, by simp, hline, hasked.pending hp⟩

theorem Traced.mono {run : List Step} {reader : ReplyReader} (h : w.Traced run t c' reader) (s : Step) :
    w.Traced (run ++ [s]) t c' reader := by
  obtain ⟨before, later, line, c, rfl, hline, hasked⟩ := h
  exact ⟨before, later ++ [s], line, c, by simp, hline, hasked⟩

theorem Traced.begin {run : List Step} {reader : ReplyReader} (hline : (w.steps run).line? t = some (line, c))
    (hb : c.begin line = (.ok reader, c')) : w.Traced (run ++ [.run t]) t c' reader :=
  ⟨run, [], line, c, rfl, hline, .begin hb⟩

/-- Whoever waits for a reply has written a line. -/
def Backed (w : Service) (run : List Step) (t : Ticket) : Work → Prop
  | .acquire _ (.verifying c reader) | .exchange _ _ c (some reader) => w.Traced run t c reader
  | _ => True

theorem backed (hw : w.tasks = []) (run : List Step) {work : Work} (h : (w.steps run).work? t = some work) :
    w.Backed run t work := by
  induction run using List.reverseRecOn generalizing t work with
  | nil =>
    simp only [Service.steps, List.foldl_nil, work?, task?, hw] at h
    cases h
  | append_singleton run s ih =>
    rw [steps_snoc] at h
    rcases step_work h with hsame | hcomes
    · have hold := ih hsame
      cases work with
      | acquire owner step =>
        cases step with
        | verifying c reader => exact Traced.mono hold s
        | _ => exact True.intro
      | exchange owner purpose c reader =>
        cases reader with
        | none => exact True.intro
        | some reader => exact Traced.mono hold s
      | _ => exact True.intro
    cases hcomes with
    | starts _ hstart => cases hstart <;> exact True.intro
    | goes ht hg =>
      have hold := ih ht
      cases hg with
      | reuse hl hopen htake hb => exact .begin (by simp [line?, ht, hl, hopen, htake]) hb
      | begin hb => exact .begin (by simp [line?, ht, (Connection.begin_ok hb).1]) hb
      | verify hp => exact Traced.pending hold hp _
      | exchange hp => exact Traced.pending hold hp _
      | _ => exact True.intro
    | handed => exact True.intro
    | drained => exact True.intro

/-- Whoever has a reply has written a line, and read the reply since. -/
theorem reply?_traced {run : List Step} {reply : Reply} (hw : w.tasks = [])
    (h : (w.steps run).reply? t = some (reply, c')) :
    ∃ before later line c, run = before ++ .run t :: later ∧ (w.steps before).line? t = some (line, c) ∧
      c'.written = { c.written with attempted := c.written.attempted ++ [line] } ∧
      ∃ taken, ({} : ReplyReader).read taken = .done (.ok reply, []) ∧ taken ++ c'.unread = c.unread := by
  obtain ⟨c₁, reader, ht, hp⟩ := reply?_some h
  have htraced : w.Traced run t c₁ reader := by
    rcases ht with ⟨_, _, ht⟩ | ⟨_, ht⟩ <;> exact backed hw run ht
  obtain ⟨before, later, line, c, he, hline, hasked⟩ := htraced
  exact ⟨before, later, line, c, he, hline, hasked.replied hp⟩

theorem Paired.rests (h : Paired k peers w) (hline : w.line? t = some (line, c)) : k.Rests c := by
  rcases line?_some hline with ⟨_, _, ht, hsound, -⟩ | ⟨_, l, _, ht, hl, hc, htake, -⟩
  · exact h.work _ _ ht hsound
  · obtain ⟨id, c₀, deadline, hmem, rfl, -⟩ := Ledger.takeIdle_some htake
    have hrests : k.Rests c₀ := h.parked c₀ ⟨l, id, deadline, hl, hmem⟩
    exact hrests

/-- **Whose reply it is.** Where servers answer each line once, every reply that a
command returns or a probe goes by comes after a line that the same task wrote,
and is the answer to that line just if nothing was astray when it was written.
Something is only where an exchange on that stream had been abandoned after its
line was written; and an exchange that is abandoned so, before any of its answer
was read, leaves its caller with a connection where something is. A command returns
the reply that its task has then, and a probe, of a caller or of an acquire, has
succeeded just if that reply is positive. -/
theorem steps_paired (config : Config) (spawns : Bool) (peers : List Peer) (sessions : Nat → Session)
    (hs : Say peers sessions) (run : List Step) :
    let start := new config spawns peers
    let w := start.steps run
    let k := fun run => Conduct.mk config sessions fun n => start.Happened run fun w s => w.Abandons s n
    (∀ t reply c', w.reply? t = some (reply, c') → ∃ before later line c,
      run = before ++ .run t :: later ∧ (start.steps before).line? t = some (line, c) ∧
      c'.written = { c.written with attempted := c.written.attempted ++ [line] } ∧
      ((∃ own rest, (k before).ahead c = own :: rest ∧ reply = own.reply ∧ c'.unread = wire rest) ↔
        ¬ (k before).Astray c) ∧
      ((k before).Astray c → (k before).dirty c.written.number)) ∧
    (∀ owner task purpose c, w.underWay? owner = some task → task.work = .exchange owner purpose c (some {}) →
      (k run).awaited c ≠ [] → (owner, c) ∈ (w.step (.request (.abandon owner))).holding ∧ (k run).Astray c) ∧
    ∀ t owner c reader,
      (∀ command, w.work? t = some (.exchange owner (.command command) c (some reader)) → ∀ reply,
        ((w.act (.run t)).events = w.events ++ [(owner, .replied reply)] ↔ ∃ c', w.reply? t = some (reply, c'))) ∧
      (w.work? t = some (.exchange owner .probe c (some reader)) →
        ((w.act (.run t)).events = w.events ++ [(owner, .sound)] ↔
          ∃ reply c', w.reply? t = some (reply, c') ∧ reply.isSuccess = true)) ∧
      (w.work? t = some (.acquire owner (.verifying c reader)) →
        ((∃ id auth status, (w.act (.run t)).events = w.events ++ [(owner, .acquired id auth status)]) ↔
          ∃ reply c', w.reply? t = some (reply, c') ∧ reply.isSuccess = true)) := by
  intro start w k
  have hstart : Accounts [] start none 0 := Accounts.new config spawns peers
  have hp : ∀ run, Paired (k run) peers (start.steps run) := fun run =>
    (Paired.new rfl).steps hs hstart run fun _ hn => hn
  refine ⟨fun t reply c' hr => ?_, fun owner task purpose c hu he hne => ?_, fun t owner c reader =>
    ⟨fun command ht reply => act_replied ht, act_sound, act_verified⟩⟩
  · obtain ⟨before, later, line, c, he, hline, hw, taken, hread, hall⟩ := reply?_traced rfl hr
    have hrests := (hp before).rests hline
    exact ⟨before, later, line, c, he, hline, hw, hrests.own hread hall, hrests.dirty⟩
  · obtain ⟨hwork, -⟩ := underWay?_work (hstart.steps run).tickets hu
    have hreads : (k run).Reads c {} := (hp run).work _ _ (hwork.trans (congrArg some he))
    refine ⟨?_, hreads.astray hne⟩
    cases task with
    | mk ticket work wait =>
      obtain rfl : work = .exchange owner purpose c (some {}) := he
      have hheld : (w.step (.request (.abandon owner))).holding = w.holding ++ [(owner, c)] := by
        show (w.abandon owner).holding = _
        unfold abandon
        rw [hu]
        rfl
      rw [hheld]
      exact List.mem_append_right _ List.mem_cons_self

/-! A run in which a caller abandons a `NOOP` and releases the connection. The
probe of the next caller goes by the answer to the `NOOP`. -/

def answer (text : String) (reply : Reply) (h : spelled? text.toUTF8.toList = some reply) : Answer :=
  ⟨text.toUTF8.toList, reply, h⟩

def patient : Session where
  greeting := answer "220 a\r\n" ⟨⟨220⟩, ["a"]⟩ (by decide +kernel)
  clear := [answer "250 a\r\n" ⟨⟨250⟩, ["a"]⟩ (by decide +kernel),
    answer "250 first\r\n" ⟨⟨250⟩, ["first"]⟩ (by decide +kernel),
    answer "250 second\r\n" ⟨⟨250⟩, ["second"]⟩ (by decide +kernel)]
  secured := []

/-- A single server that says what a session holds. -/
theorem alone_said (session : Session) : Say [session.peer] fun _ => session := by
  intro n peer hpeer
  obtain rfl : session.peer = peer := by
    cases n with
    | zero => exact Option.some.inj hpeer
    | succ n => cases hpeer
  exact session.peer_said

/-- The answer that comes next is the only one. -/
theorem due_reply {answers rest : List Answer} {own : Answer} {reply : Reply} (h : answers = own :: rest)
    (hone : answers.map Answer.reply = [reply]) : own.reply = reply := by
  rw [h] at hone
  exact (List.cons.inj hone).1

def lapse : List Service.Step :=
  [.request (.acquire "a"), .run 0, .run 0, .run 0, .run 0, .request (.exchange "a" (.command .noop)), .run 1,
    .request (.abandon "a"), .request (.release "a"), .request (.acquire "b")]

/-- The next caller begins only once. -/
theorem lapse_once {before later : List Service.Step} (h : lapse ++ [.run 3] = before ++ .run 3 :: later) :
    before = lapse := by
  rcases List.eq_nil_or_concat later with rfl | ⟨rest, s, rfl⟩
  · exact (List.append_inj' h rfl).1.symm
  · have hlast : lapse ++ [.run 3] = (before ++ .run 3 :: rest) ++ [s] := by simpa using h
    have hsplit : lapse = before ++ .run 3 :: rest := (List.append_inj' hlast rfl).1
    have hmem : Service.Step.run 3 ∈ lapse := by rw [hsplit]; simp
    simp [lapse] at hmem

def lapsed : Service :=
  (new narrow true [patient.peer]).steps lapse

/-- The connection that was lent to one caller after the other. -/
def stray : Connection where
  id := 1
  transport := {
    buffered := "250 first\r\n250 second\r\n".toUTF8.toList
    stream := {
      arrivals := []
      outbound := { attempted := [.ehlo "localhost", .noop] } } }
  info := { hostname := "a" }

theorem steps_paired_lapsed :
    (∃ c', (lapsed.step (.run 3)).reply? 3 = some (⟨⟨250⟩, ["first"]⟩, c')) ∧
    lapsed.line? 3 = some (.rset, stray) ∧
    (patient.ahead narrow stray.written.attempted).map Answer.reply = [⟨⟨250⟩, ["second"]⟩] ∧
    (new narrow true [patient.peer]).Happened lapse fun w s => w.Abandons s 0 := by
  have hline : lapsed.line? 3 = some (.rset, stray) := by decide +kernel
  have hahead : (patient.ahead narrow stray.written.attempted).map Answer.reply = [⟨⟨250⟩, ["second"]⟩] := by
    decide +kernel
  obtain ⟨c', hreply⟩ : ∃ c', (lapsed.step (.run 3)).reply? 3 = some (⟨⟨250⟩, ["first"]⟩, c') := by
    have hfst : ((lapsed.step (.run 3)).reply? 3).map Prod.fst = some ⟨⟨250⟩, ["first"]⟩ := by decide +kernel
    obtain ⟨⟨reply, c'⟩, h, rfl⟩ := Option.map_eq_some_iff.1 hfst
    exact ⟨c', h⟩
  obtain ⟨before, later, line, c, he, hc, -, hown, hdirty⟩ :=
    (steps_paired narrow true [patient.peer] _ (alone_said patient) (lapse ++ [.run 3])).1 3 _ c'
      (by rw [steps_snoc]; exact hreply)
  obtain rfl := lapse_once he
  obtain ⟨rfl, rfl⟩ : line = .rset ∧ c = stray := by simpa using hc.symm.trans hline
  refine ⟨⟨c', hreply⟩, hline, hahead, hdirty ?_⟩
  -- The reply is not the answer to the `RSET`, so something was astray.
  by_contra hnot
  obtain ⟨own, rest, hcons, hr, -⟩ := hown.2 hnot
  rw [due_reply hcons hahead] at hr
  simp at hr

end Service

end SmtpClient.Pool
