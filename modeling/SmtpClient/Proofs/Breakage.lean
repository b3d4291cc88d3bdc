/-
A broken connection is dead: it stays as it is with whoever has it until it is
gone, and nothing is written to it. Each write of a step is an attempt's or a
line on an unbroken connection (`step_written`, `Writes.has`).
-/
import SmtpClient.Proofs.Closing
import SmtpClient.Proofs.Lineage

namespace SmtpClient

/-! ## Operations -/

namespace Connection

variable {c c' : Connection} {now : Nat} {line : Command}

/-- Nothing is got out of the connection any more. -/
structure Dead (c : Connection) : Prop where
  command : ∀ now line, c.command now line = (.ready (.error (.invalidState (.unusable c.id c.status))), c)
  probe : ∀ now, c.probe now = (.ready (.error (.invalidState (.unusable c.id c.status))), c)
  setBroken : c.setBroken = c
  close : ∀ now, (c.close now).written = c.written

/-- What can break the connection at this time, and what its close writes. -/
structure Usable (c : Connection) (now : Nat) : Prop where
  setBroken : c.setBroken.isBroken = true
  command : ∀ line, (c.command now line).2.isBroken = true ↔
    (∃ e, (c.command now line).1 = .ready (.error e)) ∨
      ∃ reply, (c.command now line).1 = .ready (.ok reply) ∧ reply.code = .serviceUnavailable
  probe : (c.probe now).2.isBroken = true ↔
    ∃ result, (c.command now .rset).1 = .ready result ∧ ∀ reply, result = .ok reply → reply.isSuccess = false
  close : (c.close now).written = { c.written with attempted := c.written.attempted ++ [.quit] }

theorem dead (h : c.isBroken = true) : c.Dead := by
  have hcommand : ∀ now line, c.command now line = (.ready (.error (.invalidState (.unusable c.id c.status))), c) :=
    fun now line => by simp only [command, begin_unusable h]
  refine ⟨hcommand, fun now => ?_, setBroken_broken h, fun now => ?_⟩
  · simp only [probe, hcommand, judge]
  · simp only [close, h, if_true]
    rfl

theorem command_written (h : c.isBroken = false) (now : Nat) (line : Command) :
    (c.command now line).2.written = { c.written with attempted := c.written.attempted ++ [line] } := by
  have hw := begin_written h line
  simp only [command]
  split
  · next hb => rw [hb] at hw; exact hw
  · next hb => rw [hb] at hw; exact (poll_written _ _ _).trans hw

theorem command_breaks (h : c.isBroken = false) : (c.command now line).2.isBroken = true ↔
    (∃ e, (c.command now line).1 = .ready (.error e)) ∨
      ∃ reply, (c.command now line).1 = .ready (.ok reply) ∧ reply.code = .serviceUnavailable := by
  simp only [command]
  split
  · next e c' hb => simp [begin_error hb]
  · next reader c' hb => exact poll_breaks ((isBroken_of_status (begin_ok_status hb)).trans h)

theorem probe_breaks (h : c.isBroken = false) : (c.probe now).2.isBroken = true ↔
    ∃ result, (c.command now .rset).1 = .ready result ∧
      ∀ reply, result = .ok reply → reply.isSuccess = false := by
  have hcommand : (c.command now .rset).2.isBroken = true ↔ _ := command_breaks h
  simp only [probe]
  split
  · next hc =>
    rw [hc] at hcommand ⊢
    simpa using hcommand
  next result c' hc =>
  have hjudge : (c'.judge result).2.isBroken = true ↔ ∀ reply, result = .ok reply → reply.isSuccess = false := by
    simp only [command] at hc
    split at hc
    · next hb =>
      cases hc
      simpa [judge] using begin_error hb
    · next hb => exact judge_breaks hc ((isBroken_of_status (begin_ok_status hb)).trans h)
  rw [hc]
  simpa using hjudge

theorem usable (h : c.isBroken = false) (now : Nat) : c.Usable now := by
  refine ⟨setBroken_isBroken c, fun _ => command_breaks h, probe_breaks h, ?_⟩
  simp only [close, h, Bool.false_eq_true, if_false]
  exact command_written h now .quit

end Connection

namespace Pool.Service

variable {w w' w'' : Service} {s : Step} {t x : Ticket} {c c' : Connection} {p p' : Place} {owner : String}
  {purpose : Purpose} {line : Command} {reader : ReplyReader} {id : Nat}

/-! ## What is written -/

/-- A step writes a line on a connection. -/
inductive Writes (w : Service) : Step → Connection → Command → Prop where
  | line {t : Ticket} {line : Command} {c : Connection} : w.line? t = some (line, c) → Writes w (.run t) c line
  | quit {t : Ticket} {owner : Option String} {holdsPool : Bool} {c : Connection} :
    w.work? t = some (.close owner holdsPool c none) → c.isBroken = false → Writes w (.run t) c .quit

/-- What the record of a stream holds that a step puts down. -/
inductive Utters (w : Service) : Step → Outbound → Prop where
  | line {s : Step} {c : Connection} {line : Command} : w.Writes s c line →
    Utters w s { c.written with attempted := c.written.attempted ++ [line] }
  /-- A refused exchange puts down what was written before. -/
  | again {t : Ticket} {owner : String} {purpose : Purpose} {c : Connection} :
    w.work? t = some (.exchange owner purpose c none) → c.isBroken = true → Utters w (.run t) c.written
  | attempt {t x : Ticket} {attempt : Attempt} {o : Outbound} : w.Tries t x attempt →
    (w.runOpening (.attempting attempt)).2.written = (w.record o).written → Utters w (.run t) o

/-- A line is written only on a connection that is not broken, and not on one to
which `QUIT` was written. -/
theorem Writes.has (h : w.Tracked) (hw : w.Writes s c line) : ∃ c₀ p, w.Has c₀ p ∧ c₀.id = c.id ∧
    c₀.isBroken = false ∧
      ∀ t, p = .closing t → ∃ owner holdsPool, w.work? t = some (.close owner holdsPool c₀ none) := by
  cases hw with
  | line hline =>
    rcases line?_some hline with ⟨_, _, ht, hb, -⟩ | ⟨_, l, _, -, hl, -, htake, -⟩
    · exact ⟨c, _, has_work ht rfl, rfl, hb, by simp⟩
    · obtain ⟨id, c₀, deadline, hmem, rfl, -⟩ := Ledger.takeIdle_some htake
      exact ⟨c₀, _, .parked hl hmem, rfl, h.parked_sound ⟨l, id, deadline, hl, hmem⟩, by simp⟩
  | @quit t owner holdsPool _ ht hb =>
    refine ⟨c, _, has_work ht rfl, rfl, hb, fun t' he => ?_⟩
    cases he
    exact ⟨owner, holdsPool, ht⟩

theorem written_record (w : Service) (o : Outbound) :
    (w.record o).written = if o.attempted = [] then w.written else putWritten o w.written := by
  unfold record
  split <;> rfl

theorem written_reap (w : Service) : w.reap.written = w.written := by
  unfold reap
  split <;> rfl

/-- By what the pool does on its own nothing is written, and nobody lets it go. -/
structure Inward (w w' : Service) : Prop where
  written : w'.written = w.written
  handle : w'.handle = w.handle

theorem Inward.trans (h : Inward w w') (h' : Inward w' w'') : Inward w w'' :=
  ⟨h'.written.trans h.written, h'.handle.trans h.handle⟩

theorem inward_withLedger (w : Service) (l : Ledger) : Inward w (w.withLedger l) := ⟨rfl, rfl⟩

theorem inward_closeDetached (w : Service) (c : Connection) : Inward w (w.closeDetached c) := ⟨rfl, rfl⟩

theorem inward_deliver (w : Service) (t : Ticket) (result : Except Error Connection) :
    Inward w (w.deliver t result) := by
  unfold deliver wake
  split
  · split <;> exact ⟨rfl, rfl⟩
  · exact ⟨rfl, rfl⟩

theorem inward_finish (w : Service) (drained : Option Drained) : Inward w (w.finish drained) := by
  unfold finish signal wake
  repeat' split
  all_goals exact ⟨rfl, rfl⟩

theorem inward_vacate (w : Service) (id : Option Nat) : Inward w (w.vacate id) := by
  unfold vacate
  split
  · exact ⟨rfl, rfl⟩
  next l hl =>
  refine Inward.trans ?_ (inward_finish _ _)
  show Inward w (Service.serveNext _ (l.vacate w.limit w.spawns w.waits id).1.waiter)
  cases (l.vacate w.limit w.spawns w.waits id).1.waiter <;> exact ⟨rfl, rfl⟩

theorem inward_release (w : Service) (c : Connection) : Inward w (w.release c) := by
  unfold release
  split
  · exact inward_vacate w _
  split
  · exact ⟨rfl, rfl⟩
  dsimp only
  split
  · exact ⟨rfl, rfl⟩
  · exact (inward_withLedger w _).trans (inward_deliver _ _ _)
  · split <;> exact ⟨rfl, rfl⟩

theorem inward_closePool {onDrained : Option DrainCall} (h : w.closePool onDrained = some w') : Inward w w' := by
  unfold closePool at h
  split at h
  · cases h
  split at h
  · cases h
  next l closing l' hb =>
  cases h
  have hrefused : ∀ (ts : List Ticket) (w : Service), Inward w (ts.foldl refuse w) := by
    intro ts
    induction ts with
    | nil => exact fun _ => ⟨rfl, rfl⟩
    | cons t ts ih => exact fun w => (inward_deliver w t _).trans (ih _)
  have hclosed : ∀ (cs : List Connection) (w : Service), Inward w (cs.foldl closeDetached w) := by
    intro cs
    induction cs with
    | nil => exact fun _ => ⟨rfl, rfl⟩
    | cons c cs ih => exact fun w => (inward_closeDetached w c).trans (ih _)
  exact (inward_withLedger w l').trans
    ((hrefused _ _).trans ((hclosed _ _).trans (inward_finish _ _)))

theorem written_runOpening (w : Service) (step : Opening) : (w.runOpening step).2.written = w.written ∨
    ∃ attempt o, step = .attempting attempt ∧ (w.runOpening step).2.written = (w.record o).written := by
  cases step with
  | reserved => exact .inl rfl
  | attempting attempt =>
    simp only [runOpening]
    split <;> exact .inr ⟨attempt, _, rfl, rfl⟩
  | failed e => exact .inl ((inward_vacate w none).written)
  | named c => exact .inl rfl

theorem written_conclude (w : Service) (t : Ticket) (owner : String) (result : Except Error Connection) :
    (w.conclude t owner result).written = w.written := by
  cases result <;> rfl

theorem written_settle (w : Service) (t : Ticket) (owner : String) (c : Connection) (purpose : Purpose)
    (result : Except Error Reply) : (w.settleExchange t owner c purpose result).written = w.written := by
  unfold settleExchange
  cases purpose with
  | command command => cases result <;> rfl
  | probe =>
    dsimp only
    split <;> rfl

theorem written_concludeClose (w : Service) (t : Ticket) (owner : Option String) (c : Connection) :
    (w.concludeClose t owner c).written = w.written := by
  have hd : ((w.endTask t).discard c).written = w.written := (inward_vacate _ _).written
  unfold concludeClose
  cases owner <;> exact hd

/-- Nothing is put down from `w` to `w'`, or what a step tells. -/
def Records (w : Service) (s : Step) (w' : Service) : Prop :=
  w'.written = w.written ∨ ∃ o, w.Utters s o ∧ w'.written = (w.record o).written

namespace Records

theorem congr {w'' : Service} (h : Records w s w') (he : w''.written = w'.written) : Records w s w'' := by
  rw [Records, he]
  exact h

theorem record (w₁ : Service) {o : Outbound} (he : w₁.written = w.written) (ho : w.Utters s o) :
    Records w s (w₁.record o) := by
  refine .inr ⟨o, ho, ?_⟩
  rw [written_record, written_record, he]

/-- A line that is begun is written as it is or fails. -/
theorem begin {result : Except Error ReplyReader} (w₁ : Service) (he : w₁.written = w.written)
    (hw : w.Writes s c line) (hb : c.isBroken = false) (hc : c.begin line = (result, c')) :
    Records w s (w₁.record c'.written) := by
  have hout := Connection.begin_written hb line
  rw [hc] at hout
  exact record w₁ he (hout ▸ .line hw)

theorem runOpening {step : Opening} (ht : ∀ attempt, step = .attempting attempt → w.Tries t x attempt) :
    Records w (.run t) (w.runOpening step).2 := by
  rcases written_runOpening w step with he | ⟨attempt, o, rfl, ho⟩
  · exact .inl he
  · exact .inr ⟨o, .attempt (ht attempt rfl) ho, ho⟩

theorem runAcquire {step : Acquire} (ht : w.work? t = some (.acquire owner step)) :
    Records w (.run t) (w.runAcquire t owner step) := by
  cases step with
  | start =>
    simp only [Service.runAcquire]
    split
    · exact .inl rfl
    next l hl =>
    rcases l.acquire_cases w.limit t with
      ⟨-, ha⟩ | ⟨hopen, c, l', htake, ha⟩ | ⟨hopen, -, -, ha⟩ | ⟨hopen, -, -, ha⟩ <;> rw [ha]
    · exact .inl rfl
    · have hline : w.line? t = some (.rset, c) := by simp [line?, ht, hl, hopen, htake]
      have hb : c.isBroken = false := by
        obtain ⟨_, _, _, -, rfl, -⟩ := Ledger.takeIdle_some htake
        rfl
      have hrecords : ∀ {result c'}, c.begin .rset = (result, c') →
          Records w (.run t) ((w.withLedger l').record c'.written) :=
        fun hc => begin (w.withLedger l') rfl (.line hline) hb hc
      dsimp only
      split <;> next hc => exact hrecords hc
    · exact .inl rfl
    · exact .inl rfl
  | verifying c reader =>
    simp only [Service.runAcquire]
    split
    · exact .inl rfl
    · split <;> exact .inl rfl
  | unsound c =>
    simp only [Service.runAcquire]
    split <;> exact .inl rfl
  | discarding c replaced => cases replaced <;> exact .inl (inward_vacate w _).written
  | opening step =>
    have ho : Records w (.run t) (w.runOpening step).2 :=
      runOpening fun attempt he => .own (he ▸ ht)
    simp only [Service.runAcquire]
    split <;> next he =>
      rw [he] at ho
      exact ho.congr (by first | rfl | exact written_conclude ..)
  | queued => exact .inl rfl
  | handed result => exact .inl (written_conclude w t owner result)

theorem runExchange {reader : Option ReplyReader} (ht : w.work? t = some (.exchange owner purpose c reader)) :
    Records w (.run t) (w.runExchange t owner purpose c reader) := by
  cases reader with
  | some reader =>
    simp only [Service.runExchange]
    split
    · exact .inl rfl
    · exact .inl (written_settle ..)
  | none =>
    simp only [Service.runExchange]
    have hrecords : ∀ {result c'}, c.begin purpose.line = (result, c') →
        Records w (.run t) (w.record c'.written) := by
      intro result c' hc
      cases hb : c.isBroken with
      | true =>
        rw [Connection.begin_unusable hb] at hc
        cases hc
        exact record w rfl (.again ht hb)
      | false =>
        have hline : w.line? t = some (purpose.line, c) := by simp [line?, ht, hb]
        exact begin w rfl (.line hline) hb hc
    split
    · next hc => exact hrecords hc
    · next hc => exact (hrecords hc).congr (written_settle ..)

theorem runClose {owner : Option String} {holdsPool : Bool} {quit : Option (ReplyReader × Nat)}
    (ht : w.work? t = some (.close owner holdsPool c quit)) :
    Records w (.run t) (w.runClose t owner holdsPool c quit) := by
  cases quit with
  | some q =>
    simp only [Service.runClose]
    split
    · exact .inl (written_concludeClose ..)
    split
    · exact .inl (written_concludeClose ..)
    · exact .inl rfl
  | none =>
    simp only [Service.runClose]
    split
    · exact .inl (written_concludeClose ..)
    next hsound =>
    have hb : c.isBroken = false := by simpa using hsound
    split
    · next hc => exact begin w rfl (.quit ht hb) hb hc
    · next hc => exact (begin w rfl (.quit ht hb) hb hc).congr (written_concludeClose ..)

theorem runServe {waiter : Ticket} {step : Opening} (ht : w.work? t = some (.serve waiter step)) :
    Records w (.run t) (w.runServe t waiter step) := by
  have ho : Records w (.run t) (w.runOpening step).2 :=
    runOpening fun attempt he => .served (he ▸ ht)
  unfold Service.runServe
  split
  · next he =>
    rw [he] at ho
    exact ho
  next he =>
  rw [he] at ho
  split
  · exact ho.congr (inward_deliver ..).written
  · split <;> exact ho

theorem runShutdown {step : Shutdown} : Records w (.run t) (w.runShutdown t owner step) := by
  cases step with
  | start =>
    simp only [Service.runShutdown]
    split
    · next hc =>
      have hsame := (inward_closePool hc).written
      exact .inl hsame
    · exact .inl rfl
  | draining => exact .inl rfl
  | drained => exact .inl rfl

theorem runWork {work : Work} (ht : w.work? t = some work) : Records w (.run t) (w.runWork t work) := by
  cases work with
  | acquire owner step => exact runAcquire ht
  | exchange owner purpose c reader => exact runExchange ht
  | close owner holdsPool c quit => exact runClose ht
  | expiry id deadline =>
    simp only [Service.runWork, runExpiry]
    repeat' split
    all_goals exact .inl rfl
  | serve waiter step => exact runServe ht
  | giveBack c => exact .inl (inward_release w c).written
  | giveUp c => exact .inl (inward_vacate _ _).written
  | shutdown owner step => exact runShutdown

end Records

/-- Callers write nothing, they only start tasks. -/
theorem written_ask {q : Request} (h : w.ask q = .ok w') : w'.written = w.written := by
  cases q with
  | acquire owner =>
    simp only [ask] at h
    obtain ⟨-, rfl⟩ := withPool_ok h
    rfl
  | shutdown owner =>
    simp only [ask] at h
    obtain ⟨-, rfl⟩ := withPool_ok h
    rfl
  | release owner =>
    obtain ⟨c, -, h⟩ := withHeld_ok h
    obtain ⟨-, rfl⟩ := withPool_ok h
    exact (inward_release _ c).written
  | drop owner =>
    obtain ⟨c, -, h⟩ := withHeld_ok h
    cases h
    exact (inward_vacate _ _).written
  | cancel owner =>
    cases h
    unfold cancel
    split
    · next hd =>
      obtain ⟨task, -, hd⟩ := Option.bind_eq_some_iff.1 hd
      refine (written_reap _).trans ?_
      unfold dropTask at hd
      dsimp only at hd
      split at hd <;> cases hd <;> first | rfl | exact (inward_vacate _ _).written
    · rfl
  | abandon owner =>
    cases h
    unfold abandon
    split <;> rfl
  | closePool callback =>
    obtain ⟨-, hc⟩ := closePool_ok h
    exact (inward_closePool hc).written
  | dropPool =>
    cases h
    exact written_reap _
  | _ =>
    obtain ⟨c, -, h⟩ := withHeld_ok h
    cases h
    rfl

/-- **What is written.** A step puts nothing down in the records of the streams, or
what an attempt wrote, or one line on an unbroken connection. -/
theorem step_written (w : Service) (s : Step) : Records w s (w.step s) := by
  cases s with
  | request q =>
    simp only [step]
    cases h : w.ask q with
    | error e => exact .inl rfl
    | ok w' => exact .inl (written_ask h)
  | run t =>
    simp only [step, run]
    split
    · exact .inl rfl
    · next ht => exact (Records.runWork ht).congr (written_reap _)
  | tick ms => exact .inl rfl

/-! ## What is broken -/

theorem holding_reap (w : Service) : w.reap.holding = w.holding := by
  unfold reap
  split <;> rfl

theorem events_reap (w : Service) : w.reap.events = w.events := by
  unfold reap
  split <;> rfl

theorem holding_settle (w : Service) (t : Ticket) (owner : String) (c : Connection) (purpose : Purpose)
    (result : Except Error Reply) :
    (w.settleExchange t owner c purpose result).holding = w.holding ++ [(owner, purpose.settled c result)] := by
  unfold settleExchange
  cases purpose with
  | command command => cases result <;> rfl
  | probe =>
    dsimp only [Purpose.settled]
    split <;> next he => rw [he]; rfl

/-- Whoever waited for a reply has the connection afterwards. -/
theorem Awaits.settles {result : Except Error Reply} (h : w.Awaits t purpose c reader)
    (hp : c.poll w.now reader = (.ready result, c')) :
    ∃ owner, (w.step (.run t)).Has (purpose.settled c' result) (.caller owner) := by
  cases h with
  | @exchange owner _ _ _ ht =>
    refine ⟨owner, .held ?_⟩
    simp only [step, run, ht, runWork, runExchange, hp, holding_reap, holding_settle]
    exact List.mem_append_right _ (List.mem_singleton.2 rfl)
  | @verify owner _ _ ht =>
    refine ⟨owner, ?_⟩
    cases hj : c'.judge result with
    | mk verdict c'' =>
      rw [Purpose.settled, hj]
      cases verdict with
      | ok u =>
        refine .held ?_
        simp only [step, run, ht, runWork, runAcquire, hp, hj, holding_reap]
        exact List.mem_append_right _ (List.mem_singleton.2 rfl)
      | error e =>
        have hw : (w.step (.run t)).work? t = some (.acquire owner (.unsound c'')) := by
          simp only [step, run, ht, runWork, runAcquire, hp, hj, work?_reap, become, work?_await, if_true,
            Option.map_some]
        exact has_work hw rfl

/-- An exchange that fails to begin gives its caller the connection back. -/
theorem step_refused {e : Error} (ht : w.work? t = some (.exchange owner purpose c none))
    (hb : c.begin purpose.line = (.error e, c')) :
    (w.step (.run t)).events = w.events ++ [(owner, .failed e)] ∧ (w.step (.run t)).Has c' (.caller owner) := by
  obtain ⟨written, he⟩ := record_eq w c'.written
  have hback : w.step (.run t) = ((({ w with written }.endTask t).hold owner c').tell owner (.failed e)).reap := by
    simp only [step, run, ht, runWork, runExchange, hb, he, settleExchange]
    cases purpose with
    | command command => rfl
    | probe => rfl
  rw [hback]
  refine ⟨events_reap _, .held ?_⟩
  rw [holding_reap]
  exact List.mem_append_right _ (List.mem_singleton.2 rfl)

/-- An acquire whose `RSET` cannot be written keeps the connection to give it up. -/
theorem step_unsound {l l' : Ledger} {e : Error} (ht : w.work? t = some (.acquire owner .start)) (hl : w.ledger = some l)
    (hopen : l.closing = false) (htake : l.takeIdle = some (c, l')) (hb : c.begin .rset = (.error e, c')) :
    (w.step (.run t)).Has c' (.caller owner) := by
  have ha : l.acquire w.limit t = (.reuse c, l') := by simp [Ledger.acquire, hopen, htake]
  have hself : ((w.withLedger l').record c'.written).work? t = some (.acquire owner .start) :=
    (work?_record _ _ t).trans ht
  have hw : (w.step (.run t)).work? t = some (.acquire owner (.unsound c')) := by
    simp only [step, run, ht, runWork, runAcquire, hl, ha, hb, work?_reap, become, work?_await, if_true, hself,
      Option.map_some]
  exact has_work hw rfl

/-- A connection that a step breaks is there afterwards, broken. -/
theorem Breaks.broken (h : w.Breaks s c) : ∃ c' p', (w.step s).Has c' p' ∧ c'.id = c.id ∧ c'.isBroken = true := by
  have hawaits : ∀ {t purpose c c' reader result}, w.Awaits t purpose c reader →
      c.poll w.now reader = (.ready result, c') → (purpose.settled c' result).isBroken = true →
      ∃ d p, (w.step (.run t)).Has d p ∧ d.id = c.id ∧ d.isBroken = true := by
    intro t purpose c c' reader result h hp hb
    obtain ⟨owner, hhas⟩ := h.settles hp
    exact ⟨_, _, hhas, (settled_id purpose c' result).trans (Connection.id_of_poll hp), hb⟩
  cases h with
  | @called owner _ hc =>
    refine ⟨c.setBroken, .caller owner, .held ?_, c.setBroken_id, c.setBroken_isBroken⟩
    simp only [step, ask, withHeld, hc]
    exact List.mem_append_right _ (List.mem_singleton.2 rfl)
  | @unwritten t line _ c' e hline hb =>
    rcases line?_some hline with ⟨owner, _, ht, -, rfl⟩ | ⟨owner, l, l', ht, hl, hopen, htake, rfl⟩
    · exact ⟨c', _, (step_refused ht hb).2, Connection.id_of_begin hb, Connection.begin_error hb⟩
    · exact ⟨c', _, step_unsound ht hl hopen htake hb, Connection.id_of_begin hb, Connection.begin_error hb⟩
  | unanswered h hp => exact hawaits h hp (settled_broken _ _ (Connection.poll_error hp))
  | leaves h hp hcode => exact hawaits h hp (settled_broken _ _ (Connection.poll_leaves hp hcode))
  | @refused _ _ c' _ reply h hp hs =>
    have hsettled : Purpose.probe.settled c' (.ok reply) = c'.setBroken := by
      simp only [Purpose.settled, Connection.judge, hs, Bool.false_eq_true, if_false]
    exact hawaits h hp (hsettled ▸ Connection.setBroken_isBroken c')

/-- What an acquire returns is with its caller afterwards. -/
theorem step_acquired {step : Acquire} {auth : AuthOutcome} {status : Status}
    (ht : w.work? t = some (.acquire owner step))
    (h : (w.act (.run t)).events = w.events ++ [(owner, .acquired id auth status)]) :
    ∃ c, w.Concludes step (.ok c) ∧ c.id = id ∧ (w.step (.run t)).Has c (.caller owner) := by
  obtain ⟨c, hc, hmem, hid, -, -⟩ := act_acquired ht h
  refine ⟨c, hc, hid, .held ?_⟩
  rcases step_act w (.run t) with hs | hs <;> rw [hs]
  · exact hmem
  · rwa [holding_reap]

/-! ## Connections that nothing is done with -/

namespace Tracked

/-- A broken connection is with its caller or with a task that closes it. -/
theorem broken_place (h : w.Tracked) (hc : w.Has c p) (hb : c.isBroken = true) :
    (∃ owner, p = .caller owner) ∨ ∃ t, p = .closing t := by
  have hinuse : c.status ≠ .inUse := fun hs => Bool.false_ne_true ((Connection.isBroken_inUse hs).symm.trans hb)
  cases hc with
  | parked hl hmem => exact absurd (hb.symm.trans (h.parked_sound ⟨_, _, _, hl, hmem⟩)) (by simp)
  | held => exact .inl ⟨_, rfl⟩
  | @task task _ _ hmem ho =>
    have hfit := h.fitted.work _ _ (work?_eq h.accounts.tickets hmem)
    unfold Task.owns at ho
    split at ho <;> cases ho
    · exact .inl ⟨_, rfl⟩
    · exact .inl ⟨_, rfl⟩
    · exact .inl ⟨_, rfl⟩
    · exact .inl ⟨_, rfl⟩
    · next hw => rw [hw] at hfit; exact absurd hfit hinuse
    · next hw => rw [hw] at hfit; exact absurd hfit hinuse
    · exact .inr ⟨_, rfl⟩
    · exact .inr ⟨_, rfl⟩

/-- Once broken it stays as it is until it is gone. -/
theorem broken_along (h : w.Tracked) (hc : w.Has c p) (hb : c.isBroken = true) (later : List Step) :
    ∀ c' p', (w.steps later).Has c' p' → c'.id = c.id → c' = c ∧ (p' = p ∨ ∃ t, p' = .closing t) := by
  refine h.along (Q := fun _ c' p' => c' = c ∧ (p' = p ∨ ∃ t, p' = .closing t)) (h.taken_of_has hc) ?_ ?_ later
  · rintro w s c₁ p₁ c' p' - - hd - ⟨rfl, hp⟩
    obtain ⟨rfl, hp' | hp'⟩ := hd.broken hb
    · exact ⟨rfl, hp' ▸ hp⟩
    · exact ⟨rfl, .inr hp'⟩
  · intro c' p' hc' hid
    obtain ⟨rfl, rfl⟩ := h.unique hc hc' hid
    exact ⟨rfl, .inl rfl⟩

end Tracked

theorem has_closing (hn : (w.tasks.map Task.ticket).Nodup) (h : w.Has c (.closing t)) :
    ∃ work, w.work? t = some work ∧ Task.owns { ticket := t, work } = some (c, .closing t) := by
  cases h with
  | @task task _ _ hmem ho =>
    obtain rfl : task.ticket = t := by
      unfold Task.owns at ho
      split at ho <;> cases ho <;> rfl
    exact ⟨task.work, work?_eq hn hmem, ho⟩

theorem work?_concludeClose (ht : t < w.nextTicket) (owner : Option String) (c : Connection) :
    (w.concludeClose t owner c).work? t = none := by
  have hended : Within (t + 1) 0 (fun x work => x = t → work = none) (fun _ _ => True) (fun _ _ _ => True)
      (fun _ _ => True) (fun _ => True) (w.endTask t) := by
    refine ⟨ht, Nat.zero_le _, trivial, trivial, fun x hx => ?_, fun _ _ => trivial, fun _ _ _ _ => trivial⟩
    rw [work?_endTask, if_pos hx]
  have hd := hended.vacate (some c.id) (fun t' _ hlt _ _ (he : t' = t) => absurd (he ▸ hlt) (Nat.lt_irrefl t))
    (fun _ _ _ _ _ => trivial) (fun _ => trivial) fun t' _ hp he => by cases hp he
  unfold concludeClose
  cases owner <;> exact hd.work t rfl

/-- A close writes `QUIT` when it begins, and waits for the reply if it can. -/
theorem step_quit {owner : Option String} {holdsPool : Bool} (ht : w.work? t = some (.close owner holdsPool c none))
    (hlt : t < w.nextTicket) (hb : c.isBroken = false) :
    let said := { c.written with attempted := c.written.attempted ++ [.quit] }
    (w.step (.run t)).written = (w.record said).written ∧
      ((w.step (.run t)).work? t = none ∨ ∃ c' q, c'.written = said ∧
        (w.step (.run t)).work? t = some (.close owner holdsPool c' (some q))) := by
  intro said
  have hout : (c.begin .quit).2.written = said := Connection.begin_written hb .quit
  cases hq : c.begin .quit with
  | mk result c' =>
    rw [hq] at hout
    simp only [step, run, ht, runWork, runClose, hb, hq, Bool.false_eq_true, if_false, written_reap, work?_reap]
    cases result with
    | ok r =>
      refine ⟨by rw [← hout]; rfl, .inr ⟨c', (r, w.now + Connection.quitTimeout), hout, ?_⟩⟩
      have hself := (work?_record w c'.written t).trans ht
      simp only [become, work?_await, if_true, hself, Option.map_some]
    | error e =>
      have hlt' : t < (w.record c'.written).nextTicket := by
        obtain ⟨written, he⟩ := record_eq w c'.written
        rw [he]
        exact hlt
      refine ⟨?_, .inl (work?_concludeClose hlt' owner c')⟩
      rw [written_concludeClose, ← hout]

/-- After its `QUIT` a connection stays with the task that closes it and writes
nothing more. -/
theorem Tracked.quit_along (h : w.Tracked) {owner : Option String} {holdsPool : Bool}
    (ht : w.work? t = some (.close owner holdsPool c none)) (hb : c.isBroken = false) (later : List Step) :
    let said := { c.written with attempted := c.written.attempted ++ [.quit] }
    ∀ c' p', ((w.step (.run t)).steps later).Has c' p' → c'.id = c.id → p' = .closing t ∧ c'.written = said ∧
      ∃ owner holdsPool q, ((w.step (.run t)).steps later).work? t = some (.close owner holdsPool c' (some q)) := by
  intro said
  have hc : w.Has c (.closing t) := has_work ht rfl
  have ht' := h.taken_of_has hc
  refine (h.step _).along (Q := fun w c' p' => p' = .closing t ∧ c'.written = said ∧
    ∃ owner holdsPool q, w.work? t = some (.close owner holdsPool c' (some q))) (ht'.step _) ?_ ?_ later
  · rintro w s c₁ p₁ c' p' htracked - hd hc' ⟨rfl, hw, owner, holdsPool, q, hq⟩
    obtain rfl := hd.closing t rfl
    obtain ⟨work, hwork, ho⟩ := has_closing (htracked.step s).accounts.tickets hc'
    rcases step_work hwork with hsame | hcomes
    · cases hq.symm.trans hsame
      cases ho
      exact ⟨rfl, hw, owner, holdsPool, q, hwork⟩
    cases hcomes with
    | starts hn _ => exact absurd (work?_lt htracked.accounts.issued hq) (Nat.not_lt.2 hn)
    | goes hg hgoes =>
      cases hq.symm.trans hg
      cases hgoes with
      | @quitting _ _ _ _ reader _ _ _ hp =>
        cases ho
        have hsame := c₁.poll_written w.now reader
        rw [hp] at hsame
        exact ⟨rfl, hsame.trans hw, owner, holdsPool, _, hwork⟩
    | handed hg => cases hq.symm.trans hg
    | drained hg => cases hq.symm.trans hg
  · intro c' p' hc' hid
    rcases h.descends hc' with hnew | ⟨c₀, p₀, hc₀, hd⟩
    · exact absurd (hid ▸ hnew.named) ht'.recorded
    obtain ⟨rfl, rfl⟩ := h.unique hc hc₀ (hd.id.symm.trans hid)
    obtain rfl := hd.closing t rfl
    obtain ⟨work, hwork, ho⟩ := has_closing (h.step _).accounts.tickets hc'
    rcases (step_quit ht (work?_lt h.accounts.issued ht) hb).2 with hnone | ⟨c₁, q, hw, hq⟩
    · cases hnone.symm.trans hwork
    · cases hq.symm.trans hwork
      cases ho
      exact ⟨rfl, hw, owner, holdsPool, q, hq⟩

/-- **A broken connection is dead.** In every run a connection has one owner. One
that is not broken is broken by a step just if its caller says so, an exchange on it
fails, its server says that it goes away, or a probe is not answered with success.
From then on it stays as it is, with the same caller or with a task that closes it:
exchanges on it are refused, no step writes to it, and no acquire returns it, since
what one returns is not broken. What is not broken when it is closed gets `QUIT`
written to it and nothing after that. Whatever a step writes is an attempt's or one
line on an unbroken connection. The same holds of the operations of a connection by
themselves. -/
theorem steps_broken (config : Config) (spawns : Bool) (peers : List Peer) (run : List Step) :
    let w := (new config spawns peers).steps run
    (∀ c p c' p', (c, p) ∈ w.connections → (c', p') ∈ w.connections → c'.id = c.id → c' = c ∧ p' = p) ∧
    (∀ s c p, (c, p) ∈ (w.step s).connections → c.isBroken = true →
      (∃ p₀, (c, p₀) ∈ w.connections) ∨ w.Spoils s c.id) ∧
    (∀ s id, w.Spoils s id → ∃ c p, (c, p) ∈ (w.step s).connections ∧ c.id = id ∧ c.isBroken = true) ∧
    (∀ c p, (c, p) ∈ w.connections → c.isBroken = true → ∀ later,
      let w' := w.steps later
      (∀ c' p', (c', p') ∈ w'.connections → c'.id = c.id → c' = c ∧ (p' = p ∨ ∃ t, p' = .closing t) ∧
        ((∃ owner, p' = .caller owner) ∨ ∃ t, p' = .closing t)) ∧
      (∀ t owner purpose reader, w'.work? t = some (.exchange owner purpose c reader) →
        (w'.step (.run t)).events = w'.events ++ [(owner, .failed (.invalidState (.unusable c.id c.status)))] ∧
        (c, .caller owner) ∈ (w'.step (.run t)).connections) ∧
      ∀ s c' line, w'.Writes s c' line → c'.id ≠ c.id) ∧
    (∀ t owner step id auth status, w.work? t = some (.acquire owner step) →
      (w.act (.run t)).events = w.events ++ [(owner, .acquired id auth status)] →
      ∃ c, (c, .caller owner) ∈ (w.step (.run t)).connections ∧ c.id = id ∧ c.isBroken = false) ∧
    (∀ t owner holdsPool c, w.work? t = some (.close owner holdsPool c none) → c.isBroken = false →
      let said := { c.written with attempted := c.written.attempted ++ [.quit] }
      (w.step (.run t)).written = (w.record said).written ∧ ∀ later,
        let w' := (w.step (.run t)).steps later
        (∀ c' p', (c', p') ∈ w'.connections → c'.id = c.id → p' = .closing t ∧ c'.written = said) ∧
        ∀ s c' line, w'.Writes s c' line → c'.id ≠ c.id) ∧
    (∀ s, w.Records s (w.step s)) ∧
    ∀ c : Connection, (c.isBroken = true → c.Dead) ∧ (c.isBroken = false → ∀ now, c.Usable now) := by
  intro w
  have h : w.Tracked := (Tracked.new config spawns peers).steps run
  refine ⟨fun c p c' p' hc hc' hid => h.unique (mem_connections.1 hc) (mem_connections.1 hc') hid,
    fun s c p hc hb => ?_, ?_, fun c p hc hb later => ⟨?_, ?_, ?_⟩,
    fun t owner step id auth status ht hev => ?_, fun t owner holdsPool c ht hb => ⟨?_, ?_⟩, step_written w,
    fun c => ⟨c.dead, c.usable⟩⟩
  · rcases h.descends (mem_connections.1 hc) with hnew | ⟨c₀, p₀, hc₀, hd⟩
    · exact absurd (hnew.sound.symm.trans hb) Bool.false_ne_true
    cases hb₀ : c₀.isBroken with
    | true =>
      obtain ⟨rfl, -⟩ := hd.broken hb₀
      exact .inl ⟨p₀, mem_connections.2 hc₀⟩
    | false => exact .inr (hd.id ▸ hd.spoilt hb₀ hb)
  · rintro s id ⟨c₀, hbreaks, hid⟩
    obtain ⟨c', p', hc', hid', hb'⟩ := hbreaks.broken
    exact ⟨c', p', mem_connections.2 hc', hid'.trans hid, hb'⟩
  · intro c' p' hc' hid
    have hc' := mem_connections.1 hc'
    obtain ⟨rfl, hp⟩ := h.broken_along (mem_connections.1 hc) hb later c' p' hc' hid
    exact ⟨rfl, hp, (h.steps later).broken_place hc' hb⟩
  · intro t owner purpose reader ht
    cases reader with
    | some reader =>
      have hsound := Connection.isBroken_inUse ((h.steps later).fitted.work _ _ ht)
      exact absurd (hsound.symm.trans hb) Bool.false_ne_true
    | none =>
      obtain ⟨hev, hhas⟩ := step_refused ht (Connection.begin_unusable hb purpose.line)
      exact ⟨hev, mem_connections.2 hhas⟩
  · intro s c' line hw hid
    obtain ⟨c₀, p₀, hc₀, hid₀, hb₀, -⟩ := hw.has (h.steps later)
    obtain ⟨rfl, -⟩ := h.broken_along (mem_connections.1 hc) hb later c₀ p₀ hc₀ (hid₀.trans hid)
    exact Bool.false_ne_true (hb₀.symm.trans hb)
  · obtain ⟨c, hconcludes, hid, hhas⟩ := step_acquired ht hev
    exact ⟨c, mem_connections.2 hhas, hid, Connection.isBroken_inUse (h.fitted.concludes ht hconcludes)⟩
  · exact (step_quit ht (work?_lt h.accounts.issued ht) hb).1
  · intro later
    have hquit := h.quit_along ht hb later
    refine ⟨fun c' p' hc' hid => ?_, fun s c' line hw hid => ?_⟩
    · obtain ⟨hp, hsaid, -⟩ := hquit c' p' (mem_connections.1 hc') hid
      exact ⟨hp, hsaid⟩
    · obtain ⟨c₀, p₀, hc₀, hid₀, -, hclose⟩ := hw.has ((h.step _).steps later)
      obtain ⟨hp, -, _, _, _, hq⟩ := hquit c₀ p₀ hc₀ (hid₀.trans hid)
      obtain ⟨_, _, hnone⟩ := hclose t hp
      cases hnone.symm.trans hq

/-- A run in which a caller breaks the connection that it has and then asks for a
`NOOP` on it. -/
def spoilt : Service :=
  (new narrow true [plainPeer]).steps [.request (.acquire "a"), .run 0, .run 0, .run 0, .run 0,
    .request (.setBroken "a"), .request (.exchange "a" (.command .noop))]

/-- The command is refused, and whatever comes then, nobody else gets the connection. -/
theorem steps_broken_spoilt : ∃ c, (c, .caller "a") ∈ spoilt.connections ∧ c.id = 1 ∧ c.isBroken = true ∧
    (spoilt.step (.run 1)).events =
      spoilt.events ++ [("a", .failed (.invalidState (.unusable 1 .broken)))] ∧
    ∀ later c' p', (c', p') ∈ (spoilt.steps later).connections → c'.id = 1 →
      c' = c ∧ (p' = .caller "a" ∨ ∃ t, p' = .closing t) := by
  obtain ⟨purpose, c, reader, ht, hid, hstatus⟩ : ∃ purpose c reader,
      spoilt.work? 1 = some (.exchange "a" purpose c reader) ∧ c.id = 1 ∧ c.status = .broken := by
    have hwork : (spoilt.work? 1).any (fun
        | .exchange owner _ c _ => owner = "a" && c.id = 1 && c.status = .broken
        | .acquire .. | .close .. | .expiry .. | .serve .. | .giveBack _ | .giveUp _ | .shutdown .. =>
          false) = true := by decide +kernel
    obtain ⟨work, hw, hb⟩ := (Option.any_eq_true _ _).1 hwork
    cases work with
    | exchange owner purpose c reader =>
      simp only [Bool.and_eq_true, decide_eq_true_eq] at hb
      obtain ⟨⟨rfl, hid⟩, hstatus⟩ := hb
      exact ⟨purpose, c, reader, hw, hid, hstatus⟩
    | _ => cases hb
  have hc : (c, .caller "a") ∈ spoilt.connections := mem_connections.2 (has_work ht rfl)
  have hb : c.isBroken = true := (Connection.isBroken_eq c).2 (.inl hstatus)
  obtain ⟨-, -, -, hdead, -⟩ := steps_broken narrow true [plainPeer] [.request (.acquire "a"), .run 0, .run 0, .run 0,
    .run 0, .request (.setBroken "a"), .request (.exchange "a" (.command .noop))]
  refine ⟨c, hc, hid, hb, ?_, fun later c' p' hc' hid' => ?_⟩
  · have hev := ((hdead c _ hc hb []).2.1 1 "a" purpose reader ht).1
    rwa [hid, hstatus] at hev
  · obtain ⟨rfl, hp, -⟩ := (hdead c _ hc hb later).1 c' p' hc' (hid'.trans hid.symm)
    exact ⟨rfl, hp⟩

end Pool.Service

end SmtpClient
