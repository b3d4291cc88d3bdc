/-
Where the connections come from that acquires return, and where their errors.
A task that is about to return a connection has it from an attempt, from the
caller who released it or from a slot and a probe (`sourced`). The probe went by
the answer to its own line just if nothing was astray there (`Probed.own`). No
caller has more than one attempt made for it (`Spent`).
-/
import SmtpClient.Proofs.Closing
import SmtpClient.Proofs.Pairing
import SmtpClient.Proofs.Statuses

namespace SmtpClient.Pool

/-- May still come to make an attempt of its own, or to wait for one. -/
def Acquire.undecided : Acquire → Bool
  | .start | .verifying .. | .unsound _ | .discarding .. | .opening .reserved => true
  | _ => false

/-- Waits for the reply to its `RSET`. -/
def Acquire.verifies : Acquire → Bool
  | .verifying .. => true
  | _ => false

/-- The caller for whom a task waits for the reply to a `RSET`. -/
def Work.verifier? : Work → Option String
  | .acquire owner (.verifying ..) => some owner
  | _ => none

namespace Service

variable {w : Service} {s : Step} {run : List Step} {l : Ledger} {t u x : Ticket} {owner : String}
  {c c' : Connection} {e : Error}

/-! ## Origins -/

/-- An attempt opened this connection in a run, and nothing was done with it since. -/
def Fresh (w : Service) (run : List Step) (c : Connection) : Prop :=
  w.Happened run fun w s => ∃ u x attempt session transport, s = .run u ∧ w.Tries u x attempt ∧
    attempt.poll w.config w.now = .opened session transport ∧ c = Connection.ofEstablished w.nextId session transport

/-- A caller who waited got this connection in a run from its holder, who
released it unbroken. -/
def Passed (w : Service) (run : List Step) (x : Ticket) (c : Connection) : Prop :=
  w.Happened run fun w s => ∃ holder owner, s = .request (.release holder) ∧ w.held? holder = some c ∧
    c.isBroken = false ∧ x ∈ w.queue ∧ (w.step s).work? x = some (.acquire owner (.handed (.ok c)))

/-- An acquire takes this connection, which is idle, out of its slot and writes
`RSET` to it. -/
def Reuses (w : Service) (t : Ticket) (c : Connection) : Prop :=
  ∃ owner l id parked deadline, w.work? t = some (.acquire owner .start) ∧ w.ledger = some l ∧
    (id, .idle parked deadline) ∈ l.live ∧ c = { parked with status := .inUse } ∧
    ∃ c', c.begin .rset = (.ok {}, c')

/-- An acquire has written `RSET` to an idle connection and asked since. -/
def Probing (w : Service) (run : List Step) (t : Ticket) (c' : Connection) (reader : ReplyReader) : Prop :=
  ∃ before later c, run = before ++ .run t :: later ∧ (w.steps before).Reuses t c ∧ Asked c .rset c' reader

/-- An acquire took an idle connection, wrote `RSET` to it and read this reply behind it, a positive one.
Whether that is the answer to the `RSET` is not said. -/
structure Probed (w : Service) (run : List Step) (t : Ticket) (c' : Connection) (before : List Step) (c : Connection)
    (reply : Reply) : Prop where
  ran : ∃ later, run = before ++ .run t :: later
  reuses : (w.steps before).Reuses t c
  written : c'.written = { c.written with attempted := c.written.attempted ++ [.rset] }
  read : ∃ taken, ({} : ReplyReader).read taken = .done (.ok reply, []) ∧ taken ++ c'.unread = c.unread
  positive : reply.isSuccess = true

/-- An attempt that was made for this caller in a run failed. -/
def Failed (w : Service) (run : List Step) (x : Ticket) (e : Error) : Prop :=
  w.Happened run fun w s => ∃ u attempt written, s = .run u ∧ w.Tries u x attempt ∧
    attempt.poll w.config w.now = .failed e written

theorem Fresh.mono (h : w.Fresh run c) (s : Step) : w.Fresh (run ++ [s]) c := Happened.mono h s

theorem Failed.mono (h : w.Failed run x e) (s : Step) : w.Failed (run ++ [s]) x e := Happened.mono h s

theorem Probing.mono {reader : ReplyReader} (h : w.Probing run t c reader) (s : Step) :
    w.Probing (run ++ [s]) t c reader := by
  obtain ⟨before, later, c₀, rfl, hreuses, hasked⟩ := h
  exact ⟨before, later ++ [s], c₀, by simp, hreuses, hasked⟩

theorem Probing.pending {now : Nat} {wake : Option Nat} {reader reader' : ReplyReader} (h : w.Probing run t c reader)
    (hp : c.poll now reader = (.pending wake reader', c')) (s : Step) : w.Probing (run ++ [s]) t c' reader' := by
  obtain ⟨before, later, c₀, rfl, hreuses, hasked⟩ := h
  exact ⟨before, later ++ [s], c₀, by simp, hreuses, hasked.pending hp⟩

theorem Probing.passed {now : Nat} {reader : ReplyReader} {result : Except Error Reply} {c'' : Connection}
    (h : w.Probing run t c reader) (hp : c.poll now reader = (.ready result, c'))
    (hj : c'.judge result = (.ok (), c'')) : ∃ before c₀ reply, w.Probed run t c'' before c₀ reply := by
  obtain ⟨before, later, c₀, he, hreuses, hasked⟩ := h
  obtain ⟨rfl, reply, rfl, hs⟩ := Connection.judge_ok hj
  obtain ⟨hw, htaken⟩ := hasked.replied hp
  exact ⟨before, c₀, reply, ⟨later, he⟩, hreuses, hw, htaken, hs⟩

/-- Where servers answer each line once, the reply is the answer to the `RSET` just if nothing was astray when
that was written, and something is only where an exchange on the stream had been abandoned. -/
theorem Probed.own {config : Config} {spawns : Bool} {peers : List Peer} {before : List Step} {reply : Reply}
    {sessions : Nat → Session} (hs : Say peers sessions)
    (h : (new config spawns peers).Probed run t c' before c reply) :
    let k := Conduct.mk config sessions fun n =>
      (new config spawns peers).Happened before fun w s => w.Abandons s n
    ((∃ own rest, k.ahead c = own :: rest ∧ reply = own.reply ∧ c'.unread = wire rest) ↔ ¬ k.Astray c) ∧
      (k.Astray c → k.dirty c.written.number) := by
  intro k
  have hpaired : Paired k peers ((new config spawns peers).steps before) :=
    (Paired.new rfl).steps hs (Accounts.new config spawns peers) before fun _ hn => hn
  obtain ⟨owner, l, id, parked, deadline, -, hl, hmem, rfl, -⟩ := h.reuses
  have hrests : k.Rests parked := hpaired.parked parked ⟨l, id, deadline, hl, hmem⟩
  obtain ⟨taken, hread, hall⟩ := h.read
  exact ⟨Conduct.Rests.own (c := { parked with status := .inUse }) hrests hread hall, hrests.dirty⟩

/-- Whatever a task is about to return or to hand on has its source in the run. -/
def Sourced (w : Service) (run : List Step) (t : Ticket) : Work → Prop
  | .acquire _ (.opening (.named c)) | .serve _ (.named c) | .giveBack c => w.Fresh run c
  | .acquire _ (.verifying c reader) => w.Probing run t c reader
  | .acquire _ (.handed (.ok c)) => w.Fresh run c ∨ w.Passed run t c
  | .acquire _ (.handed (.error e)) => e = .poolClosed ∨ w.Failed run t e
  | .acquire _ (.opening (.failed e)) => w.Failed run t e
  | .serve x (.failed e) => w.Failed run x e
  | _ => True

theorem Sourced.mono {work : Work} (h : w.Sourced run t work) (s : Step) : w.Sourced (run ++ [s]) t work := by
  cases work with
  | acquire owner step =>
    cases step with
    | verifying c reader => exact Probing.mono h s
    | opening step =>
      cases step with
      | failed e => exact Failed.mono h s
      | named c => exact Fresh.mono h s
      | _ => exact True.intro
    | handed result =>
      cases result with
      | ok c => exact h.imp (fun h => h.mono s) fun h => Happened.mono h s
      | error e => exact h.imp_right fun h => h.mono s
    | _ => exact True.intro
  | serve x step =>
    cases step with
    | failed e => exact Failed.mono h s
    | named c => exact Fresh.mono h s
    | _ => exact True.intro
  | giveBack c => exact Fresh.mono h s
  | _ => exact True.intro

/-- What an opening comes to is what its attempt comes to. -/
theorem Advances.sourced {step step' : Opening} (h : (w.steps run).Advances step step')
    (hu : ∀ attempt, step = .attempting attempt → (w.steps run).Tries u x attempt) :
    match step' with
      | .named c => w.Fresh (run ++ [.run u]) c
      | .failed e => w.Failed (run ++ [.run u]) x e
      | _ => True := by
  cases h with
  | connects => exact True.intro
  | waits => exact True.intro
  | opens hp => exact happened_last ⟨u, x, _, _, _, rfl, hu _ rfl, hp, rfl⟩
  | fails hp => exact happened_last ⟨u, _, _, rfl, hu _ rfl, hp⟩

theorem sourced (hw : w.tasks = []) (run : List Step) {work : Work} (h : (w.steps run).work? t = some work) :
    w.Sourced run t work := by
  induction run using List.reverseRecOn generalizing t work with
  | nil =>
    simp only [Service.steps, List.foldl_nil, work?, task?, hw] at h
    cases h
  | append_singleton run s ih =>
    rw [steps_snoc] at h
    rcases step_work h with hsame | hcomes
    · exact (ih hsame).mono s
    cases hcomes with
    | starts _ hstart => cases hstart <;> exact True.intro
    | goes ht hg =>
      have hold := ih ht
      cases hg with
      | reuse hl _ htake hb =>
        obtain ⟨id, parked, deadline, hmem, hc, -⟩ := Ledger.takeIdle_some htake
        obtain ⟨-, rfl, -⟩ := Connection.begin_ok hb
        exact ⟨run, [], _, rfl, ⟨_, _, id, parked, deadline, ht, hl, hmem, hc, _, hb⟩, .begin hb⟩
      | verify hp => exact Probing.pending hold hp _
      | opening hr =>
        have ha := (runOpening_goesOn hr).sourced (u := t) (x := t) fun attempt he => .own (he ▸ ht)
        cases runOpening_goesOn hr <;> exact ha
      | @serve waiter _ _ _ hr =>
        have ha := (runOpening_goesOn hr).sourced (u := t) (x := waiter) fun attempt he => .served (he ▸ ht)
        cases runOpening_goesOn hr <;> exact ha
      | bounce hr =>
        rw [runOpening_ends hr] at hold
        exact Fresh.mono hold _
      | _ => exact True.intro
    | @handed _ _ owner result hq hr hb =>
      cases hr with
      | @released _ c hrel hmem =>
        cases hrel with
        | @request holder _ _ hc =>
          exact .inr (happened_last ⟨holder, owner, rfl, hc, hb c rfl (.request ‹_› hc), hmem, h⟩)
        | giveBack hg => exact .inl (Fresh.mono (ih hg) _)
      | opened hs hend =>
        have hold := ih hs
        rw [runOpening_ends hend] at hold
        cases result with
        | ok c => exact .inl (Fresh.mono hold _)
        | error e => exact .inr (Failed.mono hold _)
      | closed => exact .inl rfl
    | drained => exact True.intro

/-! ## One attempt a caller -/

/-- A connect is begun for this caller, by itself or by a task that serves it. -/
inductive ConnectsFor (w : Service) (x : Ticket) : Step → Prop where
  | own {owner : String} : w.work? x = some (.acquire owner (.opening .reserved)) → ConnectsFor w x (.run x)
  | served {u : Ticket} : w.work? u = some (.serve x .reserved) → ConnectsFor w x (.run u)

/-- No connect will be begun for this caller any more. -/
structure Spent (w : Service) (x : Ticket) : Prop where
  issued : x < w.nextTicket
  decided : ∀ owner step, w.work? x = some (.acquire owner step) → step.undecided = false
  served : ∀ u, w.work? u ≠ some (.serve x .reserved)
  queued : ∀ owner, w.work? x = some (.acquire owner .queued) → x ∉ w.queue

theorem Spent.not_connects (h : w.Spent x) (s : Step) : ¬ w.ConnectsFor x s := by
  intro hc
  cases hc with
  | own ht => exact Bool.false_ne_true (h.decided _ _ ht).symm
  | served hu => exact h.served _ hu

theorem work?_vacate {step : Acquire} (h : w.work? x = some (.acquire owner step)) (id : Option Nat) :
    (w.vacate id).work? x = some (.acquire owner step) := by
  unfold vacate
  split
  · exact h
  next l _ =>
  refine work?_finish ?_ _
  show (Service.serveNext _ (l.vacate w.limit w.spawns w.waits id).1.waiter).work? x = _
  cases (l.vacate w.limit w.spawns w.waits id).1.waiter with
  | none => exact h
  | some t => exact work?_spawn_some (w := w.withLedger _) h _

/-- Whoever waits gets the result of the attempt that was made for him. -/
theorem serve_delivers {step : Opening} {result : Except Error Connection}
    (hq : w.work? x = some (.acquire owner .queued)) (hu : w.work? u = some (.serve x step))
    (hend : (w.runOpening step).1 = .ends result) :
    (w.step (.run u)).work? x = some (.acquire owner (.handed result)) := by
  have hne : x ≠ u := by
    rintro rfl
    cases hq.symm.trans hu
  have hpair : w.runOpening step = (.ends result, (w.runOpening step).2) := Prod.ext hend rfl
  have hstill : (w.runOpening step).2.work? x = some (.acquire owner .queued) := by
    rw [runOpening_ends hend]
    cases result with
    | ok c => exact hq
    | error e => exact work?_vacate hq none
  have hwaits : (w.runOpening step).2.waits x = true := by rw [waits, hstill]
  simp only [Service.step, Service.run, hu, runWork, runServe]
  rw [hpair]
  simp only [hwaits, if_true, work?_reap, work?_endTask, if_neg hne]
  exact work?_deliver_self hstill

theorem runOpening_tasks {step step' : Opening} {wait : Wait} (h : (w.runOpening step).1 = .goesOn step' wait) :
    (w.runOpening step).2.tasks = w.tasks := by
  have hrecord : ∀ o, (w.record o).tasks = w.tasks := by
    intro o
    unfold record
    split <;> rfl
  cases step with
  | reserved => rfl
  | attempting attempt =>
    simp only [runOpening]
    split <;> exact hrecord _
  | failed e => cases h
  | named c => cases h

theorem serves_pos {step : Opening} (hu : w.work? u = some (.serve x step)) :
    0 < w.tasks.countP fun task => task.work.serves? = some x := by
  obtain ⟨task, hmem, -, hwork⟩ := work?_some hu
  exact List.countP_pos_iff.2 ⟨task, hmem, by simp [hwork, Work.serves?]⟩

/-- One task at most serves a caller. -/
theorem serves_unique (ha : Accounts [] w none 0) (hl : w.ledger = some l) {step step' : Opening}
    (ht : w.work? t = some (.serve x step)) (hu : w.work? u = some (.serve x step')) : t = u := by
  have honce := (ha.placed l hl).once x
  rw [add_zero, places, count_waiter] at honce
  have hmem : ∀ {t step}, w.work? t = some (.serve x step) →
      ∃ task ∈ w.tasks, task.work.serves? = some x ∧ task.ticket = t := by
    intro t step ht
    obtain ⟨task, hin, rfl, hwork⟩ := work?_some ht
    exact ⟨task, hin, by simp [hwork, Work.serves?], rfl⟩
  obtain ⟨task, htask, hserves, rfl⟩ := hmem ht
  obtain ⟨task', htask', hserves', rfl⟩ := hmem hu
  rw [eq_of_countP_le_one (Nat.le_of_add_left_le honce) htask htask' (decide_eq_true hserves)
    (decide_eq_true hserves')]

/-- Whoever is served does not join the queue again. -/
theorem Spent.unqueued (h : w.Spent x) (ha : Accounts [] w none 0) (s : Step)
    (hq : w.work? x = some (.acquire owner .queued)) (hq' : (w.step s).work? x = some (.acquire owner .queued)) :
    x ∉ (w.step s).queue := by
  intro hmem
  obtain ⟨l', hl'⟩ : ∃ l', (w.step s).ledger = some l' := by
    cases hl' : (w.step s).ledger with
    | none => simp [queue, hl'] at hmem
    | some l' => exact ⟨l', rfl⟩
  obtain ⟨l, -, hl, -⟩ := step_ledger hl'
  rw [queue_eq hl'] at hmem
  -- Before the step a task served this caller, and after it none does.
  have hbefore := one_place ha hl hq
  have hafter := one_place (ha.step s) hl' hq'
  have hzero : l.waiters.count x = 0 := List.count_eq_zero_of_not_mem (queue_eq hl ▸ h.queued owner hq)
  have hpos : 0 < l'.waiters.count x := List.count_pos_iff.2 hmem
  obtain ⟨task, htask, hserves⟩ := List.countP_pos_iff.1
    (show 0 < w.tasks.countP fun task => task.work.serves? = some x by omega)
  obtain ⟨step, hwork⟩ : ∃ step, task.work = .serve x step := by
    cases hw : task.work with
    | serve waiter step =>
      simp only [hw, Work.serves?, Option.some.injEq, decide_eq_true_eq] at hserves
      exact ⟨step, by rw [hserves]⟩
    | _ => simp [hw, Work.serves?] at hserves
  have hu : w.work? task.ticket = some (.serve x step) := (work?_eq ha.tickets htask).trans (congrArg some hwork)
  have hnone : ∀ step', (w.step s).work? task.ticket ≠ some (.serve x step') := fun step' hs => by
    have := serves_pos hs
    omega
  have hended : ∀ {result}, s = .run task.ticket → (w.runOpening step).1 = .ends result → False := by
    rintro result rfl hend
    cases (serve_delivers hq hu hend).symm.trans hq'
  rcases (step_effect w s).work task.ticket with he | ⟨work, he, hc⟩ | ⟨he, hends⟩
  · exact hnone step (he.trans hu)
  · cases hc with
    | starts hn _ => exact absurd (work?_lt ha.issued hu) (Nat.not_lt.2 hn)
    | goes ht hg =>
      cases hu.symm.trans ht
      cases hg with
      | serve hr => exact hnone _ he
      | bounce hr => exact hended rfl hr
    | handed ht => cases hu.symm.trans ht
    | drained ht => cases hu.symm.trans ht
  · rcases hends.reason ha.tickets hu with rfl | ⟨_, hnobody, -⟩
    swap
    · cases hnobody
    cases hr : (w.runOpening step).1 with
    | ends result => exact hended rfl hr
    | goesOn step' wait =>
      have hpair : w.runOpening step = (.goesOn step' wait, (w.runOpening step).2) := Prod.ext hr rfl
      have hsame : (w.runOpening step).2.work? task.ticket = some (.serve x step) := by
        rw [work?, task?, runOpening_tasks hr]
        exact hu
      simp only [Service.step, Service.run, hu, runWork, runServe] at he
      rw [hpair] at he
      simp [work?_reap, work?_await, hsame] at he

theorem Spent.step (h : w.Spent x) (ha : Accounts [] w none 0) (s : Step) : (w.step s).Spent x := by
  have hnot : ∀ {owner step}, w.work? x = some (.acquire owner step) → step.undecided = true → False :=
    fun ht hu => Bool.false_ne_true ((h.decided _ _ ht).symm.trans hu)
  refine ⟨Nat.lt_of_lt_of_le h.issued (step_effect w s).fresh, fun owner step ht => ?_, fun u hu => ?_,
    fun owner hq' => ?_⟩
  · rcases step_work ht with hsame | hc
    · exact h.decided owner step hsame
    cases hc with
    | starts hn _ => exact absurd h.issued (Nat.not_lt.2 hn)
    | goes hw hg =>
      cases hg with
      | join => rfl
      | opening hr => cases runOpening_goesOn hr <;> rfl
      | _ => exact (hnot hw rfl).elim
    | handed => rfl
  · rcases step_work hu with hsame | hc
    · exact h.served u hsame
    cases hc with
    | starts _ hs =>
      cases hs with
      | serve hmem hasks =>
        obtain ⟨owner, step, ht, rfl | rfl⟩ := hasks
        · exact hnot ht rfl
        · exact h.queued owner ht hmem
    | goes _ hg =>
      cases hg with
      | serve hr => cases runOpening_goesOn hr
  · rcases step_work hq' with hsame | hc
    · exact h.unqueued ha s hsame hq'
    cases hc with
    | starts _ hs => cases hs
    | goes ht hg =>
      cases hg with
      | join => exact (hnot ht rfl).elim

/-- A connect that is begun for a caller is the last one. -/
theorem ConnectsFor.spent (h : w.ConnectsFor x s) (ha : Accounts [] w none 0) (hk : w.Kept) :
    (w.step s).Spent x := by
  have ha' := ha.step s
  have hk' := hk.step s
  cases h with
  | @own owner ht =>
    obtain ⟨-, hw⟩ := step_reserved ht
    obtain ⟨l', hl'⟩ := hk'.ledger hw rfl
    have hplace := places_work ha' hl' hw
    refine ⟨work?_lt ha'.issued hw, fun other step ht' => ?_, fun u hu => ?_, fun other hq => ?_⟩
    · cases hw.symm.trans ht'
      rfl
    · have hpos := serves_pos hu
      simp only [Work.queued, Bool.false_eq_true, if_false] at hplace
      omega
    · cases hw.symm.trans hq
  | @served u ht =>
    obtain ⟨-, hw⟩ := step_reserved_serve ht
    obtain ⟨l', hl'⟩ := hk'.ledger hw rfl
    have hpos := serves_pos hw
    have hplaced := ha'.placed l' hl'
    have honce := hplaced.once x
    rw [add_zero, places, count_waiter] at honce
    refine ⟨?_, fun other step ht' => ?_, fun u' hu' => ?_, fun other hq => ?_⟩
    · by_contra hnot
      have hzero := hplaced.issued x (Nat.le_of_not_lt hnot)
      rw [add_zero, places, count_waiter] at hzero
      omega
    · have hplace := places_work ha' hl' ht'
      cases step with
      | queued => rfl
      | _ =>
        simp only [Work.queued, Bool.false_eq_true, if_false] at hplace
        omega
    · cases serves_unique ha' hl' hw hu'
      cases hw.symm.trans hu'
    · rw [queue_eq hl']
      refine fun hmem => ?_
      have hcount := List.count_pos_iff.2 hmem
      omega

theorem Spent.steps (h : w.Spent x) (ha : Accounts [] w none 0) (later : List Step) : (w.steps later).Spent x := by
  induction later generalizing w with
  | nil => exact h
  | cons s later ih => exact ih (h.step ha s) (ha.step s)

/-! ## What acquires return -/

/-- A connection that a caller holds is nobody else's, and its slot is lent. -/
theorem held_lent (ha : Accounts [] w none 0) (hl : w.ledger = some l) (hmem : (owner, c) ∈ w.holding) :
    ((w.owned l).countP fun p => p.1.id = c.id) = 1 ∧ ∃ pending, l.slot? c.id = some (.lent pending) := by
  have hb := ha.booked hl
  have hpos : 0 < l.lends c.id := by
    rw [← hb.lent, count_connection]
    refine List.countP_pos_iff.2 ⟨(c, .caller owner), List.mem_append_left _ ?_, by simp⟩
    exact List.mem_map_of_mem (f := fun p => (p.2, Place.caller p.1)) hmem
  have hslot : ∃ pending, l.slot? c.id = some (.lent pending) := by
    unfold Ledger.lends at hpos
    split at hpos
    · next b hs => exact ⟨b, hs⟩
    · cases hpos
  refine ⟨?_, hslot⟩
  obtain ⟨pending, hs⟩ := hslot
  rw [hb.count_owned, Ledger.lists, hs]
  rfl

theorem Concludes.acquired {step : Acquire} (h : (w.steps run).Concludes step (.ok c))
    (hs : w.Sourced run t (.acquire owner step)) :
    (step.verifies = true → ∃ before c₀ reply, w.Probed run t c before c₀ reply) ∧
      (step.verifies = false → w.Fresh run c ∨ w.Passed run t c) := by
  cases h with
  | verified hp hj => exact ⟨fun _ => Probing.passed hs hp hj, fun hv => absurd hv.symm Bool.false_ne_true⟩
  | opened hr =>
    rw [runOpening_ends hr] at hs
    exact ⟨fun hv => absurd hv Bool.false_ne_true, fun _ => .inl hs⟩
  | handed => exact ⟨fun hv => absurd hv Bool.false_ne_true, fun _ => hs⟩

theorem Concludes.failed {step : Acquire} (h : (w.steps run).Concludes step (.error e))
    (hs : w.Sourced run t (.acquire owner step)) : e = .poolClosed ∨ w.Failed run t e := by
  cases h with
  | refused => exact .inl rfl
  | barred => exact .inl rfl
  | opened hr =>
    rw [runOpening_ends hr] at hs
    exact .inr hs
  | handed => exact hs

/-- **What acquires return.** In every run, a connection that an acquire returns is in
use, has a lent slot and belongs to nobody else. It is fresh from an attempt, or was
released unbroken by its holder to this caller, or was idle and a positive reply was
read behind the `RSET` that this caller wrote to it. Where servers answer each line
once, that reply is the answer to the `RSET` just if nothing was astray when it was
written; where something was, an exchange on that stream had been abandoned before,
and the connection is returned whatever the server says to the `RSET`. An acquire that
fails returns `poolClosed` or the error of an attempt that was made for it; and for no
caller a second connect is begun. -/
theorem steps_sound (config : Config) (spawns : Bool) (peers : List Peer) (run : List Step) :
    let start := new config spawns peers
    let w := start.steps run
    let k := fun sessions before => Conduct.mk config sessions fun n =>
      start.Happened before fun w s => w.Abandons s n
    (∀ t owner step, w.work? t = some (.acquire owner step) →
      (∀ id auth status, (w.act (.run t)).events = w.events ++ [(owner, .acquired id auth status)] →
        status = .inUse ∧ ∃ c l, (w.act (.run t)).ledger = some l ∧ (owner, c) ∈ (w.act (.run t)).holding ∧
          c.id = id ∧ c.auth = auth ∧ c.status = status ∧
          (((w.act (.run t)).owned l).countP fun p => p.1.id = id) = 1 ∧
          (∃ pending, l.slot? id = some (.lent pending)) ∧
          (step.verifies = false → start.Fresh run c ∨ start.Passed run t c) ∧
          (step.verifies = true → ∃ before c₀ reply, start.Probed run t c before c₀ reply ∧
            ∀ sessions, Say peers sessions →
              ((∃ own rest, (k sessions before).ahead c₀ = own :: rest ∧ reply = own.reply ∧ c.unread = wire rest) ↔
                ¬ (k sessions before).Astray c₀) ∧
              ((k sessions before).Astray c₀ → (k sessions before).dirty c₀.written.number))) ∧
      ∀ e, (w.act (.run t)).events = w.events ++ [(owner, .failed e)] →
        e = .poolClosed ∨ start.Failed run t e) ∧
    ∀ x s, w.ConnectsFor x s → ∀ later s', ¬ ((w.step s).steps later).ConnectsFor x s' := by
  intro start w k
  have hstart : Accounts [] start none 0 := Accounts.new config spawns peers
  have ha : Accounts [] w none 0 := hstart.steps run
  have hk : w.Kept := (kept_new config spawns peers).steps run
  refine ⟨fun t owner step ht => ?_, fun x s hc later s' => ?_⟩
  swap
  · exact ((hc.spent ha hk).steps (ha.step s) later).not_connects s'
  have hs : start.Sourced run t (.acquire owner step) := sourced rfl run ht
  refine ⟨fun id auth status hev => ?_, fun e hev => ?_⟩
  · obtain ⟨c, hc, hmem, rfl, rfl, rfl⟩ := act_acquired ht hev
    have hfit : w.Fitted := (Fitted.new config spawns peers).steps hstart run
    obtain ⟨hprobed, horigin⟩ := hc.acquired hs
    obtain ⟨l₀, hl₀⟩ := hk.ledger ht rfl
    obtain ⟨l, hl⟩ := act_ledger hl₀ (.run t)
    obtain ⟨hone, hlent⟩ := held_lent (ha.act (.run t)) hl hmem
    refine ⟨hfit.concludes ht hc, c, l, hl, hmem, rfl, rfl, rfl, hone, hlent, horigin, fun hv => ?_⟩
    obtain ⟨before, c₀, reply, hp⟩ := hprobed hv
    exact ⟨before, c₀, reply, hp, fun sessions hsay => hp.own hsay⟩
  · obtain ⟨w', result, hc, -, he⟩ := act_reported ht hev
    cases result with
    | ok c => cases he
    | error e' =>
      cases he
      exact hc.failed hs

/-! The run in which a caller abandons a `NOOP` (`lapse`), with a server that refuses the `RSET` after it. -/

def reluctant : Session :=
  { patient with clear := patient.clear.dropLast ++ [answer "550 no\r\n" ⟨⟨550⟩, ["no"]⟩ (by decide +kernel)] }

/-- The connection when it was parked. -/
def forsaken : Connection where
  id := 1
  transport := {
    buffered := "250 first\r\n550 no\r\n".toUTF8.toList
    stream := {
      arrivals := []
      outbound := { attempted := [.ehlo "localhost", .noop] } } }
  info := { hostname := "a" }
  status := .idle

/-- The answer to the `RSET` is a refusal, and the acquire returns the connection: it goes by the answer to
the `NOOP`. -/
theorem steps_sound_refused :
    let start := new narrow true [reluctant.peer]
    let w := start.steps (lapse ++ [.run 3])
    (w.act (.run 3)).events = w.events ++ [("b", .acquired 1 .skipped .inUse)] ∧
    ∃ c c₀ reply, ("b", c) ∈ (w.act (.run 3)).holding ∧ start.Probed (lapse ++ [.run 3]) 3 c lapse c₀ reply ∧
      (reluctant.ahead narrow c₀.written.attempted).map Answer.reply = [⟨⟨550⟩, ["no"]⟩] ∧
      start.Happened lapse fun w s => w.Abandons s 0 := by
  intro start w
  have hev : (w.act (.run 3)).events = w.events ++ [("b", .acquired 1 .skipped .inUse)] := by decide +kernel
  obtain ⟨c₁, reader, ht⟩ : ∃ c₁ reader, w.work? 3 = some (.acquire "b" (.verifying c₁ reader)) := by
    have hwork : (w.work? 3).bind Work.verifier? = some "b" := by decide +kernel
    obtain ⟨work, hw, hb⟩ := Option.bind_eq_some_iff.1 hwork
    unfold Work.verifier? at hb
    split at hb
    · cases hb
      exact ⟨_, _, hw⟩
    · cases hb
  obtain ⟨-, c, l, -, hmem, -, -, -, -, -, -, hprobed⟩ :=
    ((steps_sound narrow true [reluctant.peer] _).1 3 "b" _ ht).1 1 .skipped .inUse hev
  obtain ⟨before, c₀, reply, hp, hown⟩ := hprobed rfl
  obtain ⟨later, he⟩ := hp.ran
  obtain rfl := lapse_once he
  obtain rfl : c₀ = { forsaken with status := .inUse } := by
    obtain ⟨_, l₀, id, parked, deadline, -, hl₀, hlive, rfl, -⟩ := hp.reuses
    have hledger : (start.steps lapse).ledger = some { count := 1, live := [(1, .idle forsaken 300000)] } := by
      decide +kernel
    cases hl₀.symm.trans hledger
    cases List.mem_singleton.1 hlive
    rfl
  have hahead : (reluctant.ahead narrow forsaken.written.attempted).map Answer.reply = [⟨⟨550⟩, ["no"]⟩] := by
    decide +kernel
  obtain ⟨hiff, hdirty⟩ := hown _ (alone_said reluctant)
  refine ⟨hev, c, _, reply, hmem, hp, hahead, hdirty ?_⟩
  -- A positive reply is not the answer to the `RSET`, so something was astray.
  by_contra hnot
  obtain ⟨own, rest, hcons, hr, -⟩ := hiff.2 hnot
  have hpositive := hp.positive
  rw [hr, due_reply hcons hahead] at hpositive
  cases hpositive

end Service

end SmtpClient.Pool
