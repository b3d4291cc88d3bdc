/-
What a step can make of a pool: how a task comes to do what it does then
(`Comes`), how a caller comes to hold a connection (`Gets`) and how one comes
to be parked. `step_effect` says that there is nothing else, so that an
invariant over tasks and connections is proved by cases on these and never
from the functions.
-/
import SmtpClient.Proofs.Balance

namespace SmtpClient.Pool.Service

/-! ## The ways -/

/-- A connection is given back to the pool in a step. -/
inductive Released (w : Service) : Step → Connection → Prop where
  | request {owner : String} {c : Connection} :
    w.handle = true → w.held? owner = some c → Released w (.request (.release owner)) c
  /-- Opened for somebody who had gone. -/
  | giveBack {t : Ticket} {c : Connection} : w.work? t = some (.giveBack c) → Released w (.run t) c

def Parked (w : Service) (c : Connection) : Prop :=
  ∃ l id deadline, w.ledger = some l ∧ (id, .idle c deadline) ∈ l.live

/-- A connection is parked under this identifier, with this deadline. -/
def ParkedUntil (w : Service) (id : Nat) (c : Connection) (deadline : Nat) : Prop :=
  ∃ l, w.ledger = some l ∧ (id, .idle c deadline) ∈ l.live

/-- A connection that a step has to close in the background. -/
def Dismissed (w : Service) (s : Step) (c : Connection) : Prop :=
  Released w s c ∨ ∃ onDrained, Closes w s onDrained ∧ w.Parked c

/-- The callers who wait in the queue, the oldest first. -/
def queue (w : Service) : List Ticket :=
  match w.ledger with
  | some l => l.waiters
  | none => []

/-- How a caller who waits can get his result in a step: by a connection that
is released, by the end of the attempt that was made for him, or by the close
of the pool. -/
inductive Resolved (w : Service) (x : Ticket) : Step → Except Error Connection → Prop where
  | released {s : Step} {c : Connection} : Released w s c → x ∈ w.queue → Resolved w x s (.ok c)
  | opened {t : Ticket} {step : Opening} {result : Except Error Connection} :
    w.work? t = some (.serve x step) → (w.runOpening step).1 = .ends result → Resolved w x (.run t) result
  | closed {s : Step} {onDrained : Option DrainCall} : Closes w s onDrained → x ∈ w.queue →
    Resolved w x s (.error .poolClosed)

/-- A caller who waits in the queue, or is about to join it. -/
def Asks (w : Service) (x : Ticket) : Prop :=
  ∃ owner step, w.work? x = some (.acquire owner step) ∧ (step = .start ∨ step = .queued)

/-- The tasks that a step can start. -/
inductive Starts (w : Service) : Step → Work → Prop where
  | acquire {owner : String} : w.handle = true → Starts w (.request (.acquire owner)) (.acquire owner .start)
  | exchange {owner : String} {purpose : Purpose} {c : Connection} : w.held? owner = some c →
    Starts w (.request (.exchange owner purpose)) (.exchange owner purpose c none)
  | close {owner : String} {c : Connection} : w.held? owner = some c →
    Starts w (.request (.closeConnection owner)) (.close (some owner) false c none)
  | shutdown {owner : String} : w.handle = true →
    Starts w (.request (.shutdown owner)) (.shutdown owner .start)
  | serve {s : Step} {waiter : Ticket} : waiter ∈ w.queue → Asks w waiter → Starts w s (.serve waiter .reserved)
  | expiry {s : Step} {c : Connection} {deadline : Nat} : Released w s c → Starts w s (.expiry c.id deadline)
  | dismiss {s : Step} {c : Connection} : Dismissed w s c → Starts w s (.close none false c none)
  | giveUp {s : Step} {c : Connection} : Dismissed w s c → Starts w s (.giveUp c)

/-- How a task goes on when it runs. -/
inductive Goes (w : Service) : Work → Work → Prop where
  | reuse {owner : String} {l l' : Ledger} {c c' : Connection} {reader : ReplyReader} :
    w.ledger = some l → l.closing = false → l.takeIdle = some (c, l') → c.begin .rset = (.ok reader, c') →
    Goes w (.acquire owner .start) (.acquire owner (.verifying c' reader))
  | reuseFails {owner : String} {l l' : Ledger} {c c' : Connection} {e : Error} :
    w.ledger = some l → l.closing = false → l.takeIdle = some (c, l') → c.begin .rset = (.error e, c') →
    Goes w (.acquire owner .start) (.acquire owner (.unsound c'))
  | create {owner : String} {l : Ledger} : w.ledger = some l → l.closing = false →
    Goes w (.acquire owner .start) (.acquire owner (.opening .reserved))
  | join {owner : String} {l : Ledger} : w.ledger = some l → l.closing = false →
    Goes w (.acquire owner .start) (.acquire owner .queued)
  | verify {owner : String} {c c' : Connection} {reader reader' : ReplyReader} {wake : Option Nat} :
    c.poll w.now reader = (.pending wake reader', c') →
    Goes w (.acquire owner (.verifying c reader)) (.acquire owner (.verifying c' reader'))
  | verifyFails {owner : String} {c c' c'' : Connection} {reader : ReplyReader} {result : Except Error Reply}
    {e : Error} : c.poll w.now reader = (.ready result, c') → c'.judge result = (.error e, c'') →
    Goes w (.acquire owner (.verifying c reader)) (.acquire owner (.unsound c''))
  | reserve {owner : String} {l : Ledger} {c : Connection} : w.ledger = some l →
    Goes w (.acquire owner (.unsound c)) (.acquire owner (.discarding c l.reserveReplacement.1))
  | replace {owner : String} {c : Connection} :
    Goes w (.acquire owner (.discarding c true)) (.acquire owner (.opening .reserved))
  | opening {owner : String} {step step' : Opening} {wait : Wait} :
    (w.runOpening step).1 = .goesOn step' wait →
    Goes w (.acquire owner (.opening step)) (.acquire owner (.opening step'))
  | begin {owner : String} {purpose : Purpose} {c c' : Connection} {reader : ReplyReader} :
    c.begin purpose.line = (.ok reader, c') →
    Goes w (.exchange owner purpose c none) (.exchange owner purpose c' (some reader))
  | exchange {owner : String} {purpose : Purpose} {c c' : Connection} {reader reader' : ReplyReader}
    {wake : Option Nat} : c.poll w.now reader = (.pending wake reader', c') →
    Goes w (.exchange owner purpose c (some reader)) (.exchange owner purpose c' (some reader'))
  | quit {owner : Option String} {holdsPool : Bool} {c c' : Connection} {reader : ReplyReader} {deadline : Nat} :
    c.begin .quit = (.ok reader, c') →
    Goes w (.close owner holdsPool c none) (.close owner holdsPool c' (some (reader, deadline)))
  | quitting {owner : Option String} {holdsPool : Bool} {c c' : Connection} {reader reader' : ReplyReader}
    {deadline : Nat} {wake : Option Nat} : c.poll w.now reader = (.pending wake reader', c') →
    Goes w (.close owner holdsPool c (some (reader, deadline)))
      (.close owner holdsPool c' (some (reader', deadline)))
  | expire {id deadline : Nat} {l l' : Ledger} {c : Connection} : w.ledger = some l →
    l.takeExpired id w.now = some (c, l') → Goes w (.expiry id deadline) (.close none true c none)
  | serve {waiter : Ticket} {step step' : Opening} {wait : Wait} :
    (w.runOpening step).1 = .goesOn step' wait → Goes w (.serve waiter step) (.serve waiter step')
  | bounce {waiter : Ticket} {step : Opening} {c : Connection} :
    (w.runOpening step).1 = .ends (.ok c) → Goes w (.serve waiter step) (.giveBack c)
  | shutdown {owner : String} : Goes w (.shutdown owner .start) (.shutdown owner .draining)

/-- How a task can come to do something in a step: it is new, it ran, or it
was waiting for what happened. -/
inductive Comes (w : Service) : Step → Ticket → Work → Prop where
  | starts {s : Step} {t : Ticket} {work : Work} : w.nextTicket ≤ t → Starts w s work → Comes w s t work
  | goes {t : Ticket} {work work' : Work} : w.work? t = some work → Goes w work work' → Comes w (.run t) t work'
  | handed {s : Step} {x : Ticket} {owner : String} {result : Except Error Connection} :
    w.work? x = some (.acquire owner .queued) → Resolved w x s result →
    (∀ c, result = .ok c → Released w s c → c.isBroken = false) →
    Comes w s x (.acquire owner (.handed result))
  | drained {s : Step} {t : Ticket} {owner : String} {step : Shutdown} :
    w.work? t = some (.shutdown owner step) → Comes w s t (.shutdown owner .drained)

/-- How a task can be over after a step. -/
inductive Ends (w : Service) : Step → Ticket → Prop where
  | ran {t : Ticket} : Ends w (.run t) t
  | cancelled {owner : String} {task : Task} : w.underWay? owner = some task →
    Ends w (.request (.cancel owner)) task.ticket
  | abandoned {owner : String} {task : Task} {purpose : Purpose} {c : Connection} {reader : Option ReplyReader} :
    w.underWay? owner = some task → task.work = .exchange owner purpose c reader →
    Ends w (.request (.abandon owner)) task.ticket

/-- How a caller can come to hold a connection in a step. -/
inductive Gets (w : Service) : Step → String → Connection → Prop where
  | verified {t : Ticket} {owner : String} {c c' c'' : Connection} {reader : ReplyReader}
    {result : Except Error Reply} : w.work? t = some (.acquire owner (.verifying c reader)) →
    c.poll w.now reader = (.ready result, c') → c'.judge result = (.ok (), c'') → Gets w (.run t) owner c''
  | opened {t : Ticket} {owner : String} {step : Opening} {c : Connection} :
    w.work? t = some (.acquire owner (.opening step)) → (w.runOpening step).1 = .ends (.ok c) → Gets w (.run t) owner c
  | handed {t : Ticket} {owner : String} {c : Connection} :
    w.work? t = some (.acquire owner (.handed (.ok c))) → Gets w (.run t) owner c
  | refused {t : Ticket} {owner : String} {purpose : Purpose} {c c' : Connection} {e : Error} :
    w.work? t = some (.exchange owner purpose c none) → c.begin purpose.line = (.error e, c') →
    Gets w (.run t) owner c'
  | replied {t : Ticket} {owner : String} {command : Command} {c c' : Connection} {reader : ReplyReader}
    {result : Except Error Reply} : w.work? t = some (.exchange owner (.command command) c (some reader)) →
    c.poll w.now reader = (.ready result, c') → Gets w (.run t) owner c'
  | probed {t : Ticket} {owner : String} {c c' : Connection} {reader : ReplyReader}
    {result : Except Error Reply} : w.work? t = some (.exchange owner .probe c (some reader)) →
    c.poll w.now reader = (.ready result, c') → Gets w (.run t) owner (c'.judge result).2
  | spoilt {owner : String} {c : Connection} : w.held? owner = some c →
    Gets w (.request (.setBroken owner)) owner c.setBroken
  | abandoned {owner : String} {task : Task} {purpose : Purpose} {c : Connection}
    {reader : Option ReplyReader} : w.underWay? owner = some task →
    task.work = .exchange owner purpose c reader → Gets w (.request (.abandon owner)) owner c

/-- How a connection can come to be parked in a step. -/
inductive Parks (w : Service) : Step → Nat → Connection → Nat → Prop where
  | released {s : Step} {c : Connection} : Released w s c → c.isBroken = false →
    Parks w s c.id { c with status := .idle } (w.now + w.config.idleTimeout)

/-- A caller who is passed over in a step: he waits no more, or gives up in this step. -/
def Absent (w : Service) (s : Step) (x : Ticket) : Prop :=
  w.waits x = true → x < w.nextTicket → Ends w s x

/-- How a step can leave the queue: as it was, with one more behind the others, without whoever was in front
up to the first who still waits, without anybody where nobody waits, or emptied by the close. -/
inductive Queues (w : Service) : Step → List Ticket → Prop where
  | stays {s : Step} : Queues w s w.queue
  | joins {t : Ticket} {owner : String} : w.work? t = some (.acquire owner .start) →
    Queues w (.run t) (w.queue ++ [t])
  | serves {s : Step} {gone rest : List Ticket} {x : Ticket} : w.queue = gone ++ x :: rest →
    (∀ y ∈ gone, w.Absent s y) → Queues w s rest
  | empties {s : Step} : (∀ y ∈ w.queue, w.Absent s y) → Queues w s []
  | closes {s : Step} {onDrained : Option DrainCall} : Closes w s onDrained → Queues w s []

/-- A step that begins to connect. -/
inductive Connects (w : Service) : Step → Prop where
  | acquire {t : Ticket} {owner : String} : w.work? t = some (.acquire owner (.opening .reserved)) →
    Connects w (.run t)
  | serve {t waiter : Ticket} : w.work? t = some (.serve waiter .reserved) → Connects w (.run t)

/-! ## Look-up -/

variable {w w' : Service} {s : Step} {t x : Ticket}

theorem queue_eq {l : Ledger} (h : w.ledger = some l) : w.queue = l.waiters := by
  rw [queue, h]

theorem work?_eq (hn : (w.tasks.map Task.ticket).Nodup) {task : Task} (h : task ∈ w.tasks) :
    w.work? task.ticket = some task.work := by
  rw [work?, task?_eq hn h, Option.map_some]

theorem work?_lt (hi : ∀ task ∈ w.tasks, task.ticket < w.nextTicket) {work : Work} (h : w.work? t = some work) :
    t < w.nextTicket := by
  obtain ⟨task, hmem, rfl, -⟩ := work?_some h
  exact hi task hmem

/-- The tasks that do work of some kind, by their tickets. -/
theorem mem_tickets (hn : (w.tasks.map Task.ticket).Nodup) (kind : Work → Bool) :
    t ∈ (w.tasks.filter fun task => kind task.work).map Task.ticket ↔
      ∃ work, w.work? t = some work ∧ kind work = true := by
  simp only [List.mem_map, List.mem_filter]
  constructor
  · rintro ⟨task, ⟨hmem, hkind⟩, rfl⟩
    exact ⟨task.work, work?_eq hn hmem, hkind⟩
  · rintro ⟨work, hw, hkind⟩
    obtain ⟨task, hmem, rfl, rfl⟩ := work?_some hw
    exact ⟨task, ⟨hmem, hkind⟩, rfl⟩

theorem underWay?_work (hn : (w.tasks.map Task.ticket).Nodup) {owner : String} {task : Task}
    (h : w.underWay? owner = some task) :
    w.work? task.ticket = some task.work ∧ task.work.owner? = some owner := by
  have howner := List.find?_some h
  exact ⟨work?_eq hn (List.mem_of_find?_eq_some h), of_decide_eq_true howner⟩

/-- What ends a task: it ran, or its caller gave it up. -/
theorem Ends.reason (h : Ends w s x) (hn : (w.tasks.map Task.ticket).Nodup) {work : Work}
    (hw : w.work? x = some work) : s = .run x ∨ ∃ owner, work.owner? = some owner ∧
      (s = .request (.cancel owner) ∨ (s = .request (.abandon owner) ∧
        ∃ purpose c reader, work = .exchange owner purpose c reader)) := by
  cases h with
  | ran => exact .inl rfl
  | @cancelled owner _ hu =>
    obtain ⟨hwork, howner⟩ := underWay?_work hn hu
    cases hw.symm.trans hwork
    exact .inr ⟨owner, howner, .inl rfl⟩
  | @abandoned owner _ purpose c reader hu he =>
    obtain ⟨hwork, howner⟩ := underWay?_work hn hu
    obtain rfl := Option.some.inj (hw.symm.trans hwork)
    rw [he] at howner ⊢
    cases howner
    exact .inr ⟨owner, rfl, .inr ⟨rfl, purpose, c, reader, rfl⟩⟩

theorem Ends.acquire (h : Ends w s x) (hn : (w.tasks.map Task.ticket).Nodup) {owner : String} {step : Acquire}
    (hw : w.work? x = some (.acquire owner step)) : s = .run x ∨ s = .request (.cancel owner) := by
  rcases h.reason hn hw with hrun | ⟨_, howner, hcancel | ⟨-, _, _, _, he⟩⟩
  · exact .inl hrun
  · cases howner
    exact .inr hcancel
  · cases he

theorem work?_reap (w : Service) (x : Ticket) : w.reap.work? x = w.work? x := by
  unfold reap
  split <;> rfl

theorem work?_record (w : Service) (o : Outbound) (x : Ticket) : (w.record o).work? x = w.work? x := by
  unfold record
  split <;> rfl

theorem work?_await (w : Service) (t : Ticket) (work : Work) (wait : Wait) (x : Ticket) :
    (w.await t work wait).work? x = if x = t then (w.work? t).map fun _ => work else w.work? x := by
  have hlist : ∀ tasks : List Task,
      ((tasks.map fun task => if task.ticket = t then { task with work, wait } else task).find?
        fun task => task.ticket = x) =
      (tasks.find? fun task => task.ticket = x).map
        fun task => if task.ticket = t then { task with work, wait } else task := by
    intro tasks
    induction tasks with
    | nil => rfl
    | cons task rest ih =>
      have ht : (if task.ticket = t then { task with work, wait } else task : Task).ticket = task.ticket := by
        split <;> rfl
      rw [List.map_cons, List.find?_cons, List.find?_cons, ht, ih]
      split <;> rfl
  show ((w.await t work wait).task? x).map Task.work = _
  have hfind : (w.await t work wait).task? x =
      (w.task? x).map fun task => if task.ticket = t then { task with work, wait } else task := hlist w.tasks
  rw [hfind]
  cases hx : w.task? x with
  | none => split <;> simp_all [work?]
  | some task =>
    obtain ⟨-, hticket⟩ := task?_some hx
    split
    · next he => simp [work?, ← he, hx, hticket]
    · next hne => simp [work?, hx, hticket, hne]

theorem work?_endTask (w : Service) (t x : Ticket) :
    (w.endTask t).work? x = if x = t then none else w.work? x := by
  have hlist : ∀ tasks : List Task,
      ((tasks.filter fun task => task.ticket ≠ t).find? fun task => task.ticket = x) =
        if x = t then none else tasks.find? fun task => task.ticket = x := by
    intro tasks
    induction tasks with
    | nil => split <;> rfl
    | cons task rest ih =>
      by_cases ht : task.ticket = t
      · rw [List.filter_cons_of_neg (by simpa using ht), ih]
        split
        · rfl
        · next hne =>
          have hx : task.ticket ≠ x := fun he => hne (he.symm.trans ht)
          rw [List.find?_cons_of_neg (by simpa using hx)]
      · rw [List.filter_cons_of_pos (by simpa using ht), List.find?_cons, List.find?_cons, ih]
        by_cases hx : task.ticket = x
        · simp [hx, hx ▸ ht]
        · simp [hx]
  show ((w.endTask t).task? x).map Task.work = _
  rw [show (w.endTask t).task? x = _ from hlist w.tasks]
  split <;> rfl

theorem work?_spawn (w : Service) (work : Work) (x : Ticket) :
    (w.spawn work).work? x = w.work? x ∨ (x = w.nextTicket ∧ (w.spawn work).work? x = some work) := by
  have hfind : (w.spawn work).task? x =
      (w.task? x).or (if w.nextTicket = x then some { ticket := w.nextTicket, work } else none) := by
    simp only [task?, spawn, List.find?_append, List.find?_singleton, decide_eq_true_eq]
  simp only [work?, hfind]
  cases w.task? x with
  | some task => exact .inl rfl
  | none =>
    by_cases hx : w.nextTicket = x
    · exact .inr ⟨hx.symm, by simp [hx]⟩
    · exact .inl (by simp [hx])

theorem work?_wake (w : Service) (t x : Ticket) : (w.wake t).work? x = w.work? x := by
  unfold wake
  split <;> rfl

theorem work?_deliver_self {owner : String} {result : Except Error Connection}
    (h : w.work? t = some (.acquire owner .queued)) :
    (w.deliver t result).work? t = some (.acquire owner (.handed result)) := by
  simp only [deliver, h, work?_wake, become, work?_await, if_pos, Option.map_some]

theorem work?_deliver_ne {result : Except Error Connection} (h : x ≠ t) :
    (w.deliver t result).work? x = w.work? x := by
  unfold deliver
  split
  · rw [work?_wake, become, work?_await, if_neg h]
  · rfl

theorem work?_spawn_some {work : Work} (h : w.work? x = some work) (work' : Work) :
    (w.spawn work').work? x = some work := by
  obtain ⟨task, htask, rfl⟩ := Option.map_eq_some_iff.1 h
  have hfind : (w.spawn work').task? x = some task := by
    unfold task? at htask
    simp only [task?, spawn, List.find?_append, htask, Option.some_or]
  rw [work?, hfind, Option.map_some]

theorem work?_finish {owner : String} {step : Acquire} (h : w.work? x = some (.acquire owner step)) (drained : Option Drained) :
    (w.finish drained).work? x = some (.acquire owner step) := by
  unfold finish signal
  split
  swap
  · exact h
  next t _ =>
  split
  swap
  · exact h
  next hs =>
  have hne : x ≠ t := by
    rintro rfl
    cases h.symm.trans hs
  rw [work?_wake, become, work?_await, if_neg hne]
  exact h

theorem waits_work (h : w.waits x = true) : ∃ owner, w.work? x = some (.acquire owner .queued) := by
  unfold waits at h
  split at h
  · next owner hw => exact ⟨owner, hw⟩
  · cases h

/-- An opening is over once it failed or has its connection. -/
theorem runOpening_ends {step : Opening} {result : Except Error Connection}
    (h : (w.runOpening step).1 = .ends result) : step = match result with
      | .ok c => .named c
      | .error e => .failed e := by
  cases step with
  | reserved => cases h
  | attempting attempt =>
    simp only [runOpening] at h
    split at h <;> cases h
  | failed e => cases h; rfl
  | named c => cases h; rfl

/-- How an opening that is not over goes on. -/
inductive Advances (w : Service) : Opening → Opening → Prop where
  | connects : Advances w .reserved (.attempting w.connect.1)
  | waits {attempt attempt' : Attempt} {wake : Option Nat} :
    attempt.poll w.config w.now = .pending wake attempt' → Advances w (.attempting attempt) (.attempting attempt')
  | opens {attempt : Attempt} {session : Handshake.Established} {transport : Transport} :
    attempt.poll w.config w.now = .opened session transport →
    Advances w (.attempting attempt) (.named (Connection.ofEstablished w.nextId session transport))
  | fails {attempt : Attempt} {e : Error} {written : Outbound} :
    attempt.poll w.config w.now = .failed e written → Advances w (.attempting attempt) (.failed e)

theorem runOpening_goesOn {step step' : Opening} {wait : Wait} (h : (w.runOpening step).1 = .goesOn step' wait) :
    w.Advances step step' := by
  cases step with
  | reserved => cases h; exact .connects
  | attempting attempt =>
    simp only [runOpening] at h
    split at h <;> cases h
    · next hp => exact .waits hp
    · next hp => exact .opens hp
    · next hp => exact .fails hp
  | failed e => cases h
  | named c => cases h

/-! ## Bounds -/

/-- Tasks, callers, connects and the ledger stay within what the predicates
allow; tickets and identifiers are not given again. -/
structure Within (n : Ticket) (m : Nat) (P : Ticket → Option Work → Prop) (H : String → Connection → Prop)
    (I : Nat → Connection → Nat → Prop) (C : Nat → List Peer → Prop) (Q : List Ticket → Prop) (w : Service) :
    Prop where
  fresh : n ≤ w.nextTicket
  named : m ≤ w.nextId
  connects : C w.connects w.peers
  queue : Q w.queue
  work : ∀ x, P x (w.work? x)
  held : ∀ p ∈ w.holding, H p.1 p.2
  parked : ∀ id c deadline, w.ParkedUntil id c deadline → I id c deadline

namespace Within

variable {n : Ticket} {m : Nat} {P : Ticket → Option Work → Prop} {H : String → Connection → Prop}
  {I : Nat → Connection → Nat → Prop} {C : Nat → List Peer → Prop} {Q : List Ticket → Prop} {c : Connection}

theorem congr (h : Within n m P H I C Q w) (htasks : w'.tasks = w.tasks) (hticket : w'.nextTicket = w.nextTicket)
    (hconnects : w'.connects = w.connects) (hpeers : w'.peers = w.peers) (hheld : w'.holding = w.holding)
    (hledger : w'.ledger = w.ledger) (hid : w'.nextId = w.nextId) : Within n m P H I C Q w' := by
  refine ⟨hticket ▸ h.fresh, hid ▸ h.named, hconnects ▸ hpeers ▸ h.connects, ?_, ?_, hheld ▸ h.held, ?_⟩
  · rw [Service.queue, hledger]
    exact h.queue
  · intro x
    rw [work?, task?, htasks]
    exact h.work x
  · rintro id c deadline ⟨l, hl⟩
    rw [hledger] at hl
    exact h.parked id c deadline ⟨l, hl⟩

theorem spawn (h : Within n m P H I C Q w) {work : Work} (hp : ∀ t, n ≤ t → P t (some work)) :
    Within n m P H I C Q (w.spawn work) := by
  refine ⟨Nat.le_succ_of_le h.fresh, h.named, h.connects, h.queue, fun x => ?_, h.held, h.parked⟩
  rcases work?_spawn w work x with he | ⟨rfl, he⟩
  · rw [he]; exact h.work x
  · rw [he]; exact hp _ h.fresh

theorem await (h : Within n m P H I C Q w) {work : Work} (hp : P t (some work)) (wait : Wait) :
    Within n m P H I C Q (w.await t work wait) := by
  refine ⟨h.fresh, h.named, h.connects, h.queue, fun x => ?_, h.held, h.parked⟩
  rw [work?_await]
  split
  · next hx =>
    cases hw : w.work? t with
    | none =>
      rw [hx, Option.map_none, ← hw]
      exact h.work t
    | some _ => exact hx ▸ hp
  · exact h.work x

theorem become (h : Within n m P H I C Q w) {work : Work} (hp : P t (some work)) :
    Within n m P H I C Q (w.become t work) := h.await hp .none

theorem endTask (h : Within n m P H I C Q w) (hp : P t none) : Within n m P H I C Q (w.endTask t) := by
  refine ⟨h.fresh, h.named, h.connects, h.queue, fun x => ?_, h.held, h.parked⟩
  rw [work?_endTask]
  split
  · next hx => exact hx ▸ hp
  · exact h.work x

theorem hold (h : Within n m P H I C Q w) (owner : String) (hc : H owner c) :
    Within n m P H I C Q (w.hold owner c) := by
  refine ⟨h.fresh, h.named, h.connects, h.queue, h.work, ?_, h.parked⟩
  intro p hp
  rcases List.mem_append.1 hp with hp | hp
  · exact h.held p hp
  · rw [List.mem_singleton.1 hp]; exact hc

theorem unhold (h : Within n m P H I C Q w) (owner : String) : Within n m P H I C Q (w.unhold owner) :=
  ⟨h.fresh, h.named, h.connects, h.queue, h.work, fun p hp => h.held p (List.mem_of_mem_eraseP hp), h.parked⟩

theorem tell (h : Within n m P H I C Q w) (owner : String) (e : Event) : Within n m P H I C Q (w.tell owner e) :=
  h.congr rfl rfl rfl rfl rfl rfl rfl

theorem record (h : Within n m P H I C Q w) (o : Outbound) : Within n m P H I C Q (w.record o) := by
  unfold Service.record
  split
  · exact h
  · exact h.congr rfl rfl rfl rfl rfl rfl rfl

theorem wake (h : Within n m P H I C Q w) (t : Ticket) : Within n m P H I C Q (w.wake t) := by
  unfold Service.wake
  split
  · exact h
  · exact h.congr rfl rfl rfl rfl rfl rfl rfl

theorem withLedger (h : Within n m P H I C Q w) {l : Ledger}
    (hl : ∀ id c deadline, (id, .idle c deadline) ∈ l.live → I id c deadline) (hq : Q l.waiters) :
    Within n m P H I C Q (w.withLedger l) := by
  refine ⟨h.fresh, h.named, h.connects, hq, h.work, h.held, ?_⟩
  rintro id c deadline ⟨l', hl', hmem⟩
  cases hl'
  exact hl id c deadline hmem

theorem reap (h : Within n m P H I C Q w) (hq : (∀ task ∈ w.tasks, task.work.holdsPool = false) → Q []) :
    Within n m P H I C Q w.reap := by
  rcases reap_eq w with he | ⟨he, -, hnone⟩ <;> rw [he]
  · exact h
  · exact ⟨h.fresh, h.named, h.connects, hq hnone, h.work, h.held,
      by rintro id c deadline ⟨l, hl, _⟩; cases hl⟩

theorem deliver (h : Within n m P H I C Q w) {result : Except Error Connection}
    (hp : ∀ owner, P t (some (.acquire owner .queued)) → P t (some (.acquire owner (.handed result)))) :
    Within n m P H I C Q (w.deliver t result) := by
  unfold Service.deliver
  split
  · next owner he => exact (h.become (hp owner (he ▸ h.work t))).wake t
  · exact h

theorem signal (h : Within n m P H I C Q w)
    (hp : ∀ t owner, P t (some (.shutdown owner .draining)) → P t (some (.shutdown owner .drained)))
    (drained : Drained) : Within n m P H I C Q (w.signal drained) := by
  unfold Service.signal
  split
  swap
  · exact h
  next t =>
  split
  · next owner he => exact (h.become (hp t owner (he ▸ h.work t))).wake t
  · exact h

theorem finish (h : Within n m P H I C Q w)
    (hp : ∀ t owner, P t (some (.shutdown owner .draining)) → P t (some (.shutdown owner .drained)))
    (drained : Option Drained) : Within n m P H I C Q (w.finish drained) := by
  have ha : Within n m P H I C Q (w.announce (told drained)) := h.congr rfl rfl rfl rfl rfl rfl rfl
  exact ha.signal hp drained.join

/-- The slots that are left when one is vacated. -/
theorem vacate (h : Within n m P H I C Q w) (id : Option Nat)
    (hserve : ∀ t waiter, n ≤ t → waiter ∈ w.queue → w.waits waiter = true → P t (some (.serve waiter .reserved)))
    (hnext : ∀ gone x rest, w.queue = gone ++ x :: rest → (∀ y ∈ gone, w.waits y = false) → Q rest)
    (hnone : (∀ y ∈ w.queue, w.waits y = false) → Q [])
    (hp : ∀ t owner, P t (some (.shutdown owner .draining)) → P t (some (.shutdown owner .drained))) :
    Within n m P H I C Q (w.vacate id) := by
  unfold Service.vacate
  split
  · exact h
  next l hl =>
  have hsub : ∀ p ∈ (l.vacate w.limit w.spawns w.waits id).2.live, p ∈ l.live := by
    have hstrike : ∀ p ∈ (l.strike id).live, p ∈ l.live := by
      cases id with
      | none => exact fun p hp => hp
      | some id => exact fun p hp => List.mem_of_mem_filter hp
    rcases l.vacate_cases w.limit w.spawns w.waits id with
      ⟨-, -, hv⟩ | ⟨-, -, hv⟩ | ⟨-, -, _, _, _, -, -, -, hv⟩ | ⟨-, -, -, hv⟩ <;> rw [hv] <;> exact hstrike
  have hwaiters : w.queue = l.waiters := queue_eq hl
  have hqueue : Q (l.vacate w.limit w.spawns w.waits id).2.waiters := by
    rcases l.vacate_cases w.limit w.spawns w.waits id with
      ⟨-, -, hv⟩ | ⟨-, hall, hv⟩ | ⟨-, -, gone, x, rest, hw, hgone, -, hv⟩ | ⟨-, -, -, hv⟩ <;> rw [hv]
    · exact hwaiters ▸ h.queue
    · exact hnone (hwaiters ▸ hall)
    · exact hnext gone x rest (hwaiters.trans hw) hgone
    · exact hwaiters ▸ h.queue
  have hledger : Within n m P H I C Q (w.withLedger (l.vacate w.limit w.spawns w.waits id).2) :=
    h.withLedger (fun id c deadline hmem => h.parked id c deadline ⟨l, hl, hsub _ hmem⟩) hqueue
  refine finish ?_ hp _
  show Within n m P H I C Q (Service.serveNext _ (l.vacate w.limit w.spawns w.waits id).1.waiter)
  cases hw : (l.vacate w.limit w.spawns w.waits id).1.waiter with
  | none => exact hledger
  | some waiter =>
    obtain ⟨hmem, hwaits⟩ := Ledger.vacate_waiter hw
    exact hledger.spawn fun t ht => hserve t waiter ht (queue_eq hl ▸ hmem) hwaits

theorem foldl {α : Type} {f : Service → α → Service} {as : List α}
    (hf : ∀ {w a}, a ∈ as → Within n m P H I C Q w → Within n m P H I C Q (f w a)) (h : Within n m P H I C Q w) :
    Within n m P H I C Q (as.foldl f w) := by
  induction as generalizing w with
  | nil => exact h
  | cons a as ih => exact ih (fun hmem => hf (List.mem_cons_of_mem _ hmem)) (hf List.mem_cons_self h)

end Within

/-! ## What a step allows -/

/-- What a step allows: everything stays as it was or comes about in one of
the ways above. -/
def Effect (w : Service) (s : Step) (w' : Service) : Prop :=
  Within w.nextTicket w.nextId
    (fun x work => work = w.work? x ∨ (∃ work', work = some work' ∧ Comes w s x work') ∨
      (work = none ∧ Ends w s x))
    (fun owner c => (owner, c) ∈ w.holding ∨ Gets w s owner c)
    (fun id c deadline => w.ParkedUntil id c deadline ∨ Parks w s id c deadline)
    (fun n peers => (n = w.connects ∧ peers = w.peers) ∨
      (Connects w s ∧ n = w.connects + 1 ∧ peers = w.peers.drop 1)) (Queues w s) w'

/-- So far nothing was done to the ledger in a step, and whoever waited waits or gave up in it. -/
structure Steady (w : Service) (s : Step) (w' : Service) : Prop where
  ledger : w'.ledger = w.ledger
  waits : ∀ x, w.waits x = true → w'.waits x = true ∨ Ends w s x

namespace Steady

theorem refl (w : Service) (s : Step) : Steady w s w := ⟨rfl, fun _ hw => .inl hw⟩

theorem congr {w'' : Service} (h : Steady w s w') (hl : w''.ledger = w'.ledger)
    (hw : ∀ x, w''.work? x = w'.work? x) : Steady w s w'' := by
  refine ⟨hl.trans h.ledger, fun x hx => ?_⟩
  rw [Service.waits, hw]
  exact h.waits x hx

theorem endTask (h : Steady w s w') (ht : Ends w s t) : Steady w s (w'.endTask t) := by
  refine ⟨h.ledger, fun x hx => ?_⟩
  by_cases hxt : x = t
  · exact .inr (hxt ▸ ht)
  · rw [Service.waits, work?_endTask, if_neg hxt]
    exact h.waits x hx

theorem queue (h : Steady w s w') : w'.queue = w.queue := by
  rw [Service.queue, Service.queue, h.ledger]

theorem absent (h : Steady w s w') (hx : w'.waits x = false) : w.Absent s x := fun hw _ =>
  (h.waits x hw).resolve_left fun hstill => Bool.false_ne_true (hx.symm.trans hstill)

end Steady

namespace Effect

variable {c : Connection}

theorem refl (w : Service) (s : Step) : Effect w s w :=
  ⟨Nat.le_refl _, Nat.le_refl _, .inl ⟨rfl, rfl⟩, .stays, fun _ => .inl rfl, fun _ hp => .inl hp,
    fun _ _ _ hc => .inl hc⟩

theorem drained (w : Service) (s : Step) (t : Ticket) (owner : String)
    (h : some (Work.shutdown owner .draining) = w.work? t ∨
      (∃ work, some (Work.shutdown owner .draining) = some work ∧ Comes w s t work) ∨
      (some (Work.shutdown owner .draining) = none ∧ Ends w s t)) :
    Comes w s t (.shutdown owner .drained) := by
  rcases h with h | ⟨work, he, h⟩ | ⟨h, -⟩
  · exact .drained h.symm
  · cases he
    cases h with
    | starts _ h => cases h
    | goes h hg => cases hg; exact .drained h
  · cases h

theorem handed {w : Service} {s : Step} {t : Ticket} {owner : String} {result : Except Error Connection}
    (hr : Resolved w t s result) (hb : ∀ c, result = .ok c → Released w s c → c.isBroken = false)
    (h : some (Work.acquire owner .queued) = w.work? t ∨
      (∃ work, some (Work.acquire owner .queued) = some work ∧ Comes w s t work) ∨
      (some (Work.acquire owner .queued) = none ∧ Ends w s t)) :
    Comes w s t (.acquire owner (.handed result)) := by
  rcases h with h | ⟨work, he, h⟩ | ⟨h, -⟩
  · exact .handed h.symm hr hb
  · cases he
    cases h with
    | starts _ h => cases h
    | goes h hg =>
      -- Who only joins the queue in this step is not served in it.
      cases hg
      cases hr with
      | released hr _ => cases hr with | giveBack hb => cases h.symm.trans hb
      | opened hs _ => cases h.symm.trans hs
      | closed hc _ => cases hc with | shutdown hc => cases h.symm.trans hc
  · cases h

/-- Whoever waits within a step waited before it, or only began to. -/
theorem asks (h : Effect w s w') (hw : w'.waits x = true) : w.Asks x := by
  obtain ⟨owner, hq⟩ := waits_work hw
  rcases h.work x with he | ⟨work, he, hc⟩ | ⟨he, -⟩
  · exact ⟨owner, .queued, he.symm.trans hq, .inr rfl⟩
  · obtain rfl := Option.some.inj (hq.symm.trans he)
    cases hc with
    | starts _ hs => cases hs
    | goes hw hg =>
      cases hg
      exact ⟨owner, .start, hw, .inl rfl⟩
  · cases he.symm.trans hq

/-- Whoever is before the first who waits in the step gave up before, or in it. -/
theorem vacate (h : Effect w s w') (hs : Steady w s w') (id : Option Nat) : Effect w s (w'.vacate id) :=
  Within.vacate h id
    (fun _ _ ht hq hw => .inr (.inl ⟨_, rfl, .starts ht (.serve (hs.queue ▸ hq) (asks h hw))⟩))
    (fun _ _ _ hq hgone => .serves (hs.queue.symm.trans hq) fun y hy => hs.absent (hgone y hy))
    (fun hall => .empties fun y hy => hs.absent (hall y (hs.queue ▸ hy)))
    fun t owner hd => .inr (.inl ⟨_, rfl, drained w s t owner hd⟩)

theorem discard (h : Effect w s w') (hs : Steady w s w') (c : Connection) :
    Effect w s (w'.discard c) := h.vacate hs (some c.id)

/-- A pool that is let go has nobody waiting: who waits holds it. -/
theorem reap (h : Effect w s w') : Effect w s w'.reap := by
  refine Within.reap h fun hnone => .empties fun y _ hy hissued => ?_
  have hfree : ∀ work, w'.work? y = some work → work.holdsPool = false := fun work hw => by
    obtain ⟨task, hmem, -, rfl⟩ := work?_some hw
    exact hnone task hmem
  obtain ⟨owner, hq⟩ := waits_work hy
  rcases h.work y with he | ⟨work, he, hc⟩ | ⟨-, hends⟩
  · cases hfree _ (he.trans hq)
  · cases hc with
    | starts hn _ => exact absurd hissued (Nat.not_lt.2 hn)
    | goes ht hg =>
      cases hq.symm.trans ht
      cases hg
    | handed => cases hfree _ he
    | drained ht => cases hq.symm.trans ht
  · exact hends

theorem record (h : Effect w s w') (o : Outbound) : Effect w s (w'.record o) := Within.record h o

theorem dismiss (h : Effect w s w') (hd : Dismissed w s c) : Effect w s (w'.closeDetached c) := by
  refine Within.spawn h fun t ht => .inr (.inl ⟨_, rfl, .starts ht ?_⟩)
  split
  · exact .dismiss hd
  · exact .giveUp hd

theorem withLedger (h : Effect w s w') {l : Ledger}
    (hl : ∀ id c deadline, (id, .idle c deadline) ∈ l.live → w.ParkedUntil id c deadline)
    (hq : Queues w s l.waiters) : Effect w s (w'.withLedger l) :=
  Within.withLedger h (fun id c deadline hmem => .inl (hl id c deadline hmem)) hq

theorem release (h : Effect w s w') (hs : Steady w s w')
    (hdue : w'.now + w'.config.idleTimeout = w.now + w.config.idleTimeout) (hr : Released w s c) :
    Effect w s (w'.release c) := by
  unfold Service.release
  split
  · exact h.discard hs c
  next hsound =>
  split
  · exact h
  next l hl' =>
  have hparked : ∀ id c deadline, (id, .idle c deadline) ∈ l.live → w.ParkedUntil id c deadline :=
    fun id c deadline hmem => ⟨l, hs.ledger ▸ hl', hmem⟩
  have hwaiters : w.queue = l.waiters := hs.queue.symm.trans (queue_eq hl')
  rcases l.accept_cases w'.config.keepAlive w'.waits (w'.now + w'.config.idleTimeout) c with
    ⟨-, ha⟩ | ⟨-, gone, t, rest, hw, hgone, -, ha⟩ | ⟨-, hall, ha⟩
  · simp only [ha]
    exact (h.withLedger hparked (hwaiters ▸ .stays)).dismiss (.inl hr)
  · simp only [ha]
    have hqueue : t ∈ w.queue := by
      rw [hwaiters, hw]
      exact List.mem_append_right _ List.mem_cons_self
    have hl₁ : Effect w s (w'.withLedger { l with waiters := rest }) :=
      h.withLedger hparked (.serves (hwaiters.trans hw) fun y hy => hs.absent (hgone y hy))
    have hb : ∀ c', (.ok c : Except Error Connection) = .ok c' → Released w s c' → c'.isBroken = false :=
      fun c' he _ => by cases he; simpa using hsound
    exact Within.deliver hl₁ fun owner hq => .inr (.inl ⟨_, rfl, handed (.released hr hqueue) hb hq⟩)
  · simp only [ha]
    have hp : Effect w s (w'.withLedger (Ledger.park { l with waiters := [] } c
        (w'.now + w'.config.idleTimeout))) := by
      refine Within.withLedger h (fun id c' d hmem => ?_)
        (.empties fun y hy => hs.absent (hall y (hwaiters ▸ hy)))
      rcases Ledger.mem_putSlot hmem with he | hmem
      · cases he
        exact .inr (hdue ▸ .released hr (by simpa using hsound))
      · exact .inl (hparked id c' d hmem)
    split
    · exact Within.spawn hp fun t ht => .inr (.inl ⟨_, rfl, .starts ht (.expiry hr)⟩)
    · exact hp

theorem closePool {w₁ : Service} {onDrained : Option DrainCall} (h : Effect w s w') (hl : w'.ledger = w.ledger)
    (hs : Closes w s onDrained) (hc : w'.closePool onDrained = some w₁) : Effect w s w₁ := by
  unfold Service.closePool at hc
  split at hc
  · cases hc
  next l hl' =>
  split at hc
  · cases hc
  next closing l' hb =>
  cases hc
  obtain ⟨-, hwaiters, hidle, hl''⟩ := Ledger.beginClose_some hb
  have hclosed : l'.live = (l.closed onDrained).live ∧ l'.waiters = [] := by
    rcases hl'' with ⟨-, -, rfl⟩ | ⟨-, -, rfl⟩ <;> exact ⟨rfl, rfl⟩
  have hledger : Effect w s (w'.withLedger l') := by
    refine Within.withLedger h (fun id c d hmem => ?_) (hclosed.2 ▸ .closes hs)
    rw [hclosed.1] at hmem
    obtain ⟨p, -, he⟩ := List.mem_map.1 hmem
    cases he
  refine Within.finish (Within.foldl (fun {w₂ c} hmem h₂ => ?_) (Within.foldl (fun {w₂ t} hmem h₂ => ?_) hledger))
    (fun t owner hd => .inr (.inl ⟨_, rfl, drained w s t owner hd⟩)) _
  · refine dismiss h₂ (.inr ⟨onDrained, hs, ?_⟩)
    rw [hidle] at hmem
    obtain ⟨⟨id, slot⟩, hp, hslot⟩ := List.mem_filterMap.1 hmem
    cases slot with
    | idle c' deadline => cases hslot; exact ⟨l, id, deadline, hl ▸ hl', hp⟩
    | lent b => cases hslot
  · have hqueue : t ∈ w.queue := by
      rw [queue_eq (hl ▸ hl'), ← hwaiters]
      exact hmem
    exact Within.deliver h₂ fun owner hq => .inr (.inl ⟨_, rfl, handed (.closed hs hqueue) (fun _ he => by cases he) hq⟩)

/-! ## Tasks -/

theorem runOpening (w : Service) (s : Step) (step : Opening) (hc : step = .reserved → Connects w s) :
    Effect w s (w.runOpening step).2 := by
  cases step with
  | reserved =>
    have h := refl w s
    exact ⟨h.fresh, h.named, .inr ⟨hc rfl, rfl, rfl⟩, h.queue, h.work, h.held, h.parked⟩
  | attempting attempt =>
    simp only [Service.runOpening]
    split
    · exact Within.record (refl w s) _
    · next session t _ =>
      have h : Effect w s (w.record t.stream.outbound) := Within.record (refl w s) _
      exact ⟨h.fresh, Nat.le_succ _, h.connects, h.queue, h.work, h.held, h.parked⟩
    · exact Within.record (refl w s) _
  | failed e => exact (refl w s).vacate (.refl w s) none
  | named c =>
    have hqueue : (w.runOpening (.named c)).2.queue = w.queue := by
      cases hl : w.ledger <;> simp [Service.runOpening, queue, hl, Ledger.enter, Ledger.put]
    refine ⟨Nat.le_refl _, Nat.le_refl _, .inl ⟨rfl, rfl⟩, hqueue ▸ .stays, fun _ => .inl rfl,
      fun _ hp => .inl hp, ?_⟩
    rintro id c' deadline ⟨l, hl, hmem⟩
    obtain ⟨l₀, hl₀, rfl⟩ := Option.map_eq_some_iff.1 hl
    rcases Ledger.mem_putSlot hmem with he | hmem
    · cases he
    · exact .inl ⟨l₀, hl₀, hmem⟩

/-- A task goes on with other work. -/
theorem goes {work work' : Work} {wait : Wait} (h : Effect w (.run t) w') (ht : w.work? t = some work)
    (hg : Goes w work work') : Effect w (.run t) (w'.await t work' wait) :=
  Within.await h (.inr (.inl ⟨_, rfl, .goes ht hg⟩)) wait

/-- A task goes on as before. -/
theorem stays {work : Work} {wait : Wait} (h : Effect w (.run t) w') (ht : w.work? t = some work) :
    Effect w (.run t) (w'.await t work wait) :=
  Within.await h (.inl ht.symm) wait

theorem ends (h : Effect w (.run t) w') : Effect w (.run t) (w'.endTask t) :=
  Within.endTask h (.inr (.inr ⟨rfl, .ran⟩))

theorem conclude (h : Effect w (.run t) w') (owner : String) {result : Except Error Connection}
    (hc : ∀ c, result = .ok c → Gets w (.run t) owner c) : Effect w (.run t) (w'.conclude t owner result) := by
  cases result with
  | ok c => exact Within.tell (Within.hold h.ends owner (.inr (hc c rfl))) owner _
  | error e => exact Within.tell h.ends owner _

theorem runAcquire {owner : String} {step : Acquire} (ht : w.work? t = some (.acquire owner step)) :
    Effect w (.run t) (w.runAcquire t owner step) := by
  have h := refl w (.run t)
  cases step with
  | start =>
    simp only [Service.runAcquire]
    split
    · exact h.ends
    next l hl =>
    have hparked : ∀ id c deadline, (id, .idle c deadline) ∈ l.live → w.ParkedUntil id c deadline :=
      fun id c deadline hmem => ⟨l, hl, hmem⟩
    rcases l.acquire_cases w.limit t with
      ⟨-, ha⟩ | ⟨hopen, c, l', htake, ha⟩ | ⟨hopen, -, -, ha⟩ | ⟨hopen, -, -, ha⟩
    · rw [ha]
      exact (h.withLedger hparked (queue_eq hl ▸ .stays)).conclude owner fun c he => by cases he
    · rw [ha]
      have hl₁ : Effect w (.run t) (w.withLedger l') := by
        obtain ⟨id, c₀, deadline, -, -, rfl⟩ := Ledger.takeIdle_some htake
        refine h.withLedger (fun id' c' d hmem => ?_) (queue_eq hl ▸ .stays)
        rcases Ledger.mem_putSlot hmem with he | hmem
        · cases he
        · exact hparked id' c' d hmem
      dsimp only
      split
      · next hb => exact (record hl₁ _).goes ht (.reuse hl hopen htake hb)
      · next hb => exact (record hl₁ _).goes ht (.reuseFails hl hopen htake hb)
    · rw [ha]
      exact (h.withLedger (l := { l with count := l.count + 1 }) hparked (queue_eq hl ▸ .stays)).goes ht
        (.create hl hopen)
    · rw [ha]
      exact (h.withLedger (l := { l with waiters := l.waiters ++ [t] }) hparked
        (queue_eq hl ▸ .joins ht)).goes ht (.join hl hopen)
  | verifying c reader =>
    simp only [Service.runAcquire]
    split
    · next hp => exact h.goes ht (.verify hp)
    next result c' hp =>
    split
    · next c'' hj =>
      refine h.conclude owner fun c he => ?_
      cases he
      exact .verified ht hp hj
    · next hj => exact h.goes ht (.verifyFails hp hj)
  | unsound c =>
    simp only [Service.runAcquire]
    split
    · exact h.ends
    next l hl =>
    have hparked : ∀ id c deadline, (id, .idle c deadline) ∈ l.reserveReplacement.2.live →
        w.ParkedUntil id c deadline := by
      rcases l.reserveReplacement_cases with ⟨-, hr⟩ | ⟨-, hr⟩ <;> rw [hr] <;>
        exact fun id c deadline hmem => ⟨l, hl, hmem⟩
    have hqueue : l.reserveReplacement.2.waiters = w.queue := by
      rcases l.reserveReplacement_cases with ⟨-, hr⟩ | ⟨-, hr⟩ <;> rw [hr, queue_eq hl]
    exact (h.withLedger hparked (hqueue ▸ .stays)).goes ht (.reserve hl)
  | discarding c replaced =>
    have hd : Effect w (.run t) (w.discard c) := h.discard (.refl w _) c
    cases replaced with
    | true => exact hd.goes ht .replace
    | false =>
      have hnone : ∀ c, (.error .poolClosed : Except Error Connection) = .ok c → Gets w (.run t) owner c :=
        fun c he => by cases he
      exact hd.conclude owner hnone
  | opening step =>
    have ho := runOpening w (.run t) step fun hr => .acquire (hr ▸ ht)
    simp only [Service.runAcquire]
    split
    · next he =>
      rw [he] at ho
      exact ho.goes ht (.opening (congrArg Prod.fst he))
    · next result w' he =>
      rw [he] at ho
      refine ho.conclude owner fun c hc => .opened ht ?_
      rw [he, hc]
  | queued => exact h
  | handed result => exact h.conclude owner fun c he => .handed (he ▸ ht)

theorem settle {owner : String} {purpose : Purpose} {c : Connection} {result : Except Error Reply}
    (h : Effect w (.run t) w') (hcommand : ∀ command, purpose = .command command → Gets w (.run t) owner c)
    (hprobe : purpose = .probe → Gets w (.run t) owner (c.judge result).2) :
    Effect w (.run t) (w'.settleExchange t owner c purpose result) := by
  have hgive : ∀ {c' e}, Gets w (.run t) owner c' → Effect w (.run t) (((w'.endTask t).hold owner c').tell owner e) :=
    fun hc => Within.tell (Within.hold h.ends owner (.inr hc)) owner _
  unfold Service.settleExchange
  cases purpose with
  | command command => cases result <;> exact hgive (hcommand command rfl)
  | probe =>
    have hc := hprobe rfl
    dsimp only
    split <;> next he => rw [he] at hc; exact hgive hc

theorem runExchange {owner : String} {purpose : Purpose} {c : Connection} {reader : Option ReplyReader}
    (ht : w.work? t = some (.exchange owner purpose c reader)) :
    Effect w (.run t) (w.runExchange t owner purpose c reader) := by
  have h := refl w (.run t)
  cases reader with
  | none =>
    simp only [Service.runExchange]
    split
    · next hb => exact (record h _).goes ht (.begin hb)
    · next e c' hb =>
      have hg : Gets w (.run t) owner c' := .refused ht hb
      exact settle (record h _) (fun _ _ => hg) fun _ => hg
  | some reader =>
    simp only [Service.runExchange]
    split
    · next hp => exact h.goes ht (.exchange hp)
    · next hp =>
      refine settle h (fun command hc => ?_) fun hc => ?_
      · subst hc; exact .replied ht hp
      · subst hc; exact .probed ht hp

theorem concludeClose (h : Effect w (.run t) w') (hs : Steady w (.run t) w')
    (owner : Option String) (c : Connection) : Effect w (.run t) (w'.concludeClose t owner c) := by
  have hd : Effect w (.run t) ((w'.endTask t).discard c) := h.ends.discard (hs.endTask .ran) c
  cases owner with
  | none => exact hd
  | some owner => exact Within.tell hd owner _

theorem runClose {owner : Option String} {holdsPool : Bool} {c : Connection} {quit : Option (ReplyReader × Nat)}
    (ht : w.work? t = some (.close owner holdsPool c quit)) :
    Effect w (.run t) (w.runClose t owner holdsPool c quit) := by
  have h := refl w (.run t)
  have hsteady : Steady w (.run t) w := .refl w _
  have hrecord : ∀ o, Steady w (.run t) (w.record o) := fun o =>
    hsteady.congr (quiet_record w o).ledger (work?_record w o)
  cases quit with
  | none =>
    simp only [Service.runClose]
    split
    · exact h.concludeClose hsteady owner c
    split
    · next hb => exact (record h _).goes ht (.quit hb)
    · exact concludeClose (record h _) (hrecord _) owner _
  | some q =>
    simp only [Service.runClose]
    split
    · exact h.concludeClose hsteady owner _
    split
    · exact h.concludeClose hsteady owner _
    · next hp _ => exact h.goes ht (.quitting hp)

theorem runExpiry {id deadline : Nat} (ht : w.work? t = some (.expiry id deadline)) :
    Effect w (.run t) (w.runExpiry t id deadline) := by
  have h := refl w (.run t)
  unfold Service.runExpiry
  split
  · exact h.stays ht
  split
  · exact h.ends
  next l hl =>
  split
  · exact h.ends
  next c l' htake =>
  obtain ⟨_, -, -, rfl⟩ := Ledger.takeExpired_some htake
  refine goes (h.withLedger ?_ (queue_eq hl ▸ .stays)) ht (.expire hl htake)
  intro id' c' d hmem
  rcases Ledger.mem_putSlot hmem with he | hmem
  · cases he
  · exact ⟨l, hl, hmem⟩

theorem runServe {waiter : Ticket} {step : Opening} (ht : w.work? t = some (.serve waiter step)) :
    Effect w (.run t) (w.runServe t waiter step) := by
  have ho := runOpening w (.run t) step fun hr => .serve (hr ▸ ht)
  unfold Service.runServe
  split
  · next he =>
    rw [he] at ho
    exact ho.goes ht (.serve (congrArg Prod.fst he))
  next result w₁ he =>
  rw [he] at ho
  split
  · have hb : ∀ c, result = .ok c → Released w (.run t) c → c.isBroken = false := fun c _ hr => by
      cases hr with | giveBack hg => cases ht.symm.trans hg
    refine ends (Within.deliver ho fun owner hq => .inr (.inl ⟨_, rfl, handed ?_ hb hq⟩))
    exact .opened ht (congrArg Prod.fst he)
  split
  · next c => exact ho.goes ht (.bounce (congrArg Prod.fst he))
  · exact ho.ends

theorem runShutdown {owner : String} {step : Shutdown} (ht : w.work? t = some (.shutdown owner step)) :
    Effect w (.run t) (w.runShutdown t owner step) := by
  have h := refl w (.run t)
  cases step with
  | start =>
    simp only [Service.runShutdown]
    split
    · next hc => exact closePool (h.goes ht .shutdown) rfl (.shutdown ht) hc
    · exact Within.tell h.ends owner _
  | draining => exact h
  | drained => exact Within.tell h.ends owner _

theorem runWork {work : Work} (ht : w.work? t = some work) : Effect w (.run t) (w.runWork t work) := by
  cases work with
  | acquire owner step => exact runAcquire ht
  | exchange owner purpose c reader => exact runExchange ht
  | close owner holdsPool c quit => exact runClose ht
  | expiry id deadline => exact runExpiry ht
  | serve waiter step => exact runServe ht
  | giveBack c => exact ends (release (refl w _) (.refl w _) rfl (.giveBack ht))
  | giveUp c => exact (refl w _).ends.discard (Steady.endTask (.refl w _) .ran) c
  | shutdown owner step => exact runShutdown ht

/-! ## Callers -/

theorem dropTask {owner : String} {task : Task} (htask : w.underWay? owner = some task)
    (hd : w.dropTask task = some w') : Effect w (.request (.cancel owner)) w' := by
  have hgone : Effect w (.request (.cancel owner)) (w.endTask task.ticket) :=
    Within.endTask (refl w _) (.inr (.inr ⟨rfl, .cancelled htask⟩))
  have hsteady : Steady w (.request (.cancel owner)) (w.endTask task.ticket) :=
    Steady.endTask (.refl w _) (.cancelled htask)
  unfold Service.dropTask at hd
  dsimp only at hd
  split at hd <;> simp only [Option.some.injEq, reduceCtorEq] at hd <;> subst hd
  · exact hgone
  · exact hgone
  · exact hgone
  · exact hgone.discard hsteady _
  · exact hgone.discard hsteady _
  · exact hgone.vacate hsteady none
  · exact hgone.discard hsteady _
  · exact hgone.discard hsteady _
  · exact hgone

theorem cancel (w : Service) (owner : String) : Effect w (.request (.cancel owner)) (w.cancel owner) := by
  unfold Service.cancel
  split
  · next w₁ hd =>
    obtain ⟨task, htask, hd⟩ := Option.bind_eq_some_iff.1 hd
    exact reap (Within.tell (dropTask htask hd) owner _)
  · exact refl w _

theorem abandon (w : Service) (owner : String) : Effect w (.request (.abandon owner)) (w.abandon owner) := by
  unfold Service.abandon
  split
  · next ticket other purpose c reader wait htask =>
    have howner : other = owner := by
      have := List.find?_some htask
      simpa [Work.owner?] using this
    subst howner
    have hend : Effect w (.request (.abandon other)) (w.endTask ticket) :=
      Within.endTask (refl w _) (.inr (.inr ⟨rfl, .abandoned htask rfl⟩))
    exact Within.hold hend other (.inr (.abandoned htask rfl))
  · exact refl w _

theorem ask {q : Request} (h : w.ask q = .ok w') : Effect w (.request q) w' := by
  have hr := refl w (.request q)
  cases q with
  | acquire owner =>
    simp only [Service.ask] at h
    obtain ⟨hh, rfl⟩ := withPool_ok h
    exact Within.spawn hr fun t ht => .inr (.inl ⟨_, rfl, .starts ht (.acquire hh)⟩)
  | exchange owner purpose =>
    obtain ⟨c, hc, h⟩ := withHeld_ok h
    cases h
    exact Within.spawn (Within.unhold hr owner) fun t ht => .inr (.inl ⟨_, rfl, .starts ht (.exchange hc)⟩)
  | closeConnection owner =>
    obtain ⟨c, hc, h⟩ := withHeld_ok h
    cases h
    exact Within.spawn (Within.unhold hr owner) fun t ht => .inr (.inl ⟨_, rfl, .starts ht (.close hc)⟩)
  | release owner =>
    obtain ⟨c, hc, h⟩ := withHeld_ok h
    obtain ⟨hh, rfl⟩ := withPool_ok h
    exact release (Within.unhold hr owner) ((Steady.refl w _).congr rfl fun _ => rfl) rfl (.request hh hc)
  | drop owner =>
    obtain ⟨c, hc, h⟩ := withHeld_ok h
    cases h
    exact discard (Within.unhold hr owner) ((Steady.refl w _).congr rfl fun _ => rfl) c
  | setBroken owner =>
    obtain ⟨c, hc, h⟩ := withHeld_ok h
    cases h
    exact Within.hold (Within.unhold hr owner) owner (.inr (.spoilt hc))
  | cancel owner => cases h; exact cancel w owner
  | abandon owner => cases h; exact abandon w owner
  | closePool callback =>
    obtain ⟨hh, hc⟩ := closePool_ok h
    exact closePool hr rfl (.request hh) hc
  | shutdown owner =>
    simp only [Service.ask] at h
    obtain ⟨hh, rfl⟩ := withPool_ok h
    exact Within.spawn hr fun t ht => .inr (.inl ⟨_, rfl, .starts ht (.shutdown hh)⟩)
  | dropPool =>
    cases h
    exact reap (Within.congr hr rfl rfl rfl rfl rfl rfl rfl)

end Effect

/-- **Nothing else happens.** After a step every task, every connection that a
caller holds and every parked connection is as before or came about in one of
the ways above, and so did every connect. -/
theorem step_effect (w : Service) (s : Step) : Effect w s (w.step s) := by
  cases s with
  | request q =>
    simp only [step]
    cases h : w.ask q with
    | error e => exact Effect.refl w _
    | ok w' => exact Effect.ask h
  | run t =>
    simp only [step, run]
    split
    · exact Effect.refl w _
    · next ht => exact Effect.reap (Effect.runWork ht)
  | tick ms => exact Within.congr (Effect.refl w _) rfl rfl rfl rfl rfl rfl rfl

theorem step_work {work : Work} (h : (w.step s).work? x = some work) :
    w.work? x = some work ∨ Comes w s x work := by
  rcases (step_effect w s).work x with he | ⟨work', he, hc⟩ | ⟨he, -⟩
  · exact .inl (he.symm.trans h)
  · obtain rfl : work' = work := Option.some.inj (he.symm.trans h)
    exact .inr hc
  · cases he.symm.trans h

theorem steps_append (w : Service) (run later : List Step) : w.steps (run ++ later) = (w.steps run).steps later :=
  List.foldl_append

theorem steps_snoc (w : Service) (run : List Step) (s : Step) : w.steps (run ++ [s]) = (w.steps run).step s :=
  steps_append w run [s]

end SmtpClient.Pool.Service
