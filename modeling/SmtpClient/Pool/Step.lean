/-
The steps of a pool. A task runs one step at a time, and between two steps of
one task any other task or caller may make some; what happens within a step
is seen by nobody. No step has more than one turn at the ledger.
-/
import SmtpClient.Pool.Service

namespace SmtpClient.Pool.Service

/-! ## Opening -/

/-- What a step of an opening leads to. -/
inductive Opened where
  | goesOn (step : Opening) (wait : Wait)
  | ends (result : Except Error Connection)

/-- One step of an opening. -/
def runOpening (w : Service) : Opening → Opened × Service
  | .reserved =>
    let (attempt, w) := w.connect
    (.goesOn (.attempting attempt) .none, w)
  | .attempting attempt =>
    match attempt.poll w.config w.now with
    | .pending wake attempt => (.goesOn (.attempting attempt) (.ofWake wake), w.record attempt.written)
    | .opened session t =>
      let c := Connection.ofEstablished w.nextId session t
      (.goesOn (.named c) .none, { w.record t.stream.outbound with nextId := w.nextId + 1 })
    | .failed e written => (.goesOn (.failed e) .none, w.record written)
  | .failed e => (.ends (.error e), w.vacate none)
  | .named c => (.ends (.ok c), { w with ledger := w.ledger.map fun l => l.enter c.id })

/-! ## Tasks -/

/-- Ends an acquire with its result. -/
def conclude (w : Service) (t : Ticket) (owner : String) : Except Error Connection → Service
  | .ok c => ((w.endTask t).hold owner c).tell owner (.acquired c.id c.auth c.status)
  | .error e => (w.endTask t).tell owner (.failed e)

/-- One step of an acquire. -/
def runAcquire (w : Service) (t : Ticket) (owner : String) : Acquire → Service
  | .start =>
    match w.ledger with
    | none => w.endTask t
    | some l =>
      match l.acquire w.limit t with
      | (.refused, l) => (w.withLedger l).conclude t owner (.error .poolClosed)
      | (.reuse c, l) =>
        match c.begin .rset with
        | (.ok reader, c) =>
          ((w.withLedger l).record c.written).become t (.acquire owner (.verifying c reader))
        | (.error _, c) => ((w.withLedger l).record c.written).become t (.acquire owner (.unsound c))
      | (.create, l) => (w.withLedger l).become t (.acquire owner (.opening .reserved))
      | (.wait, l) => (w.withLedger l).await t (.acquire owner .queued) .other
  | .verifying c reader =>
    match c.poll w.now reader with
    | (.pending wake reader, c) => w.await t (.acquire owner (.verifying c reader)) (.ofWake wake)
    | (.ready result, c) =>
      match c.judge result with
      | (.ok (), c) => w.conclude t owner (.ok c)
      | (.error _, c) => w.become t (.acquire owner (.unsound c))
  | .unsound c =>
    match w.ledger with
    | none => w.endTask t
    | some l =>
      let (replaced, l) := l.reserveReplacement
      (w.withLedger l).become t (.acquire owner (.discarding c replaced))
  | .discarding c true => (w.discard c).become t (.acquire owner (.opening .reserved))
  | .discarding c false => (w.discard c).conclude t owner (.error .poolClosed)
  | .opening step =>
    match w.runOpening step with
    | (.goesOn step wait, w) => w.await t (.acquire owner (.opening step)) wait
    | (.ends result, w) => w.conclude t owner result
  | .queued => w
  | .handed result => w.conclude t owner result

/-- Ends an exchange: the caller has its connection back. -/
def settleExchange (w : Service) (t : Ticket) (owner : String) (c : Connection) : Purpose →
    Except Error Reply → Service
  | .command _, .ok reply => ((w.endTask t).hold owner c).tell owner (.replied reply)
  | .command _, .error e => ((w.endTask t).hold owner c).tell owner (.failed e)
  | .probe, result =>
    match c.judge result with
    | (.ok (), c) => ((w.endTask t).hold owner c).tell owner .sound
    | (.error e, c) => ((w.endTask t).hold owner c).tell owner (.failed e)

/-- One step of an exchange. -/
def runExchange (w : Service) (t : Ticket) (owner : String) (purpose : Purpose) (c : Connection) :
    Option ReplyReader → Service
  | none =>
    match c.begin purpose.line with
    | (.ok reader, c) => (w.record c.written).become t (.exchange owner purpose c (some reader))
    | (.error e, c) => (w.record c.written).settleExchange t owner c purpose (.error e)
  | some reader =>
    match c.poll w.now reader with
    | (.pending wake reader, c) => w.await t (.exchange owner purpose c (some reader)) (.ofWake wake)
    | (.ready result, c) => w.settleExchange t owner c purpose result

/-- The connection of a closing task is gone. -/
def concludeClose (w : Service) (t : Ticket) (owner : Option String) (c : Connection) : Service :=
  let w := (w.endTask t).discard c
  match owner with
  | some owner => w.tell owner .closed
  | none => w

/-- When to look again: at the deadline, or earlier. -/
def untilDeadline (deadline : Nat) : Option Nat → Wait
  | some t => .time (min t deadline)
  | none => .time deadline

/-- One step of a closing task. -/
def runClose (w : Service) (t : Ticket) (owner : Option String) (holdsPool : Bool) (c : Connection) :
    Option (ReplyReader × Nat) → Service
  | none =>
    if c.isBroken then w.concludeClose t owner c
    else
      match c.begin .quit with
      | (.ok reader, c) =>
        (w.record c.written).become t
          (.close owner holdsPool c (some (reader, w.now + Connection.quitTimeout)))
      | (.error _, c) => (w.record c.written).concludeClose t owner c
  | some (reader, deadline) =>
    match c.poll w.now reader with
    | (.ready _, c) => w.concludeClose t owner c
    | (.pending wake reader, c) =>
      if deadline ≤ w.now then w.concludeClose t owner c
      else w.await t (.close owner holdsPool c (some (reader, deadline))) (untilDeadline deadline wake)

/-- One step of an expiry. It keeps the pool while it closes the connection. -/
def runExpiry (w : Service) (t : Ticket) (id deadline : Nat) : Service :=
  if w.now < deadline then w.await t (.expiry id deadline) (.time deadline)
  else
    match w.ledger with
    | none => w.endTask t
    | some l =>
      match l.takeExpired id w.now with
      | none => w.endTask t
      | some (c, l) => (w.withLedger l).become t (.close none true c none)

/-- One step of opening for a waiter. A waiter that has gone leaves its
connection to the pool. -/
def runServe (w : Service) (t waiter : Ticket) (step : Opening) : Service :=
  match w.runOpening step with
  | (.goesOn step wait, w) => w.await t (.serve waiter step) wait
  | (.ends result, w) =>
    if w.waits waiter then (w.deliver waiter result).endTask t
    else
      match result with
      | .ok c => w.become t (.giveBack c)
      | .error _ => w.endTask t

/-- One step of a shutdown. -/
def runShutdown (w : Service) (t : Ticket) (owner : String) : Shutdown → Service
  | .start =>
    match (w.await t (.shutdown owner .draining) .other).closePool (some (.signal t)) with
    | some w => w
    | none => (w.endTask t).tell owner .alreadyClosed
  | .draining => w
  | .drained => (w.endTask t).tell owner .shutDown

/-- One step of a task with this work. -/
def runWork (w : Service) (t : Ticket) : Work → Service
  | .acquire owner step => w.runAcquire t owner step
  | .exchange owner purpose c reader => w.runExchange t owner purpose c reader
  | .close owner holdsPool c quit => w.runClose t owner holdsPool c quit
  | .expiry id deadline => w.runExpiry t id deadline
  | .serve waiter step => w.runServe t waiter step
  | .giveBack c => (w.release c).endTask t
  | .giveUp c => (w.endTask t).discard c
  | .shutdown owner step => w.runShutdown t owner step

/-- One step of a task; none if there is no such task. -/
def run (w : Service) (t : Ticket) : Service :=
  match w.work? t with
  | none => w
  | some work => (w.runWork t work).reap

/-! ## Callers -/

/-- What callers ask for. -/
inductive Request where
  | acquire (owner : String)
  | exchange (owner : String) (purpose : Purpose)
  /-- Closes a connection with `QUIT`. -/
  | closeConnection (owner : String)
  | release (owner : String)
  /-- Gives a connection up without releasing it. -/
  | drop (owner : String)
  | setBroken (owner : String)
  /-- Gives up what is under way for this caller, with its connection. -/
  | cancel (owner : String)
  /-- Gives up an exchange and keeps the connection. -/
  | abandon (owner : String)
  | closePool (callback : Bool)
  | shutdown (owner : String)
  /-- The callers let the pool go. -/
  | dropPool
  deriving DecidableEq

/-- Why a request is refused. -/
inductive Refusal where
  | noConnection
  | noPool
  | alreadyClosed
  deriving DecidableEq

/-- The pool, as long as the callers hold it. -/
def withPool (w : Service) (f : Service → Service) : Except Refusal Service :=
  if w.handle then .ok (f w) else .error .noPool

/-- The connection that a caller holds. -/
def withHeld (w : Service) (owner : String) (f : Connection → Except Refusal Service) :
    Except Refusal Service :=
  match w.held? owner with
  | some c => f c
  | none => .error .noConnection

/-- What is under way for a caller. -/
def underWay? (w : Service) (owner : String) : Option Task :=
  w.tasks.find? fun task => task.work.owner? = some owner

/-- Drops a task at a point where it waits, with the connection or the slot
that it has. A task that does not wait is not dropped. -/
def dropTask (w : Service) (task : Task) : Option Service :=
  let gone := w.endTask task.ticket
  match task.work with
  | .acquire _ .start | .acquire _ .queued | .acquire _ (.handed (.error _)) => some gone
  | .acquire _ (.verifying c _) | .acquire _ (.handed (.ok c)) => some (gone.discard c)
  | .acquire _ (.opening (.attempting _)) => some (gone.vacate none)
  | .exchange _ _ c _ | .close _ _ c _ => some (gone.discard c)
  | .shutdown .. => some gone
  | _ => none

/-- Cancels what is under way for a caller, if anything is. -/
def cancel (w : Service) (owner : String) : Service :=
  match (w.underWay? owner).bind w.dropTask with
  | some w => (w.tell owner .cancelled).reap
  | none => w

/-- Ends an exchange of a caller, who has the connection back. -/
def abandon (w : Service) (owner : String) : Service :=
  match w.underWay? owner with
  | some { ticket, work := .exchange _ _ c _, .. } => (w.endTask ticket).hold owner c
  | _ => w

/-- Takes the first step of a request, which for most is the only one. A
connection that is busy is not held. -/
def ask (w : Service) : Request → Except Refusal Service
  | .acquire owner => w.withPool fun w => w.spawn (.acquire owner .start)
  | .exchange owner purpose =>
    w.withHeld owner fun c => .ok ((w.unhold owner).spawn (.exchange owner purpose c none))
  | .closeConnection owner =>
    w.withHeld owner fun c => .ok ((w.unhold owner).spawn (.close (some owner) false c none))
  | .release owner => w.withHeld owner fun c => w.withPool fun w => (w.unhold owner).release c
  | .drop owner => w.withHeld owner fun c => .ok ((w.unhold owner).discard c)
  | .setBroken owner => w.withHeld owner fun c => .ok ((w.unhold owner).hold owner c.setBroken)
  | .cancel owner => .ok (w.cancel owner)
  | .abandon owner => .ok (w.abandon owner)
  | .closePool callback =>
    if w.handle then
      match w.closePool (if callback then some .callback else none) with
      | some w => .ok w
      | none => .error .alreadyClosed
    else .error .noPool
  | .shutdown owner => w.withPool fun w => w.spawn (.shutdown owner .start)
  | .dropPool => .ok { w with handle := false }.reap

/-! ## Runs -/

/-- What happens next: any caller or task, or time passes. -/
inductive Step where
  | request (r : Request)
  | run (t : Ticket)
  | tick (ms : Nat)

/-- A step. A request that is refused changes nothing. -/
def step (w : Service) : Step → Service
  | .request r => (w.ask r).toOption.getD w
  | .run t => w.run t
  | .tick ms => { w with now := w.now + ms }

/-- The service after some steps. -/
def steps (w : Service) (run : List Step) : Service :=
  run.foldl step w

end SmtpClient.Pool.Service
