/-
A pool with everything that acts on it: the callers, the tasks that run on
their behalf and in the background, the servers that will answer its
connects, and the clock. This module holds the state and the effects of which
steps are made; nothing here decides what happens next.
-/
import SmtpClient.Pool.Ledger

namespace SmtpClient.Pool

/-- Opening a connection into a slot that is counted already. -/
inductive Opening where
  /-- Nothing is started yet. -/
  | reserved
  | attempting (attempt : Attempt)
  /-- Failed; the slot is still counted. -/
  | failed (e : Error)
  /-- Succeeded; the connection has its identifier but is not recorded yet. -/
  | named (connection : Connection)

/-- How far a caller's acquire is. -/
inductive Acquire where
  | start
  /-- Waits for the reply to the `RSET` on an idle connection. -/
  | verifying (connection : Connection) (reader : ReplyReader)
  /-- The idle connection failed. -/
  | unsound (connection : Connection)
  /-- The idle connection is to be given up; `replaced` tells whether a slot
  for another one is counted. -/
  | discarding (connection : Connection) (replaced : Bool)
  | opening (step : Opening)
  | queued
  /-- Left the queue with this result. -/
  | handed (result : Except Error Connection)

/-- What an exchange of a caller is for. -/
inductive Purpose where
  | command (command : Command)
  | probe
  deriving DecidableEq

/-- The command that the exchange sends. -/
def Purpose.line : Purpose → Command
  | .command c => c
  | .probe => .rset

/-- How far a caller's shutdown is. -/
inductive Shutdown where
  | start
  | draining
  | drained
  deriving DecidableEq

/-- What a task does. -/
inductive Work where
  | acquire (owner : String) (step : Acquire)
  /-- Not begun as long as there is no reader. -/
  | exchange (owner : String) (purpose : Purpose) (connection : Connection)
      (reader : Option ReplyReader)
  /-- Closes a connection, for a caller or in the background. After `QUIT` it
  waits for the reply until a deadline. -/
  | close (owner : Option String) (holdsPool : Bool) (connection : Connection)
      (quit : Option (ReplyReader × Nat))
  /-- Takes the connection out of the pool if it is idle past the deadline. -/
  | expiry (id deadline : Nat)
  /-- Opens a connection for a waiter. -/
  | serve (waiter : Ticket) (step : Opening)
  /-- Releases a connection whose waiter has gone. -/
  | giveBack (connection : Connection)
  /-- What is left of a call that must close a connection where nothing runs in
  the background: it gives the connection up before it returns. -/
  | giveUp (connection : Connection)
  | shutdown (owner : String) (step : Shutdown)

/-- The caller that a task runs for. -/
def Work.owner? : Work → Option String
  | .acquire owner _ | .exchange owner _ _ _ | .shutdown owner _ => some owner
  | .close owner _ _ _ => owner
  | .expiry .. | .serve .. | .giveBack _ | .giveUp _ => none

def Work.isGiveUp : Work → Bool
  | .giveUp _ => true
  | _ => false

/-- A task that keeps the pool alive. -/
def Work.holdsPool : Work → Bool
  | .acquire .. | .serve .. | .giveBack _ | .giveUp _ | .shutdown .. => true
  | .close _ holdsPool _ _ => holdsPool
  | .exchange .. | .expiry .. => false

/-- What a task waits for. -/
inductive Wait where
  /-- Nothing: it can go on. -/
  | none
  | time (t : Nat)
  /-- Another task, or a stream that stays silent. -/
  | other
  deriving DecidableEq

/-- A wait until a time, or for ever. -/
def Wait.ofWake : Option Nat → Wait
  | some t => .time t
  | .none => .other

/-- A task. -/
structure Task where
  ticket : Ticket
  work : Work
  wait : Wait := .none

/-- What a caller learns when something that it began is over. -/
inductive Event where
  | acquired (id : Nat) (auth : AuthOutcome) (status : Status)
  | failed (e : Error)
  | replied (reply : Reply)
  /-- The probe succeeded. -/
  | sound
  | closed
  | shutDown
  /-- The pool was closed before. -/
  | alreadyClosed
  | cancelled
  deriving DecidableEq

/-- What a pool that has drained tells the outside. -/
inductive Outcall where
  /-- The connector is shut down. -/
  | connector
  /-- Whoever wants to know of the drain is told. -/
  | drained (call : DrainCall)
  deriving DecidableEq

/-- A pool with its surroundings. -/
structure Service where
  config : Config
  /-- Whether background tasks can be started. -/
  spawns : Bool := true
  now : Nat := 0
  /-- The pool's ledger, as long as anyone holds the pool. -/
  ledger : Option Ledger := some {}
  /-- Whether the callers still hold the pool. -/
  handle : Bool := true
  /-- How the connects to come are answered. -/
  peers : List Peer := []
  connects : Nat := 0
  nextId : Nat := 1
  nextTicket : Ticket := 0
  tasks : List Task := []
  /-- The tasks that were woken, in that order. -/
  ready : List Ticket := []
  /-- The connections that callers hold. -/
  holding : List (String × Connection) := []
  /-- What was written, by the number of the connect. -/
  written : List (Nat × Outbound) := []
  events : List (String × Event) := []
  /-- What the pool told the outside, in that order. -/
  outcalls : List Outcall := []

namespace Service

/-- A pool that nothing has happened to. -/
def new (config : Config) (spawns : Bool) (peers : List Peer) : Service :=
  { config, spawns, peers }

/-- How often the connector was shut down. -/
def shutdowns (w : Service) : Nat :=
  w.outcalls.count .connector

/-- How often the drain callback ran. -/
def drainCalls (w : Service) : Nat :=
  w.outcalls.count (.drained .callback)

/-- The capacity; a pool has room for one connection at least. -/
def limit (w : Service) : Nat :=
  max 1 w.config.maxPoolSize

def task? (w : Service) (t : Ticket) : Option Task :=
  w.tasks.find? fun task => task.ticket = t

/-- What a task does. -/
def work? (w : Service) (t : Ticket) : Option Work :=
  (w.task? t).map Task.work

/-- The ledger as callers see it who still hold the pool. -/
def open? (w : Service) : Option Ledger :=
  if w.handle then w.ledger else none

/-- The connection that a caller holds. -/
def held? (w : Service) (owner : String) : Option Connection :=
  w.holding.lookup owner

/-- A task that still waits in the queue. -/
def waits (w : Service) (t : Ticket) : Bool :=
  match w.work? t with
  | some (.acquire _ .queued) => true
  | _ => false

/-! ## Tasks -/

def wake (w : Service) (t : Ticket) : Service :=
  if t ∈ w.ready then w else { w with ready := w.ready ++ [t] }

/-- Starts a task. -/
def spawn (w : Service) (work : Work) : Service :=
  { w with
    nextTicket := w.nextTicket + 1
    tasks := w.tasks ++ [{ ticket := w.nextTicket, work }]
    ready := w.ready ++ [w.nextTicket] }

/-- Says what a task does when it goes on, and what it waits for first. -/
def await (w : Service) (t : Ticket) (work : Work) (wait : Wait) : Service :=
  { w with tasks := w.tasks.map fun task => if task.ticket = t then { task with work, wait } else task }

/-- Says what a task does next. -/
def become (w : Service) (t : Ticket) (work : Work) : Service :=
  w.await t work .none

def endTask (w : Service) (t : Ticket) : Service :=
  { w with tasks := w.tasks.filter fun task => task.ticket ≠ t }

/-- Gives a waiter its result. -/
def deliver (w : Service) (t : Ticket) (result : Except Error Connection) : Service :=
  match w.work? t with
  | some (.acquire owner .queued) => (w.become t (.acquire owner (.handed result))).wake t
  | _ => w

/-! ## Callers -/

def tell (w : Service) (owner : String) (e : Event) : Service :=
  { w with events := w.events ++ [(owner, e)] }

def hold (w : Service) (owner : String) (c : Connection) : Service :=
  { w with holding := w.holding ++ [(owner, c)] }

/-- Takes the connection that `held?` finds away from its caller. -/
def unhold (w : Service) (owner : String) : Service :=
  { w with holding := w.holding.eraseP fun (other, _) => other = owner }

/-! ## Streams -/

/-- Puts a record under its number. -/
def putWritten (o : Outbound) : List (Nat × Outbound) → List (Nat × Outbound)
  | [] => [(o.number, o)]
  | (n, other) :: rest =>
    if o.number < n then (o.number, o) :: (n, other) :: rest
    else if o.number = n then (n, o) :: rest
    else (n, other) :: putWritten o rest

/-- Keeps the record of what a stream's client wrote. -/
def record (w : Service) (o : Outbound) : Service :=
  if o.attempted = [] then w else { w with written := putWritten o w.written }

/-- The answer to a connect that nobody expects. -/
def noPeer : Peer where
  connect := .error (.stream (.other "no more connections"))
  upgrade := fun _ => .error (.notSupported "STARTTLS")

/-- Begins a connect. -/
def connect (w : Service) : Attempt × Service :=
  let peer := (w.peers.headD noPeer).numbered w.connects
  (Attempt.start peer w.now, { w with peers := w.peers.drop 1, connects := w.connects + 1 })

/-! ## The pool -/

/-- Makes calls to the outside. -/
def announce (w : Service) (calls : List Outcall) : Service :=
  { w with outcalls := w.outcalls ++ calls }

/-- Tells a shutdown that waits for the drain. -/
def signal (w : Service) : Drained → Service
  | some (.signal t) =>
    match w.work? t with
    | some (.shutdown owner .draining) => (w.become t (.shutdown owner .drained)).wake t
    | _ => w
  | _ => w

/-- What the outside is told when a ledger reports its drain, if it does. -/
def told : Option Drained → List Outcall
  | none => []
  | some drained => .connector :: (drained.map Outcall.drained).toList

/-- What the last one out does: it shuts the connector down and then tells
whoever wants to know. -/
def finish (w : Service) (drained : Option Drained) : Service :=
  (w.announce (told drained)).signal drained.join

def withLedger (w : Service) (l : Ledger) : Service :=
  { w with ledger := some l }

/-- Starts to open a connection for a waiter that got a slot, if one did. -/
def serveNext (w : Service) : Option Ticket → Service
  | some t => w.spawn (.serve t .reserved)
  | none => w

/-- A connection has ended, or an attempt that never became one. -/
def vacate (w : Service) (id : Option Nat) : Service :=
  match w.ledger with
  | none => w
  | some l =>
    let (vacated, l) := l.vacate w.limit w.spawns w.waits id
    ((w.withLedger l).serveNext vacated.waiter).finish vacated.drained

/-- Gives a connection up without a word to the server. -/
def discard (w : Service) (c : Connection) : Service :=
  w.vacate (some c.id)

/-- Closes a connection in the background, or has it given up where that is
not possible. -/
def closeDetached (w : Service) (c : Connection) : Service :=
  w.spawn (if w.spawns then .close none false c none else .giveUp c)

/-- Takes a connection back: a sound one goes to the oldest waiter or is
parked, unless it must not be kept. -/
def release (w : Service) (c : Connection) : Service :=
  if c.isBroken then w.discard c
  else
    match w.ledger with
    | none => w
    | some l =>
      let deadline := w.now + w.config.idleTimeout
      match l.accept w.config.keepAlive w.waits deadline c with
      | (.close, l) => (w.withLedger l).closeDetached c
      | (.handOver t, l) => (w.withLedger l).deliver t (.ok c)
      | (.parked, l) =>
        if w.spawns then (w.withLedger l).spawn (.expiry c.id deadline) else w.withLedger l

/-- Tells a waiter that the pool is closed. -/
def refuse (w : Service) (t : Ticket) : Service :=
  w.deliver t (.error .poolClosed)

/-- Begins to close the pool, unless that has happened before. -/
def closePool (w : Service) (onDrained : Option DrainCall) : Option Service :=
  match w.ledger with
  | none => none
  | some l =>
    match l.beginClose onDrained with
    | none => none
    | some (closing, l) =>
      let w := closing.waiters.foldl refuse (w.withLedger l)
      some ((closing.idle.foldl closeDetached w).finish closing.drained)

/-- Lets the pool go when nobody holds it any more. Idle connections go with
it, and connections that end later are not reported to anyone. -/
def reap (w : Service) : Service :=
  if w.handle || w.tasks.any fun task => task.work.holdsPool then w else { w with ledger := none }

end Service

end SmtpClient.Pool
