/-
The ledger of a pool: which connections live, who waits for one, and whether
the pool is closing. Each function here is one step that nothing else can come
between; none of them waits, sends or reads. Connections leave the ledger by
value, so that closing them happens elsewhere.
-/
import SmtpClient.Connection

namespace SmtpClient.Pool

/-- Names a task. -/
abbrev Ticket := Nat

/-- Whom a pool tells that it has drained. -/
inductive DrainCall where
  | callback
  /-- The task that waits for it. -/
  | signal (task : Ticket)
  deriving DecidableEq

/-- What a pool that has drained still has to do: tell this one, if anyone. -/
abbrev Drained := Option DrainCall

/-- The record of a live connection. -/
inductive Slot where
  /-- Parked until `deadline`. -/
  | idle (connection : Connection) (deadline : Nat)
  /-- With a caller, or on its way to one. -/
  | lent (closePending : Bool)
  deriving DecidableEq

namespace Slot

def isIdle : Slot → Bool
  | idle .. => true
  | lent _ => false

/-- The connection parked in a slot. -/
def parked? : Slot → Option Connection
  | idle c _ => some c
  | lent _ => none

end Slot

/-- What a pool knows. -/
structure Ledger where
  /-- Live connections and attempts under way. -/
  count : Nat := 0
  /-- By identifier, ascending. -/
  live : List (Nat × Slot) := []
  /-- The tasks that wait for a connection, the oldest first. -/
  waiters : List Ticket := []
  closing : Bool := false
  onDrained : Option DrainCall := none
  drained : Bool := false
  deriving DecidableEq

namespace Ledger

/-- Records a slot under its identifier. -/
def putSlot (id : Nat) (slot : Slot) : List (Nat × Slot) → List (Nat × Slot)
  | [] => [(id, slot)]
  | (other, s) :: rest =>
    if id < other then (id, slot) :: (other, s) :: rest
    else if id = other then (id, slot) :: rest
    else (other, s) :: putSlot id slot rest

def slot? (l : Ledger) (id : Nat) : Option Slot :=
  l.live.lookup id

def put (l : Ledger) (id : Nat) (slot : Slot) : Ledger :=
  { l with live := putSlot id slot l.live }

def idleCount (l : Ledger) : Nat :=
  l.live.countP fun (_, slot) => slot.isIdle

/-- Lends the idle connection with the lowest identifier. -/
def takeIdle (l : Ledger) : Option (Connection × Ledger) :=
  l.live.findSome? fun
    | (id, .idle c _) => some ({ c with status := .inUse }, l.put id (.lent false))
    | (_, .lent _) => none

/-- Parks a connection. -/
def park (l : Ledger) (c : Connection) (deadline : Nat) : Ledger :=
  l.put c.id (.idle { c with status := .idle } deadline)

/-- Takes a connection that is idle past its deadline. One that was used in
between has a later deadline and stays. -/
def takeExpired (l : Ledger) (id now : Nat) : Option (Connection × Ledger) :=
  match l.slot? id with
  | some (.idle c deadline) =>
    if deadline ≤ now then some (c, l.put id (.lent true)) else none
  | _ => none

def isClosePending (l : Ledger) (id : Nat) : Bool :=
  l.slot? id = some (.lent true)

/-- The oldest waiter that still waits; the ones before it have gone. -/
def nextWaiter (l : Ledger) (waits : Ticket → Bool) : Option Ticket × Ledger :=
  match l.waiters.dropWhile fun t => !waits t with
  | [] => (none, { l with waiters := [] })
  | t :: rest => (some t, { l with waiters := rest })

/-- Reports the drain, once: closing and nothing left. -/
def checkDrained (l : Ledger) : Option Drained × Ledger :=
  if l.closing && l.count = 0 && !l.drained then
    (some l.onDrained, { l with drained := true, onDrained := none })
  else (none, l)

/-! ## Acquiring -/

/-- What a caller gets that asks for a connection. -/
inductive Admission where
  | refused
  | reuse (connection : Connection)
  /-- A slot is counted for a new connection. -/
  | create
  | wait

/-- An idle connection, else a free slot, else a place in the queue. -/
def acquire (l : Ledger) (limit : Nat) (caller : Ticket) : Admission × Ledger :=
  if l.closing then (.refused, l)
  else
    match l.takeIdle with
    | some (c, l) => (.reuse c, l)
    | none =>
      if l.count < limit then (.create, { l with count := l.count + 1 })
      else (.wait, { l with waiters := l.waiters ++ [caller] })

/-- Counts a slot for the replacement of a connection that is about to be
given up, so that no waiter takes it. A closing pool counts none. -/
def reserveReplacement (l : Ledger) : Bool × Ledger :=
  if l.closing then (false, l) else (true, { l with count := l.count + 1 })

/-- Records a new connection into a slot that is counted already. -/
def enter (l : Ledger) (id : Nat) : Ledger :=
  l.put id (.lent l.closing)

/-! ## Releasing -/

/-- What becomes of a sound connection that is released. -/
inductive Released where
  | close
  | handOver (waiter : Ticket)
  | parked

/-- The oldest waiter gets a released connection; without one it is parked. -/
def accept (l : Ledger) (keepAlive : Bool) (waits : Ticket → Bool) (deadline : Nat) (c : Connection) :
    Released × Ledger :=
  if !keepAlive || l.closing || l.isClosePending c.id then (.close, l)
  else
    match l.nextWaiter waits with
    | (some t, l) => (.handOver t, l)
    | (none, l) => (.parked, l.park c deadline)

/-! ## Vacating -/

/-- Takes a connection off the ledger, or an attempt that became none. -/
def strike (l : Ledger) (id : Option Nat) : Ledger :=
  { l with
    count := l.count - 1
    live := match id with
      | some id => l.live.filter fun (other, _) => other ≠ id
      | none => l.live }

/-- Where there is room and attempts can be started, the oldest waiter gets a
slot, which is counted. -/
def reassign (l : Ledger) (limit : Nat) (serves : Bool) (waits : Ticket → Bool) :
    Option Ticket × Ledger :=
  if !l.closing && l.count < limit && serves then
    match l.nextWaiter waits with
    | (some t, l) => (some t, { l with count := l.count + 1 })
    | (none, l) => (none, l)
  else (none, l)

/-- What follows from the end of a connection or of an attempt. -/
structure Vacated where
  /-- Gets the free slot. -/
  waiter : Option Ticket
  drained : Option Drained

/-- Gives up the slot of a connection, or of an attempt that became none. -/
def vacate (l : Ledger) (limit : Nat) (serves : Bool) (waits : Ticket → Bool) (id : Option Nat) :
    Vacated × Ledger :=
  let (waiter, l) := (l.strike id).reassign limit serves waits
  let (drained, l) := l.checkDrained
  ({ waiter, drained }, l)

/-! ## Closing -/

/-- What closing a pool leaves to do. -/
structure Closing where
  waiters : List Ticket
  idle : List Connection
  drained : Option Drained

/-- Begins to close, unless that has happened before. -/
def beginClose (l : Ledger) (onDrained : Option DrainCall) : Option (Closing × Ledger) :=
  if l.closing then none
  else
    let (drained, closing) := { l with
      closing := true
      onDrained
      waiters := []
      live := l.live.map fun (id, (_ : Slot)) => (id, .lent true) }.checkDrained
    some ({
      waiters := l.waiters
      idle := l.live.filterMap fun (_, slot) => slot.parked?
      drained }, closing)

/-- A pool in one line. -/
def describe (l : Ledger) (host : String) : String :=
  Text.record "Pool" [
    ("host", Text.quote host),
    ("count", toString l.count),
    ("idle", toString l.idleCount),
    ("waiting", toString l.waiters.length),
    ("closing", toString l.closing)]

end Ledger

end SmtpClient.Pool
