/-
The order in which tasks run. Woken tasks run first come, first served, each
until it waits or ends; time passes from one due task to the next. Without
background tasks the callers run their own, in the order of their start, as
long as one of them ends.
-/
import SmtpClient.Pool.Step

namespace SmtpClient.Pool.Service

/-- No task makes more steps than this before it waits or ends. The longest
way is an acquire that finds an unsound connection and opens another. -/
def longestRun : Nat := 8

/-- Gives up what calls have left to give up. -/
def giveUpAll (w : Service) : Service :=
  (w.tasks.filter fun task => task.work.isGiveUp).foldl (fun w task => w.run task.ticket) w

/-- Carries out a request up to its return. -/
def perform (w : Service) (r : Request) : Except Refusal Service :=
  (w.ask r).map giveUpAll

/-- Runs a task until it waits or ends, for at most `n` steps. -/
def runFor : Nat → Ticket → Service → Service
  | 0, _, w => w
  | n + 1, t, w =>
    let w := (w.run t).giveUpAll
    match (w.task? t).map Task.wait with
    | some .none => runFor n t w
    | _ => w

/-- Runs a task until it waits or ends. -/
def poll (w : Service) (t : Ticket) : Service :=
  runFor longestRun t w

/-- How many tasks can still run before all of them wait: each waiter can
cause a task that serves it, and each connection one that closes it. -/
def budget (w : Service) : Nat :=
  let queue := match w.ledger with
    | some l => l.waiters.length + l.live.length
    | none => 0
  4 * (w.tasks.length + queue + 1)

/-- Runs woken tasks, for at most `n` turns. -/
def runReady : Nat → Service → Service
  | 0, w => w
  | n + 1, w =>
    match w.ready with
    | [] => w
    | t :: rest => runReady n ({ w with ready := rest }.poll t)

/-- Runs every task once. -/
def runAll (w : Service) : Service :=
  (w.tasks.map Task.ticket).foldl poll w

/-- Runs every task again as long as one of them ends, for at most `n` rounds. -/
def runRounds : Nat → Service → Service
  | 0, w => w
  | n + 1, w =>
    let after := w.runAll
    if after.tasks.length < w.tasks.length then runRounds n after else after

/-- Runs what can run without time passing. -/
def settle (w : Service) : Service :=
  if w.spawns then runReady w.budget w
  else { runRounds (w.tasks.length + 1) w with ready := [] }

/-- The time that a task waits for. -/
def dueAt? (task : Task) : Option Nat :=
  match task.wait with
  | .time t => some t
  | _ => none

/-- The next time after `after` and up to `upTo` that a task waits for. -/
def nextDue (w : Service) (after upTo : Nat) : Option Nat :=
  ((w.tasks.filterMap dueAt?).filter fun t => after < t && t ≤ upTo).min?

theorem nextDue_bounds {w : Service} {after upTo t : Nat} (h : w.nextDue after upTo = some t) :
    after < t ∧ t ≤ upTo := by
  have hmem := List.min?_mem h
  simp only [List.mem_filter, Bool.and_eq_true, decide_eq_true_eq] at hmem
  exact hmem.2

/-- Wakes the tasks whose time has come. -/
def wakeDue (w : Service) : Service :=
  (w.tasks.filter fun task => (dueAt? task).any (· ≤ w.now)).foldl (fun w task => w.wake task.ticket) w

/-- Lets time pass up to `target`, from one due task to the next. -/
def passUntil (after target : Nat) (w : Service) : Service :=
  match h : w.nextDue after target with
  | none => { w with now := target }
  | some t =>
    have : after < t ∧ t ≤ target := nextDue_bounds h
    passUntil t target ({ w with now := t }.wakeDue.settle)
termination_by target - after

/-- Lets `ms` milliseconds pass. -/
def advance (w : Service) (ms : Nat) : Service :=
  passUntil w.now (w.now + ms) w

/-! ## Reports -/

/-- What each stream was sent since an earlier moment. -/
def sentSince (w earlier : Service) : List (Nat × String) :=
  (w.written.map fun (number, o) =>
    (number, o.sentSince ((earlier.written.lookup number).getD {}))).filter fun (_, text) => text ≠ ""

/-- What callers learnt since an earlier moment. -/
def eventsSince (w earlier : Service) : List (String × Event) :=
  w.events.drop earlier.events.length

end SmtpClient.Pool.Service
