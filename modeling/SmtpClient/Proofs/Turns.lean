/-
What holds across all that is done to the ledger holds across a step
(`Lifts.act`). One step of a pool has at most one turn at its ledger
(`step_turned`), so a property of the ledger is proved once for each turn
(`Turn`) and holds along every run (`steps_ledger`).
-/
import SmtpClient.Proofs.LedgerFacts
import SmtpClient.Pool.Step

namespace SmtpClient.Pool

/-- A turn at the ledger: what it becomes, and what the outside is told. The
clock and the callers who still wait are as they happen to be; a close may
want only these told of the drain. -/
inductive Turn (limit : Nat) (serves : Bool) (closes : Option DrainCall → Prop) (l : Ledger) :
    Ledger → List Outcall → Prop where
  | none : Turn limit serves closes l l []
  | acquire (caller : Ticket) : Turn limit serves closes l (l.acquire limit caller).2 []
  | reserve : Turn limit serves closes l l.reserveReplacement.2 []
  | enter (id : Nat) : Turn limit serves closes l (l.enter id) []
  | accept (keepAlive : Bool) (waits : Ticket → Bool) (deadline : Nat) (c : Connection) :
    Turn limit serves closes l (l.accept keepAlive waits deadline c).2 []
  | expire {id now : Nat} {c : Connection} {l' : Ledger} :
    l.takeExpired id now = some (c, l') → Turn limit serves closes l l' []
  | vacate (waits : Ticket → Bool) (id : Option Nat) :
    Turn limit serves closes l (l.vacate limit serves waits id).2
      (Service.told (l.vacate limit serves waits id).1.drained)
  | close {onDrained : Option DrainCall} {closing : Ledger.Closing} {l' : Ledger} :
    closes onDrained → l.beginClose onDrained = some (closing, l') →
      Turn limit serves closes l l' (Service.told closing.drained)

namespace Service

/-! ## What leaves the ledger alone -/

/-- Nothing that the pool keeps for itself differs. -/
structure Quiet (w w' : Service) : Prop where
  config : w'.config = w.config
  spawns : w'.spawns = w.spawns
  ledger : w'.ledger = w.ledger
  outcalls : w'.outcalls = w.outcalls
  handle : w'.handle = true → w.handle = true

variable {w w' w'' : Service} {closes : Option DrainCall → Prop}

theorem Quiet.refl (w : Service) : Quiet w w := ⟨rfl, rfl, rfl, rfl, id⟩

theorem Quiet.trans (h : Quiet w w') (h' : Quiet w' w'') : Quiet w w'' :=
  ⟨h'.config.trans h.config, h'.spawns.trans h.spawns, h'.ledger.trans h.ledger,
    h'.outcalls.trans h.outcalls, fun hh => h.handle (h'.handle hh)⟩

theorem Quiet.limit (h : Quiet w w') : w'.limit = w.limit := by
  simp only [Service.limit, h.config]

theorem quiet_spawn (w : Service) (work : Work) : Quiet w (w.spawn work) := ⟨rfl, rfl, rfl, rfl, id⟩

theorem quiet_await (w : Service) (t : Ticket) (work : Work) (wait : Wait) :
    Quiet w (w.await t work wait) := ⟨rfl, rfl, rfl, rfl, id⟩

theorem quiet_become (w : Service) (t : Ticket) (work : Work) : Quiet w (w.become t work) :=
  quiet_await w t work .none

theorem quiet_endTask (w : Service) (t : Ticket) : Quiet w (w.endTask t) := ⟨rfl, rfl, rfl, rfl, id⟩

theorem quiet_tell (w : Service) (owner : String) (e : Event) : Quiet w (w.tell owner e) :=
  ⟨rfl, rfl, rfl, rfl, id⟩

theorem quiet_hold (w : Service) (owner : String) (c : Connection) : Quiet w (w.hold owner c) :=
  ⟨rfl, rfl, rfl, rfl, id⟩

theorem quiet_unhold (w : Service) (owner : String) : Quiet w (w.unhold owner) :=
  ⟨rfl, rfl, rfl, rfl, id⟩

theorem quiet_connect (w : Service) : Quiet w w.connect.2 := ⟨rfl, rfl, rfl, rfl, id⟩

theorem quiet_record (w : Service) (o : Outbound) : Quiet w (w.record o) := by
  unfold record; split <;> exact ⟨rfl, rfl, rfl, rfl, id⟩

theorem quiet_wake (w : Service) (t : Ticket) : Quiet w (w.wake t) := by
  unfold wake; split <;> exact ⟨rfl, rfl, rfl, rfl, id⟩

theorem quiet_deliver (w : Service) (t : Ticket) (result : Except Error Connection) :
    Quiet w (w.deliver t result) := by
  unfold deliver
  split
  · exact (quiet_become w t _).trans (quiet_wake _ t)
  · exact .refl w

theorem quiet_closeDetached (w : Service) (c : Connection) : Quiet w (w.closeDetached c) :=
  quiet_spawn w _

theorem quiet_serveNext (w : Service) (waiter : Option Ticket) : Quiet w (w.serveNext waiter) := by
  cases waiter with
  | none => exact .refl w
  | some t => exact quiet_spawn w _

theorem quiet_conclude (w : Service) (t : Ticket) (owner : String) (result : Except Error Connection) :
    Quiet w (w.conclude t owner result) := by
  cases result with
  | ok c => exact ((quiet_endTask w t).trans (quiet_hold _ owner c)).trans (quiet_tell _ owner _)
  | error e => exact (quiet_endTask w t).trans (quiet_tell _ owner _)

theorem quiet_foldl {α} (f : Service → α → Service) (hf : ∀ w a, Quiet w (f w a)) (l : List α)
    (w : Service) : Quiet w (l.foldl f w) := by
  induction l generalizing w with
  | nil => exact .refl w
  | cons a l ih => exact (hf w a).trans (ih _)

theorem quiet_settleExchange (w : Service) (t : Ticket) (owner : String) (c : Connection)
    (purpose : Purpose) (result : Except Error Reply) :
    Quiet w (w.settleExchange t owner c purpose result) := by
  have hgive : ∀ c e, Quiet w (((w.endTask t).hold owner c).tell owner e) := fun c e =>
    ((quiet_endTask w t).trans (quiet_hold _ owner c)).trans (quiet_tell _ owner e)
  unfold settleExchange
  cases purpose with
  | command command => cases result <;> exact hgive _ _
  | probe =>
    cases result with
    | error e => exact hgive _ _
    | ok reply =>
      simp only [Connection.judge]
      split <;> exact hgive _ _

theorem quiet_signal (w : Service) (drained : Drained) : Quiet w (w.signal drained) := by
  unfold signal
  split
  · split
    · exact (quiet_become w _ _).trans (quiet_wake _ _)
    · exact .refl w
  · exact .refl w

theorem quiet_runExchange (w : Service) (t : Ticket) (owner : String) (purpose : Purpose)
    (c : Connection) (reader : Option ReplyReader) :
    Quiet w (w.runExchange t owner purpose c reader) := by
  cases reader with
  | none =>
    simp only [runExchange]
    split
    · exact (quiet_record w _).trans (quiet_become _ t _)
    · exact (quiet_record w _).trans (quiet_settleExchange _ t owner _ purpose _)
  | some reader =>
    simp only [runExchange]
    split
    · exact quiet_await w t _ _
    · exact quiet_settleExchange w t owner _ purpose _

theorem quiet_abandon (w : Service) (owner : String) : Quiet w (w.abandon owner) := by
  unfold abandon
  split
  · exact (quiet_endTask w _).trans (quiet_hold _ owner _)
  · exact .refl w

/-! ## What a step can do -/

theorem reap_eq (w : Service) :
    w.reap = w ∨ (w.reap = { w with ledger := none } ∧ w.handle = false ∧
      ∀ task ∈ w.tasks, task.work.holdsPool = false) := by
  unfold reap
  split
  · exact .inl rfl
  · next h =>
    right
    simp only [Bool.or_eq_true, List.any_eq_true, not_or, Bool.not_eq_true, not_exists, not_and] at h
    exact ⟨rfl, h.1, h.2⟩

theorem withHeld_ok {owner : String} {f : Connection → Except Refusal Service}
    (h : w.withHeld owner f = .ok w') : ∃ c, w.held? owner = some c ∧ f c = .ok w' := by
  unfold withHeld at h
  split at h
  · next c hc => exact ⟨c, hc, h⟩
  · cases h

theorem withPool_ok {f : Service → Service} (h : w.withPool f = .ok w') : w.handle = true ∧ w' = f w := by
  unfold withPool at h
  split at h
  · next hh => cases h; exact ⟨hh, rfl⟩
  · cases h

theorem closePool_ok {callback : Bool} (h : w.ask (.closePool callback) = .ok w') :
    w.handle = true ∧ w.closePool (if callback then some .callback else none) = some w' := by
  simp only [ask] at h
  split at h
  · next hh =>
    split at h
    · next hc => cases h; exact ⟨hh, hc⟩
    · cases h
  · cases h

/-- A step up to where a pool that nobody holds is let go. -/
def act (w : Service) : Step → Service
  | .request (.cancel owner) =>
    match (w.underWay? owner).bind w.dropTask with
    | some w => w.tell owner .cancelled
    | none => w
  | .request .dropPool => { w with handle := false }
  | .request r => (w.ask r).toOption.getD w
  | .run t =>
    match w.work? t with
    | none => w
    | some work => w.runWork t work
  | .tick ms => { w with now := w.now + ms }

theorem step_act (w : Service) (s : Step) : w.step s = w.act s ∨ w.step s = (w.act s).reap := by
  cases s with
  | request r =>
    cases r with
    | cancel owner =>
      simp only [step, ask, cancel, act]
      cases (w.underWay? owner).bind w.dropTask with
      | some w' => exact .inr rfl
      | none => exact .inl rfl
    | dropPool => exact .inr rfl
    | _ => exact .inl rfl
  | run t =>
    simp only [step, run, act]
    cases w.work? t with
    | none => exact .inl rfl
    | some work => exact .inr rfl
  | tick ms => exact .inl rfl

/-- A call of close, with whom it wants told of the drain. -/
inductive Closes (w : Service) : Step → Option DrainCall → Prop where
  | request {callback : Bool} : w.handle = true →
    Closes w (.request (.closePool callback)) (if callback then some .callback else none)
  | shutdown {t : Ticket} {owner : String} : w.work? t = some (.shutdown owner .start) →
    Closes w (.run t) (some (.signal t))

/-- A caller reserves the replacement of a connection that failed its probe. -/
def Reserves (w : Service) (s : Step) : Prop :=
  ∃ t owner c, s = .run t ∧ w.work? t = some (.acquire owner (.unsound c))

/-- Whatever holds from before to after all that is done to a ledger; a close
and a reservation count where they are possible. -/
structure Lifts (closes : Option DrainCall → Prop) (reserves : Prop) (R : Service → Service → Prop) : Prop where
  quiet {w w' : Service} : Quiet w w' → R w w'
  after {w w' w'' : Service} : Quiet w w' → R w' w'' → R w w''
  before {w w' w'' : Service} : R w w' → Quiet w' w'' → R w w''
  vacate (w : Service) (id : Option Nat) : R w (w.vacate id)
  acquire {w : Service} {l : Ledger} (t : Ticket) : w.ledger = some l →
    R w (w.withLedger (l.acquire w.limit t).2)
  reserve {w : Service} {l : Ledger} : reserves → w.ledger = some l → R w (w.withLedger l.reserveReplacement.2)
  accept {w : Service} {l : Ledger} (c : Connection) : w.ledger = some l →
    R w (w.withLedger (l.accept w.config.keepAlive w.waits (w.now + w.config.idleTimeout) c).2)
  enter (w : Service) (id : Nat) : R w { w with ledger := w.ledger.map fun l => l.enter id }
  expire {w : Service} {l l' : Ledger} {id : Nat} {c : Connection} : w.ledger = some l →
    l.takeExpired id w.now = some (c, l') → R w (w.withLedger l')
  close {w w' : Service} {onDrained : Option DrainCall} : closes onDrained →
    w.closePool onDrained = some w' → R w w'

namespace Lifts

variable {reserves : Prop} {R : Service → Service → Prop}

theorem discard (h : Lifts closes reserves R) (w : Service) (c : Connection) : R w (w.discard c) :=
  h.vacate w (some c.id)

theorem release (h : Lifts closes reserves R) (w : Service) (c : Connection) : R w (w.release c) := by
  unfold Service.release
  split
  · exact h.discard w c
  split
  · exact h.quiet (.refl w)
  next l hl =>
  have hr := h.accept c hl
  simp only
  split
  · next ha =>
    rw [ha] at hr
    exact h.before hr (quiet_closeDetached _ c)
  · next t _ ha =>
    rw [ha] at hr
    exact h.before hr (quiet_deliver _ t _)
  · next ha =>
    rw [ha] at hr
    split
    · exact h.before hr (quiet_spawn _ _)
    · exact hr

/-! ### Tasks -/

theorem runOpening (h : Lifts closes reserves R) (w : Service) (step : Opening) : R w (w.runOpening step).2 := by
  cases step with
  | reserved => exact h.quiet (quiet_connect w)
  | attempting attempt =>
    simp only [Service.runOpening]
    split
    · exact h.quiet (quiet_record w _)
    · next session t _ =>
      have hq := quiet_record w t.stream.outbound
      exact h.quiet ⟨hq.config, hq.spawns, hq.ledger, hq.outcalls, hq.handle⟩
    · exact h.quiet (quiet_record w _)
  | failed e => exact h.vacate w none
  | named c => exact h.enter w c.id

theorem runAcquire (h : Lifts closes reserves R) (w : Service) (t : Ticket) (owner : String) (step : Acquire)
    (hreserves : ∀ c, step = .unsound c → reserves) : R w (w.runAcquire t owner step) := by
  cases step with
  | start =>
    simp only [Service.runAcquire]
    split
    · exact h.quiet (quiet_endTask w t)
    next l hl =>
    have hr := h.acquire t hl
    split
    · next ha =>
      rw [ha] at hr
      exact h.before hr (quiet_conclude _ t owner _)
    · next ha =>
      rw [ha] at hr
      split <;> exact h.before hr ((quiet_record _ _).trans (quiet_become _ t _))
    · next ha =>
      rw [ha] at hr
      exact h.before hr (quiet_become _ t _)
    · next ha =>
      rw [ha] at hr
      exact h.before hr (quiet_await _ t _ _)
  | verifying c reader =>
    simp only [Service.runAcquire]
    split
    · exact h.quiet (quiet_await w t _ _)
    · split
      · exact h.quiet (quiet_conclude w t owner _)
      · exact h.quiet (quiet_become w t _)
  | unsound c =>
    simp only [Service.runAcquire]
    split
    · exact h.quiet (quiet_endTask w t)
    · next hl => exact h.before (h.reserve (hreserves c rfl) hl) (quiet_become _ t _)
  | discarding c replaced =>
    cases replaced with
    | true => exact h.before (h.discard w c) (quiet_become _ t _)
    | false => exact h.before (h.discard w c) (quiet_conclude _ t owner (.error .poolClosed))
  | opening step =>
    have hr := h.runOpening w step
    simp only [Service.runAcquire]
    split
    · next ho =>
      rw [ho] at hr
      exact h.before hr (quiet_await _ t _ _)
    · next ho =>
      rw [ho] at hr
      exact h.before hr (quiet_conclude _ t owner _)
  | queued => exact h.quiet (.refl w)
  | handed result => exact h.quiet (quiet_conclude w t owner result)

theorem concludeClose (h : Lifts closes reserves R) (w : Service) (t : Ticket) (owner : Option String)
    (c : Connection) : R w (w.concludeClose t owner c) := by
  have hr : R w ((w.endTask t).discard c) := h.after (quiet_endTask w t) (h.discard _ c)
  cases owner with
  | none => exact hr
  | some owner => exact h.before hr (quiet_tell _ owner _)

theorem runClose (h : Lifts closes reserves R) (w : Service) (t : Ticket) (owner : Option String)
    (holdsPool : Bool) (c : Connection) (quit : Option (ReplyReader × Nat)) :
    R w (w.runClose t owner holdsPool c quit) := by
  cases quit with
  | none =>
    simp only [Service.runClose]
    split
    · exact h.concludeClose w t owner c
    split
    · exact h.quiet ((quiet_record w _).trans (quiet_become _ t _))
    · exact h.after (quiet_record w _) (h.concludeClose _ t owner _)
  | some q =>
    simp only [Service.runClose]
    split
    · exact h.concludeClose w t owner _
    split
    · exact h.concludeClose w t owner _
    · exact h.quiet (quiet_await w t _ _)

theorem runExpiry (h : Lifts closes reserves R) (w : Service) (t : Ticket) (id deadline : Nat) :
    R w (w.runExpiry t id deadline) := by
  unfold Service.runExpiry
  split
  · exact h.quiet (quiet_await w t _ _)
  split
  · exact h.quiet (quiet_endTask w t)
  next l hl =>
  split
  · exact h.quiet (quiet_endTask w t)
  · next he => exact h.before (h.expire hl he) (quiet_become _ t _)

theorem runServe (h : Lifts closes reserves R) (w : Service) (t waiter : Ticket) (step : Opening) :
    R w (w.runServe t waiter step) := by
  have hr := h.runOpening w step
  unfold Service.runServe
  split
  · next ho =>
    rw [ho] at hr
    exact h.before hr (quiet_await _ t _ _)
  next ho =>
  rw [ho] at hr
  split
  · exact h.before hr ((quiet_deliver _ waiter _).trans (quiet_endTask _ t))
  split
  · exact h.before hr (quiet_become _ t _)
  · exact h.before hr (quiet_endTask _ t)

theorem runShutdown (h : Lifts closes reserves R) (w : Service) (t : Ticket) (owner : String) (step : Shutdown)
    (hcloses : step = .start → closes (some (.signal t))) : R w (w.runShutdown t owner step) := by
  cases step with
  | start =>
    simp only [Service.runShutdown]
    split
    · next hc => exact h.after (quiet_await w t _ _) (h.close (hcloses rfl) hc)
    · exact h.quiet ((quiet_endTask w t).trans (quiet_tell _ owner _))
  | draining => exact h.quiet (.refl w)
  | drained => exact h.quiet ((quiet_endTask w t).trans (quiet_tell _ owner _))

theorem runWork {t : Ticket} {work : Work} (h : Lifts (w.Closes (.run t)) (w.Reserves (.run t)) R)
    (ht : w.work? t = some work) : R w (w.runWork t work) := by
  cases work with
  | acquire owner step => exact h.runAcquire w t owner step fun c he => ⟨t, owner, c, rfl, he ▸ ht⟩
  | exchange owner purpose c reader => exact h.quiet (quiet_runExchange w t owner purpose c reader)
  | close owner holdsPool c quit => exact h.runClose w t owner holdsPool c quit
  | expiry id deadline => exact h.runExpiry w t id deadline
  | serve waiter step => exact h.runServe w t waiter step
  | giveBack c => exact h.before (h.release w c) (quiet_endTask _ t)
  | giveUp c => exact h.after (quiet_endTask w t) (h.discard _ c)
  | shutdown owner step => exact h.runShutdown w t owner step fun he => .shutdown (he ▸ ht)

/-! ### Callers -/

theorem dropTask (h : Lifts closes reserves R) {task : Task} (hd : w.dropTask task = some w') : R w w' := by
  have hq := quiet_endTask w task.ticket
  unfold Service.dropTask at hd
  simp only at hd
  split at hd <;> simp only [Option.some.injEq, reduceCtorEq] at hd <;> subst hd
  · exact h.quiet hq
  · exact h.quiet hq
  · exact h.quiet hq
  · exact h.after hq (h.discard _ _)
  · exact h.after hq (h.discard _ _)
  · exact h.after hq (h.vacate _ none)
  · exact h.after hq (h.discard _ _)
  · exact h.after hq (h.discard _ _)
  · exact h.quiet hq

theorem ask {r : Request} (h : Lifts (w.Closes (.request r)) reserves R) (ha : w.ask r = .ok w')
    (hc : ∀ owner, r ≠ .cancel owner) (hd : r ≠ .dropPool) : R w w' := by
  cases r with
  | acquire owner | shutdown owner =>
    simp only [Service.ask] at ha
    rw [(withPool_ok ha).2]
    exact h.quiet (quiet_spawn w _)
  | exchange owner _ | closeConnection owner =>
    obtain ⟨c, -, ha⟩ := withHeld_ok ha
    cases ha
    exact h.quiet ((quiet_unhold w owner).trans (quiet_spawn _ _))
  | release owner =>
    obtain ⟨c, -, ha⟩ := withHeld_ok ha
    rw [(withPool_ok ha).2]
    exact h.after (quiet_unhold w owner) (h.release _ c)
  | drop owner =>
    obtain ⟨c, -, ha⟩ := withHeld_ok ha
    cases ha
    exact h.after (quiet_unhold w owner) (h.discard _ c)
  | setBroken owner =>
    obtain ⟨c, -, ha⟩ := withHeld_ok ha
    cases ha
    exact h.quiet ((quiet_unhold w owner).trans (quiet_hold _ owner _))
  | cancel owner => exact absurd rfl (hc owner)
  | abandon owner => cases ha; exact h.quiet (quiet_abandon w owner)
  | closePool callback =>
    obtain ⟨hh, ha⟩ := closePool_ok ha
    exact h.close (.request hh) ha
  | dropPool => exact absurd rfl hd

/-- **Step by step.** What holds across all that is done to a ledger holds
across a step, up to where a pool that nobody holds is let go. -/
theorem act {s : Step} (h : Lifts (w.Closes s) (w.Reserves s) R) : R w (w.act s) := by
  cases s with
  | request r =>
    have hask : (∀ owner, r ≠ .cancel owner) → r ≠ .dropPool → R w ((w.ask r).toOption.getD w) := by
      intro hc hd
      cases ha : w.ask r with
      | error e => exact h.quiet (.refl w)
      | ok w' => exact h.ask ha hc hd
    cases r with
    | cancel owner =>
      simp only [Service.act]
      split
      · next hd =>
        obtain ⟨task, -, hd⟩ := Option.bind_eq_some_iff.1 hd
        exact h.before (h.dropTask hd) (quiet_tell _ owner .cancelled)
      · exact h.quiet (.refl w)
    | dropPool => exact h.quiet ⟨rfl, rfl, rfl, rfl, fun hh => by cases hh⟩
    | _ => exact hask (fun _ => by simp) (by simp)
  | run t =>
    simp only [Service.act]
    split
    · exact h.quiet (.refl w)
    · next ht => exact h.runWork ht
  | tick ms => exact h.quiet ⟨rfl, rfl, rfl, rfl, id⟩

end Lifts

/-! ## One turn at most -/

/-- From `w` to `w'` the pool, if it exists, has one turn at its ledger. -/
structure Turned (closes : Option DrainCall → Prop) (w w' : Service) : Prop where
  config : w'.config = w.config
  spawns : w'.spawns = w.spawns
  handle : w'.handle = true → w.handle = true
  turn : (w.ledger = none ∧ w'.ledger = none ∧ w'.outcalls = w.outcalls) ∨
    ∃ l l' calls, w.ledger = some l ∧ w'.ledger = some l' ∧ Turn w.limit w.spawns closes l l' calls ∧
      w'.outcalls = w.outcalls ++ calls

theorem Quiet.turned (h : Quiet w w') : Turned closes w w' := by
  refine ⟨h.config, h.spawns, h.handle, ?_⟩
  cases hl : w.ledger with
  | none => exact .inl ⟨rfl, h.ledger.trans hl, h.outcalls⟩
  | some l => exact .inr ⟨l, l, [], rfl, h.ledger.trans hl, .none, by simp [h.outcalls]⟩

theorem Turned.after (h : Quiet w w') (h' : Turned closes w' w'') : Turned closes w w'' := by
  refine ⟨h'.config.trans h.config, h'.spawns.trans h.spawns, fun hh => h.handle (h'.handle hh), ?_⟩
  have ht := h'.turn
  rwa [h.ledger, h.outcalls, h.limit, h.spawns] at ht

theorem Turned.before (h : Turned closes w w') (h' : Quiet w' w'') : Turned closes w w'' := by
  refine ⟨h'.config.trans h.config, h'.spawns.trans h.spawns, fun hh => h.handle (h'.handle hh), ?_⟩
  rw [h'.ledger, h'.outcalls]
  exact h.turn

theorem turned_withLedger {l l' : Ledger} (hl : w.ledger = some l)
    (ht : Turn w.limit w.spawns closes l l' []) : Turned closes w (w.withLedger l') :=
  ⟨rfl, rfl, id, .inr ⟨l, l', [], hl, rfl, ht, (List.append_nil _).symm⟩⟩

/-- The turn with whose drain the outside is told. -/
theorem turned_finish {l l' : Ledger} {drained : Option Drained} (hl : w.ledger = some l)
    (ht : Turn w.limit w.spawns closes l l' (told drained)) (hq : Quiet (w.withLedger l') w') :
    Turned closes w (w'.finish drained) := by
  have hs := quiet_signal (w'.announce (told drained)) drained.join
  refine ⟨hs.config.trans hq.config, hs.spawns.trans hq.spawns, fun hh => hq.handle (hs.handle hh),
    .inr ⟨l, l', told drained, hl, hs.ledger.trans hq.ledger, ht, hs.outcalls.trans ?_⟩⟩
  show w'.outcalls ++ _ = _
  rw [hq.outcalls]
  rfl

theorem turned_vacate (w : Service) (id : Option Nat) : Turned closes w (w.vacate id) := by
  unfold vacate
  split
  · exact (Quiet.refl w).turned
  · next l hl => exact turned_finish hl (.vacate w.waits id) (quiet_serveNext _ _)

theorem turned_closePool {onDrained : Option DrainCall} (hc : closes onDrained)
    (h : w.closePool onDrained = some w') : Turned closes w w' := by
  unfold closePool at h
  split at h
  · cases h
  next l hl =>
  split at h
  · cases h
  next closing l' hb =>
  simp only [Option.some.injEq] at h
  subst h
  refine turned_finish hl (.close hc hb) ?_
  exact (quiet_foldl refuse (fun w t => quiet_deliver w t _) _ _).trans
    (quiet_foldl closeDetached quiet_closeDetached _ _)

theorem closePool_ledger {onDrained : Option DrainCall} (h : w.closePool onDrained = some w') :
    ∃ l closing l', w.ledger = some l ∧ l.beginClose onDrained = some (closing, l') ∧ w'.ledger = some l' := by
  unfold closePool at h
  split at h
  · cases h
  next l hl =>
  split at h
  · cases h
  next closing l' hb =>
  cases h
  have hq := (quiet_foldl refuse (fun w t => quiet_deliver w t _) closing.waiters (w.withLedger l')).trans
    (quiet_foldl closeDetached quiet_closeDetached closing.idle _)
  exact ⟨l, closing, l', hl, hb, (quiet_signal _ _).ledger.trans hq.ledger⟩

theorem turned_enter (w : Service) (id : Nat) :
    Turned closes w { w with ledger := w.ledger.map fun l => l.enter id } := by
  cases hl : w.ledger with
  | none => exact ⟨rfl, rfl, fun hh => hh, .inl ⟨hl, rfl, rfl⟩⟩
  | some l =>
    exact ⟨rfl, rfl, fun hh => hh, .inr ⟨l, l.enter id, [], hl, rfl, .enter id, (List.append_nil _).symm⟩⟩

variable {t : Ticket} {s : Step} {l' : Ledger}

/-- **One turn a step.** Whatever happens next, the pool has one turn at its
ledger at most, and only a call of close closes it. -/
theorem step_turned (w : Service) (s : Step) : Turned (w.Closes s) w (w.act s) := by
  have hlifts : Lifts (w.Closes s) (w.Reserves s) (Turned (w.Closes s)) := {
    quiet := Quiet.turned
    after := Turned.after
    before := Turned.before
    vacate := turned_vacate
    acquire := fun t hl => turned_withLedger hl (.acquire t)
    reserve := fun _ hl => turned_withLedger hl .reserve
    accept := fun c hl => turned_withLedger hl (.accept _ _ _ c)
    enter := turned_enter
    expire := fun hl he => turned_withLedger hl (.expire he)
    close := turned_closePool }
  exact hlifts.act

/-- What acts leaves the ledger there; it goes with the pool after that. -/
theorem act_ledger (hl : w.ledger = some l) (s : Step) : ∃ l', (w.act s).ledger = some l' := by
  rcases (step_turned w s).turn with ⟨hnone, -⟩ | ⟨_, l', _, -, hl', -⟩
  · cases hl.symm.trans hnone
  · exact ⟨l', hl'⟩

theorem step_ledger (h : (w.step s).ledger = some l') :
    ∃ l calls, w.ledger = some l ∧ Turn w.limit w.spawns (w.Closes s) l l' calls ∧
      (w.step s).outcalls = w.outcalls ++ calls := by
  have hkept : w.step s = w.act s := by
    rcases step_act w s with hw | hw
    · exact hw
    · rcases reap_eq (w.act s) with he | ⟨he, -⟩
      · exact hw.trans he
      · rw [hw, he] at h; cases h
  rw [hkept] at h ⊢
  rcases (step_turned w s).turn with ⟨-, hnone, -⟩ | ⟨l, l₁, calls, hl, hl₁, hturn, hcalls⟩
  · exact absurd (h.symm.trans hnone) (by simp)
  · cases hl₁.symm.trans h
    exact ⟨l, calls, hl, hturn, hcalls⟩

theorem step_config (w : Service) (s : Step) :
    (w.step s).config = w.config ∧ (w.step s).spawns = w.spawns := by
  have ht := step_turned w s
  rcases step_act w s with hw | hw
  · exact hw ▸ ⟨ht.config, ht.spawns⟩
  · rcases reap_eq (w.act s) with he | ⟨he, -⟩ <;> rw [hw, he] <;> exact ⟨ht.config, ht.spawns⟩

theorem step_limit (w : Service) (s : Step) : (w.step s).limit = w.limit := by
  simp only [Service.limit, (step_config w s).1]

theorem steps_config (w : Service) (run : List Step) :
    (w.steps run).config = w.config ∧ (w.steps run).spawns = w.spawns := by
  induction run generalizing w with
  | nil => exact ⟨rfl, rfl⟩
  | cons s run ih =>
    have hs := step_config w s
    exact ⟨(ih _).1.trans hs.1, (ih _).2.trans hs.2⟩

/-- **Turn by turn.** What each turn does to the ledger, a run does to it. -/
theorem steps_ledger {R : Ledger → Ledger → Prop} (hrefl : ∀ l, R l l)
    (htrans : ∀ {l₁ l₂ l₃}, R l₁ l₂ → R l₂ l₃ → R l₁ l₃)
    (hturn : ∀ {closes l l' calls}, Turn w.limit w.spawns closes l l' calls → R l l') (run : List Step)
    (h : (w.steps run).ledger = some l') : ∃ l, w.ledger = some l ∧ R l l' := by
  induction run generalizing w with
  | nil => exact ⟨l', h, hrefl l'⟩
  | cons s run ih =>
    obtain ⟨l₁, hl₁, hR⟩ := ih (w := w.step s)
      (by rw [step_limit, (step_config w s).2]; exact hturn) h
    obtain ⟨l, calls, hl, ht, -⟩ := step_ledger hl₁
    exact ⟨l, hl, htrans (hturn ht) hR⟩

end Service

end SmtpClient.Pool
