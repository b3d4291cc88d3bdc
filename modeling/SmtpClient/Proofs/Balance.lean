/-
Every step of a pool keeps its accounts, and so does every run. From this
follow what each connection and each attempt under way is worth: one entry or
one counted slot, in one place, and no identifier twice.
-/
import SmtpClient.Proofs.Accounts
import SmtpClient.Proofs.Turns

namespace SmtpClient

namespace Connection

@[simp] theorem setBroken_id (c : Connection) : c.setBroken.id = c.id := by
  unfold setBroken
  split <;> rfl

@[simp] theorem begin_id (c : Connection) (command : Command) : (c.begin command).2.id = c.id := by
  unfold begin
  split
  · rfl
  split
  · rfl
  · exact setBroken_id _

@[simp] theorem poll_id (c : Connection) (now : Nat) (reader : ReplyReader) :
    (c.poll now reader).2.id = c.id := by
  unfold poll
  split
  · rfl
  · exact setBroken_id _
  · dsimp only
    split
    · exact setBroken_id _
    · rfl

@[simp] theorem judge_id (c : Connection) (result : Except Error Reply) : (c.judge result).2.id = c.id := by
  unfold judge
  split
  · rfl
  split
  · rfl
  · exact setBroken_id c

end Connection

namespace Pool

open Service

/-! ## Steps -/

def Service.Opened.items : Service.Opened → Multiset Item
  | .goesOn step _ => step.items
  | .ends result => resultItems result

namespace Accounts

variable {r : List Nat} {w w' : Service} {t : Ticket} {m : Multiset Item} {c : Connection}

theorem runOpening {step : Opening} {me : Option Ticket} (h : Accounts r w me (m + step.items)) :
    Accounts r (w.runOpening step).2 me (m + (w.runOpening step).1.items) := by
  cases step with
  | reserved => exact h.congr rfl rfl rfl rfl rfl
  | attempting attempt =>
    simp only [Service.runOpening]
    split
    · exact h.record _
    · next session t _ =>
      have hid : (w.record t.stream.outbound).nextId = w.nextId := by
        unfold Service.record
        split <;> rfl
      have hn := (h.record t.stream.outbound).name
      rw [hid, add_assoc] at hn
      exact hn
    · exact h.record _
  | failed e =>
    have hv : Accounts r (w.vacate none) me m := vacate h
    exact hv.cast (add_zero m).symm
  | named c => exact h.enter

theorem conclude {owner : String} {result : Except Error Connection}
    (h : Accounts r w (some t) (resultItems result)) : Accounts r (w.conclude t owner result) none 0 := by
  cases result with
  | ok c => exact (hold (h.endTask.cast (zero_add _).symm)).tell owner _
  | error e => exact h.endTask.tell owner _

/-- The task goes on with what it has in hand. -/
theorem goOn {work : Work} {wait : Wait} (h : Accounts r w (some t) m) (he : m = work.items)
    (hq : work.queued = false) : Accounts r (w.await t work wait) none 0 :=
  (h.cast (he.trans (zero_add _).symm)).await hq

theorem runAcquire_start {owner : String} (h : Accounts r w (some t) 0) :
    Accounts r (w.runAcquire t owner .start) none 0 := by
  simp only [Service.runAcquire]
  split
  · exact h.endTask
  next l hl =>
  have hb := h.books l hl
  have hp := h.placed l hl
  rcases l.acquire_cases w.limit t with
    ⟨-, ha⟩ | ⟨-, c, l', htake, ha⟩ | ⟨-, -, -, ha⟩ | ⟨-, -, -, ha⟩
  · rw [ha]
    have hr : Accounts r (w.withLedger l) (some t) (resultItems (.error .poolClosed)) := h.withLedger hb hp
    exact hr.conclude
  · rw [ha]
    have hlent : Accounts r (w.withLedger l') (some t) {.connection c.id} := by
      refine h.withLedger ?_ (hp.congr fun x => ?_)
      · have ht := hb.takeIdle htake
        rwa [add_zero] at ht
      · obtain ⟨id, _, _, _, _, rfl⟩ := Ledger.takeIdle_some htake
        simp [places]
    have hid := c.begin_id .rset
    dsimp only
    split
    · next he =>
      rw [he] at hid
      exact (hlent.record _).goOn (by rw [← hid]; rfl) rfl
    · next he =>
      rw [he] at hid
      exact (hlent.record _).goOn (by rw [← hid]; rfl) rfl
  · rw [ha]
    refine goOn (m := {.slot}) (h.withLedger ?_ (hp.congr fun x => ?_)) rfl rfl
    · have hr := hb.reserve
      rwa [add_zero] at hr
    · simp [places]
  · rw [ha]
    exact h.join hl

theorem runAcquire {owner : String} {step : Acquire} (h : Accounts r w (some t) step.items)
    (hq : (Work.acquire owner step).queued = false) : Accounts r (w.runAcquire t owner step) none 0 := by
  cases step with
  | start => exact runAcquire_start h
  | verifying c reader =>
    have hid := c.poll_id w.now reader
    simp only [Service.runAcquire]
    split
    · next he =>
      rw [he] at hid
      exact h.goOn (by rw [Acquire.items, ← hid]; rfl) rfl
    next result c₁ he =>
    rw [he] at hid
    have hj := c₁.judge_id result
    split
    · next he =>
      rw [he] at hj
      refine conclude (h.cast ?_)
      show {Item.connection c.id} = {Item.connection _}
      rw [← hid, ← hj]
    · next he =>
      rw [he] at hj
      exact h.goOn (by rw [Acquire.items, ← hid, ← hj]; rfl) rfl
  | unsound c =>
    simp only [Service.runAcquire]
    split
    · next hl => exact (h.gone hl).endTask
    next l hl =>
    have hb := h.books l hl
    have hp := h.placed l hl
    rcases l.reserveReplacement_cases with ⟨-, ha⟩ | ⟨-, ha⟩
    · rw [ha]
      exact (h.withLedger hb hp).goOn rfl rfl
    · rw [ha]
      refine goOn (m := {.connection c.id, .slot}) (h.withLedger ?_ (hp.congr fun x => ?_)) rfl rfl
      · have hr := hb.reserve
        rwa [add_assoc] at hr
      · simp [places, Acquire.items, Multiset.insert_eq_cons]
  | discarding c replaced =>
    cases replaced with
    | true =>
      have hd : Accounts r (w.discard c) (some t) {.slot} :=
        discard (h.cast (by rw [Acquire.items, Multiset.insert_eq_cons, ← Multiset.singleton_add, add_comm]))
      exact hd.goOn rfl rfl
    | false =>
      have hr : Accounts r (w.discard c) (some t) (resultItems (.error .poolClosed)) :=
        discard (h.cast (zero_add _).symm)
      exact hr.conclude
  | opening step =>
    have ho := runOpening (m := 0) (h.cast (zero_add _).symm)
    simp only [Service.runAcquire]
    split
    · next he =>
      rw [he] at ho
      exact ho.goOn (zero_add _) rfl
    · next he =>
      rw [he] at ho
      exact conclude (ho.cast (zero_add _))
  | queued => cases hq
  | handed result => exact conclude h

theorem settleExchange {owner : String} {purpose : Purpose} {result : Except Error Reply}
    (h : Accounts r w (some t) {.connection c.id}) :
    Accounts r (w.settleExchange t owner c purpose result) none 0 := by
  have hgive : ∀ {c' : Connection} {e}, c'.id = c.id →
      Accounts r (((w.endTask t).hold owner c').tell owner e) none 0 := fun he =>
    (hold (h.endTask.cast (by rw [he, zero_add]))).tell owner _
  unfold Service.settleExchange
  cases purpose with
  | command command => cases result <;> exact hgive rfl
  | probe =>
    have hid := c.judge_id result
    dsimp only
    split
    · next he =>
      rw [he] at hid
      exact hgive hid
    · next he =>
      rw [he] at hid
      exact hgive hid

theorem runExchange {owner : String} {purpose : Purpose} {reader : Option ReplyReader}
    (h : Accounts r w (some t) {.connection c.id}) :
    Accounts r (w.runExchange t owner purpose c reader) none 0 := by
  cases reader with
  | none =>
    simp only [Service.runExchange]
    split
    · next c' he =>
      have hid : c.id = c'.id := by rw [← Connection.begin_id c _, he]
      exact (h.record _).goOn (by rw [hid]; rfl) rfl
    · next c' he =>
      have hid : c.id = c'.id := by rw [← Connection.begin_id c _, he]
      exact settleExchange ((h.record _).cast (by rw [hid]))
  | some reader =>
    have hid := c.poll_id w.now reader
    simp only [Service.runExchange]
    split
    · next he =>
      rw [he] at hid
      exact h.goOn (by rw [← hid]; rfl) rfl
    · next he =>
      rw [he] at hid
      exact settleExchange (h.cast (by rw [← hid]))

theorem concludeClose {owner : Option String} (h : Accounts r w (some t) {.connection c.id}) :
    Accounts r (w.concludeClose t owner c) none 0 := by
  have hd : Accounts r ((w.endTask t).discard c) none 0 := discard (h.endTask.cast (zero_add _).symm)
  cases owner with
  | none => exact hd
  | some owner => exact hd.tell owner _

theorem runClose {owner : Option String} {holdsPool : Bool} {quit : Option (ReplyReader × Nat)}
    (h : Accounts r w (some t) {.connection c.id}) :
    Accounts r (w.runClose t owner holdsPool c quit) none 0 := by
  cases quit with
  | none =>
    have hid := c.begin_id .quit
    simp only [Service.runClose]
    split
    · exact concludeClose h
    split
    · next he =>
      rw [he] at hid
      exact (h.record _).goOn (by rw [← hid]; rfl) rfl
    · next he =>
      rw [he] at hid
      exact concludeClose ((h.record _).cast (by rw [← hid]))
  | some q =>
    have hid := c.poll_id w.now q.1
    simp only [Service.runClose]
    split
    · next he =>
      rw [he] at hid
      exact concludeClose (h.cast (by rw [← hid]))
    · next he =>
      rw [he] at hid
      split
      · exact concludeClose (h.cast (by rw [← hid]))
      · exact h.goOn (by rw [← hid]; rfl) rfl

theorem runExpiry {id deadline : Nat} (h : Accounts r w (some t) 0) :
    Accounts r (w.runExpiry t id deadline) none 0 := by
  unfold Service.runExpiry
  split
  · exact h.goOn rfl rfl
  split
  · exact h.endTask
  next l hl =>
  split
  · exact h.endTask
  next c l' htake =>
  refine goOn (m := {.connection c.id}) (h.withLedger ?_ ((h.placed l hl).congr fun x => ?_)) rfl rfl
  · have hb := (h.books l hl).takeExpired htake
    rwa [add_zero] at hb
  · obtain ⟨_, _, _, rfl⟩ := Ledger.takeExpired_some htake
    simp [places]

theorem runServe {waiter : Ticket} {step : Opening} (h : Accounts r w (some t) ({.waiter waiter} + step.items)) :
    Accounts r (w.runServe t waiter step) none 0 := by
  have ho := runOpening h
  unfold Service.runServe
  split
  · next he =>
    rw [he] at ho
    exact ho.goOn rfl rfl
  next result w₁ he =>
  rw [he] at ho
  split
  · next hw =>
    exact (deliver (m := 0) (ho.cast (by rw [zero_add]; rfl)) hw).endTask
  next hw =>
  have hl : Accounts r w₁ (some t) (resultItems result) := lose (ho.cast (add_comm _ _)) hw
  split
  · exact hl.goOn rfl rfl
  · exact hl.endTask

theorem runShutdown {owner : String} {step : Shutdown} (h : Accounts r w none 0)
    (ht : w.work? t = some (.shutdown owner step)) :
    Accounts r (w.runShutdown t owner step) none 0 := by
  obtain ⟨task, hmem, rfl, hw⟩ := work?_some ht
  have hs : Accounts r w (some task.ticket) 0 := (h.start hmem (by rw [hw]; rfl)).cast (by rw [hw]; rfl)
  cases step with
  | start =>
    simp only [Service.runShutdown]
    split
    · next hc =>
      have ha : Accounts r (w.await task.ticket (.shutdown owner .draining) .other) none 0 := hs.goOn rfl rfl
      exact ha.closePool hc
    · exact hs.endTask.tell owner _
  | draining => exact h
  | drained => exact hs.endTask.tell owner _

theorem runWork {work : Work} (h : Accounts r w none 0) (ht : w.work? t = some work) :
    Accounts r (w.runWork t work) none 0 := by
  obtain ⟨task, hmem, rfl, hw⟩ := work?_some ht
  have hs : work.queued = false → Accounts r w (some task.ticket) work.items := fun hq =>
    (h.start hmem (hw ▸ hq)).cast (by rw [hw, zero_add])
  cases work with
  | acquire owner step =>
    cases hq : (Work.acquire owner step).queued with
    | false => exact runAcquire (hs hq) hq
    | true =>
      cases step with
      | queued => exact h
      | _ => cases hq
  | exchange owner purpose c reader => exact runExchange (hs rfl)
  | close owner holdsPool c quit => exact runClose (hs rfl)
  | expiry id deadline => exact runExpiry (hs rfl)
  | serve waiter step => exact runServe (hs rfl)
  | giveBack c => exact (release ((hs rfl).cast (zero_add _).symm)).endTask
  | giveUp c => exact discard ((hs rfl).endTask.cast (zero_add _).symm)
  | shutdown owner step => exact runShutdown h ht

theorem run (h : Accounts r w none 0) (t : Ticket) : Accounts r (w.run t) none 0 := by
  unfold Service.run
  split
  · exact h
  · next ht => exact (h.runWork ht).reap

theorem dropTask {task : Task} (h : Accounts r w none 0) (hmem : task ∈ w.tasks)
    (hd : w.dropTask task = some w') : Accounts r w' none 0 := by
  have hgone : ∀ {work}, task.work = work → Accounts r (w.endTask task.ticket) none (0 + work.items) :=
    fun hw => hw ▸ h.drop hmem
  unfold Service.dropTask at hd
  dsimp only at hd
  split at hd <;> simp only [Option.some.injEq, reduceCtorEq] at hd <;> subst hd
  · next hw => exact hgone hw
  · next hw => exact hgone hw
  · next hw => exact hgone hw
  · next hw => exact (hgone hw).discard
  · next hw => exact (hgone hw).discard
  · next hw => exact vacate (hgone hw)
  · next hw => exact (hgone hw).discard
  · next hw => exact (hgone hw).discard
  · next hw => exact hgone hw

theorem cancel (h : Accounts r w none 0) (owner : String) : Accounts r (w.cancel owner) none 0 := by
  unfold Service.cancel
  split
  · next hd =>
    obtain ⟨task, htask, hd⟩ := Option.bind_eq_some_iff.1 hd
    exact ((h.dropTask (List.mem_of_find?_eq_some htask) hd).tell owner _).reap
  · exact h

theorem abandon (h : Accounts r w none 0) (owner : String) : Accounts r (w.abandon owner) none 0 := by
  unfold Service.abandon
  split
  · next htask => exact hold (h.drop (List.mem_of_find?_eq_some htask))
  · exact h

theorem ask {q : Request} (h : Accounts r w none 0) (ha : w.ask q = .ok w') : Accounts r w' none 0 := by
  cases q with
  | acquire owner =>
    simp only [Service.ask] at ha
    obtain ⟨-, rfl⟩ := withPool_ok ha
    exact spawn (h.cast (add_zero _).symm) rfl
  | exchange owner purpose =>
    obtain ⟨c, hc, ha⟩ := withHeld_ok ha
    cases ha
    exact spawn (h.unhold hc) rfl
  | closeConnection owner =>
    obtain ⟨c, hc, ha⟩ := withHeld_ok ha
    cases ha
    exact spawn (h.unhold hc) rfl
  | release owner =>
    obtain ⟨c, hc, ha⟩ := withHeld_ok ha
    obtain ⟨-, rfl⟩ := withPool_ok ha
    exact release (h.unhold hc)
  | drop owner =>
    obtain ⟨c, hc, ha⟩ := withHeld_ok ha
    cases ha
    exact discard (h.unhold hc)
  | setBroken owner =>
    obtain ⟨c, hc, ha⟩ := withHeld_ok ha
    cases ha
    exact hold ((h.unhold hc).cast (by rw [c.setBroken_id]))
  | cancel owner => cases ha; exact h.cancel owner
  | abandon owner => cases ha; exact h.abandon owner
  | closePool callback =>
    obtain ⟨-, hc⟩ := closePool_ok ha
    exact h.closePool hc
  | shutdown owner =>
    simp only [Service.ask] at ha
    obtain ⟨-, rfl⟩ := withPool_ok ha
    exact spawn (h.cast (add_zero _).symm) rfl
  | dropPool =>
    cases ha
    exact reap (h.congr rfl rfl rfl rfl rfl)

theorem step (h : Accounts r w none 0) (s : Step) : Accounts r (w.step s) none 0 := by
  cases s with
  | request q =>
    simp only [Service.step]
    cases ha : w.ask q with
    | error e => exact h
    | ok w' => exact h.ask ha
  | run t => exact h.run t
  | tick ms => exact h.congr rfl rfl rfl rfl rfl

theorem act (h : Accounts r w none 0) (s : Step) : Accounts r (w.act s) none 0 := by
  cases s with
  | tick ms => exact h.congr rfl rfl rfl rfl rfl
  | run t =>
    simp only [Service.act]
    split
    · exact h
    · next ht => exact h.runWork ht
  | request q =>
    have hask : Accounts r ((w.ask q).toOption.getD w) none 0 := by
      cases ha : w.ask q with
      | error e => exact h
      | ok w' => exact h.ask ha
    cases q with
    | cancel owner =>
      simp only [Service.act]
      split
      · next hd =>
        obtain ⟨task, htask, hd⟩ := Option.bind_eq_some_iff.1 hd
        exact (h.dropTask (List.mem_of_find?_eq_some htask) hd).tell owner _
      · exact h
    | dropPool => exact h.congr rfl rfl rfl rfl rfl
    | _ => exact hask

theorem booked (h : Accounts r w none 0) {l : Ledger} (hl : w.ledger = some l) :
    Books r l w.nextId (w.items none) := by
  have hb := h.books l hl
  rwa [add_zero] at hb

theorem steps (h : Accounts r w none 0) (run : List Step) : Accounts r (w.steps run) none 0 := by
  induction run generalizing w with
  | nil => exact h
  | cons s run ih => exact ih (h.step s)

end Accounts

/-! ## What is accounted for -/

/-- Work that has a slot counted for a connection that is not recorded yet. -/
def Work.reserves : Work → Bool
  | .acquire _ (.discarding _ true) | .acquire _ (.opening _) | .serve .. => true
  | _ => false

/-- Who owns a connection. -/
inductive Place where
  /-- It is parked under this identifier. -/
  | slot (id : Nat)
  | caller (owner : String)
  /-- On its way to a caller who waited, or back from one who has gone. -/
  | channel (task : Ticket)
  /-- A task that closes it. -/
  | closing (task : Ticket)
  deriving DecidableEq

/-- The connection that a task has, and as what. -/
def Task.owns (task : Task) : Option (Connection × Place) :=
  match task.work with
  | .acquire owner (.verifying c _) | .acquire owner (.unsound c) | .acquire owner (.discarding c _) =>
    some (c, .caller owner)
  | .exchange owner _ c _ => some (c, .caller owner)
  | .acquire _ (.handed (.ok c)) | .giveBack c => some (c, .channel task.ticket)
  | .close _ _ c _ | .giveUp c => some (c, .closing task.ticket)
  | _ => none

/-- A connection that has its identifier and is about to be recorded. -/
def Work.named? : Work → Option Nat
  | .acquire _ (.opening (.named c)) | .serve _ (.named c) => some c.id
  | _ => none

/-- What is counted at most once is one thing. -/
theorem eq_of_countP_le_one {α : Type} {f : α → Bool} {l : List α} {a b : α} (h : l.countP f ≤ 1)
    (ha : a ∈ l) (hb : b ∈ l) (hfa : f a = true) (hfb : f b = true) : a = b := by
  rw [List.countP_eq_length_filter] at h
  have ha' := List.mem_filter.2 ⟨ha, hfa⟩
  have hb' := List.mem_filter.2 ⟨hb, hfb⟩
  match hf : l.filter f with
  | [] => simp [hf] at ha'
  | [one] =>
    rw [hf, List.mem_singleton] at ha' hb'
    rw [ha', hb']
  | _ :: _ :: _ =>
    rw [hf] at h
    simp only [List.length_cons] at h
    omega

namespace Service

/-- The attempts under way, with those that have not started. -/
def attempts (w : Service) : Nat :=
  w.tasks.countP fun task => task.work.reserves

/-- All connections, each with its owner. -/
def owned (w : Service) (l : Ledger) : List (Connection × Place) :=
  (l.live.filterMap fun p => p.2.parked?.map fun c => (c, .slot p.1)) ++
    ((w.holding.map fun p => (p.2, .caller p.1)) ++ w.tasks.filterMap Task.owns)

/-- The identifiers in use. -/
def known (w : Service) (l : Ledger) : List Nat :=
  l.live.map Prod.fst ++ w.tasks.filterMap fun task => task.work.named?

variable {w : Service}

theorem count_items (x : Item) (p : Task → Bool)
    (hp : ∀ task : Task, task.work.items.count x = if p task then 1 else 0) :
    (w.items none).count x =
      (w.holding.map fun p => Item.connection p.2.id).count x + w.tasks.countP p := by
  have hsum : ∀ tasks : List Task,
      (tasks.map fun task : Task => task.work.items).sum.count x = tasks.countP p := by
    intro tasks
    induction tasks with
    | nil => rfl
    | cons task tasks ih =>
      rw [List.map_cons, List.sum_cons, Multiset.count_add, ih, hp, List.countP_cons, Nat.add_comm]
  simp only [items, ne_eq, reduceCtorEq, not_false_eq_true, decide_true, List.filter_true,
    Multiset.count_add, Multiset.coe_count, hsum]

theorem count_slot (w : Service) : (w.items none).count .slot = w.attempts := by
  rw [count_items .slot fun task => task.work.reserves]
  · rw [List.count_eq_zero_of_not_mem (by simp), Nat.zero_add]; rfl
  · intro task
    cases task.work with
    | acquire owner step =>
      cases step with
      | discarding c replaced => cases replaced <;> simp [Work.items, Acquire.items, Work.reserves]
      | opening step => cases step <;> simp [Work.items, Acquire.items, Opening.items, Work.reserves]
      | handed result => cases result <;> simp [Work.items, Acquire.items, resultItems, Work.reserves]
      | _ => simp [Work.items, Acquire.items, Work.reserves]
    | serve waiter step => cases step <;> simp [Work.items, Opening.items, Work.reserves]
    | _ => simp [Work.items, Work.reserves]

theorem count_named (w : Service) (id : Nat) :
    (w.items none).count (.named id) = (w.tasks.filterMap fun task => task.work.named?).count id := by
  rw [count_items (.named id) fun task => task.work.named? == some id]
  · rw [List.count_eq_zero_of_not_mem (by simp), Nat.zero_add, List.count, List.countP_filterMap]
    refine List.countP_congr fun task _ => ?_
    cases task.work.named? <;> simp
  · intro task
    cases task.work with
    | acquire owner step =>
      cases step with
      | discarding c replaced => cases replaced <;> simp [Work.items, Acquire.items, Work.named?]
      | opening step =>
        cases step <;>
          simp [Work.items, Acquire.items, Opening.items, Work.named?, Multiset.count_singleton,
            eq_comm (a := id)]
      | handed result => cases result <;> simp [Work.items, Acquire.items, resultItems, Work.named?]
      | _ => simp [Work.items, Acquire.items, Work.named?]
    | serve waiter step =>
      cases step <;>
        simp [Work.items, Opening.items, Work.named?, Multiset.count_singleton, eq_comm (a := id)]
    | _ => simp [Work.items, Work.named?]

theorem count_connection (w : Service) (id : Nat) :
    (w.items none).count (.connection id) =
      ((w.holding.map fun p => (p.2, Place.caller p.1)) ++ w.tasks.filterMap Task.owns).countP
        fun p => p.1.id = id := by
  rw [count_items (.connection id) fun task => (task.owns.map fun p => p.1.id) == some id]
  · rw [List.countP_append, List.count, List.countP_map, List.countP_map, List.countP_filterMap]
    refine congrArg₂ _ (List.countP_congr fun p _ => by simp) (List.countP_congr fun task _ => ?_)
    cases task.owns <;> simp
  · intro task
    unfold Task.owns
    cases task.work with
    | acquire owner step =>
      cases step with
      | discarding c replaced =>
        cases replaced <;>
          simp [Work.items, Acquire.items, Multiset.count_cons, Multiset.count_singleton, eq_comm (a := id)]
      | opening step => cases step <;> simp [Work.items, Acquire.items, Opening.items]
      | handed result =>
        cases result <;> simp [Work.items, Acquire.items, resultItems, Multiset.count_singleton, eq_comm (a := id)]
      | _ => simp [Work.items, Acquire.items, Multiset.count_singleton, eq_comm (a := id)]
    | serve waiter step => cases step <;> simp [Work.items, Opening.items]
    | _ => simp [Work.items, Multiset.count_singleton, eq_comm (a := id)]

end Service

namespace Books

variable {r : List Nat} {w : Service} {l : Ledger} {id : Nat}

theorem count_live (h : Books r l w.nextId (w.items none)) (id : Nat) :
    (l.live.map Prod.fst).count id = l.lists id := by
  have hn : (l.live.map Prod.fst).Nodup := (List.pairwise_map.2 h.ascending).imp Nat.ne_of_lt
  cases hs : l.slot? id with
  | none =>
    have hout : id ∉ l.live.map Prod.fst := by
      intro hmem
      obtain ⟨⟨other, slot⟩, hp, rfl⟩ := List.mem_map.1 hmem
      exact absurd (hs.symm.trans ((Ledger.lookup_eq_some h.ascending).2 hp)) (by simp)
    rw [List.count_eq_zero_of_not_mem hout, Ledger.lists, hs]
    rfl
  | some slot =>
    have hmem := List.mem_map_of_mem (f := Prod.fst) ((Ledger.lookup_eq_some h.ascending).1 hs)
    rw [List.count_eq_one_of_mem hn hmem, Ledger.lists, hs]
    rfl

/-- A connection is recorded as long as someone owns it, and has one owner. -/
theorem count_owned (h : Books r l w.nextId (w.items none)) (id : Nat) :
    ((w.owned l).countP fun p => p.1.id = id) = l.lists id := by
  have hparked : ∀ live : List (Nat × Slot),
      ((live.filterMap fun p => p.2.parked?.map fun c => (c, Place.slot p.1)).countP fun p => p.1.id = id) =
        ((parked live).map Connection.id).count id := by
    intro live
    induction live with
    | nil => rfl
    | cons p rest ih =>
      obtain ⟨other, slot⟩ := p
      cases slot with
      | idle c deadline =>
        rw [parked_idle, List.map_cons, List.count_cons, ← ih]
        simp [Slot.parked?, List.countP_cons]
      | lent b => rw [parked_lent, List.filterMap_cons_none rfl, ih]
  rw [Service.owned, List.countP_append, ← Service.count_connection, hparked, h.lent,
    count_parked h.ascending (fun id c d hs => (h.idle id c d hs).1)]
  show (if (l.slot? id).any Slot.isIdle then 1 else 0) + _ = _
  simp only [Ledger.lends, Ledger.lists]
  cases l.slot? id with
  | none => rfl
  | some slot => cases slot <;> rfl

theorem count_attempts (h : Books r l w.nextId (w.items none)) : l.count = l.live.length + w.attempts := by
  rw [h.count, Service.count_slot]

theorem count_known (h : Books r l w.nextId (w.items none)) (id : Nat) :
    (w.known l).count id ≤ if id < w.nextId ∧ id ∉ r then 1 else 0 := by
  rw [Service.known, List.count_append, h.count_live, ← Service.count_named, Nat.add_comm]
  exact h.fresh id

theorem known_lt (h : Books r l w.nextId (w.items none)) (hk : id ∈ w.known l) : id < w.nextId ∧ id ∉ r := by
  have hpos := (List.count_pos_iff.2 hk).trans_le (h.count_known id)
  split at hpos
  · next hid => exact hid
  · exact absurd hpos (Nat.lt_irrefl 0)

theorem unknown (h : Books r l w.nextId (w.items none)) (hk : id ∉ w.known l) :
    .named id ∉ w.items none ∧ l.slot? id = none := by
  have hzero := List.count_eq_zero_of_not_mem hk
  rw [Service.known, List.count_append, h.count_live, ← Service.count_named, Nat.add_eq_zero_iff] at hzero
  refine ⟨Multiset.count_eq_zero.1 hzero.2, ?_⟩
  cases hs : l.slot? id with
  | none => rfl
  | some slot => simp [Ledger.lists, hs] at hzero

end Books

namespace Service

/-- **The books balance.** Between any two steps of any run the ledger counts
each recorded connection and each attempt under way, once. A connection is
recorded under its own identifier from its entry to its end and has exactly one
owner; one that is parked is idle. An identifier is in use once, and when it is
not in use any more it is never used again. -/
theorem steps_balanced (config : Config) (spawns : Bool) (peers : List Peer) (run : List Step) (l : Ledger)
    (hl : ((new config spawns peers).steps run).ledger = some l) :
    let w := (new config spawns peers).steps run
    l.count = l.live.length + w.attempts ∧
    (∀ id, ((w.owned l).countP fun p => p.1.id = id) = if (l.slot? id).isSome then 1 else 0) ∧
    (∀ id c deadline, l.slot? id = some (.idle c deadline) → c.id = id ∧ c.status = .idle) ∧
    (w.known l).Nodup ∧ (∀ id ∈ w.known l, id < w.nextId) ∧
    ∀ later l', (w.steps later).ledger = some l' →
      ∀ id ∈ (w.steps later).known l', id < w.nextId → id ∈ w.known l := by
  intro w
  have ha : Accounts [] w none 0 := (Accounts.new config spawns peers).steps run
  have hb : Books [] l w.nextId (w.items none) := ha.booked hl
  refine ⟨hb.count_attempts, hb.count_owned, hb.idle, ?_, fun id hk => (hb.known_lt hk).1, ?_⟩
  · refine List.nodup_iff_count_le_one.2 fun id => (hb.count_known id).trans ?_
    split <;> omega
  intro later l' hl' id hk hlt
  by_contra hnot
  -- An identifier that is not in use can be retired now, and stays so.
  obtain ⟨hnamed, hslot⟩ := hb.unknown hnot
  have hr : Accounts [id] w none 0 := by
    refine ⟨ha.tickets, ha.issued, ha.running, fun l₁ hl₁ => ?_, ha.placed⟩
    obtain rfl : l = l₁ := Option.some.inj (hl.symm.trans hl₁)
    rw [add_zero]
    exact hb.retire hlt hnamed hslot
  have hb' := (hr.steps later).booked hl'
  exact (hb'.known_lt hk).2 (List.mem_singleton.2 rfl)

/-! A run in which a caller gets a connection of its own. -/

/-- A server that greets and offers nothing. -/
def plainPeer : Peer where
  connect := .ok { arrivals := [.data "220 a\r\n250 a\r\n".toUTF8.toList] }
  upgrade := fun _ => .error (.notSupported "STARTTLS")

/-- Room for one connection. -/
def narrow : Config := { host := "a", security := .none, login := .disabled, maxPoolSize := 1 }

def opened : Service :=
  (new narrow true [plainPeer]).steps [.request (.acquire "a"), .run 0, .run 0, .run 0, .run 0]

theorem steps_balanced_opened :
    ∃ l, opened.ledger = some l ∧ l.count = 1 ∧ ((opened.owned l).countP fun p => p.1.id = 1) = 1 :=
  have hl : opened.ledger = some { count := 1, live := [(1, .lent false)] } := by decide +kernel
  ⟨_, hl, rfl, (steps_balanced narrow true [plainPeer] _ _ hl).2.1 1⟩

end Service

end Pool

end SmtpClient
