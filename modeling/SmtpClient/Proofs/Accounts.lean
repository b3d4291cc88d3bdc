/-
What a pool's tasks and callers account for, and that its ledger agrees.
`Accounts` is the invariant; while a task runs its items are in `hand`, so
that each effect of which steps are made moves items between the ledger, the
hand, the tasks and the callers.
-/
import Mathlib.Algebra.BigOperators.Group.List.Basic
import Mathlib.Data.List.Nodup
import Mathlib.Tactic.Abel
import SmtpClient.Pool.Step
import SmtpClient.Proofs.Books

namespace SmtpClient.Pool

/-! ## Items -/

def resultItems : Except Error Connection → Multiset Item
  | .ok c => {.connection c.id}
  | .error _ => 0

def Opening.items : Opening → Multiset Item
  | .reserved | .attempting _ | .failed _ => {.slot}
  | .named c => {.slot, .named c.id}

def Acquire.items : Acquire → Multiset Item
  | .start | .queued => 0
  | .verifying c _ | .unsound c | .discarding c false => {.connection c.id}
  | .discarding c true => {.connection c.id, .slot}
  | .opening step => step.items
  | .handed result => resultItems result

def Work.items : Work → Multiset Item
  | .acquire _ step => step.items
  | .exchange _ _ c _ | .close _ _ c _ | .giveBack c | .giveUp c => {.connection c.id}
  | .serve t step => {.waiter t} + step.items
  | .expiry .. | .shutdown .. => 0

/-- A caller in the queue, or one who has left it for a slot of his own. -/
def Work.queued : Work → Bool
  | .acquire _ .queued => true
  | _ => false

/-- What callers and tasks account for, apart from the task that runs. -/
def Service.items (w : Service) (me : Option Ticket) : Multiset Item :=
  (w.holding.map fun p => Item.connection p.2.id : List Item) +
    ((w.tasks.filter fun task => me ≠ some task.ticket).map fun task => task.work.items).sum

/-- How often a caller stands in the queue or has a slot opened for him. -/
def places (l : Ledger) (items : Multiset Item) (t : Ticket) : Nat :=
  l.waiters.count t + items.count (.waiter t)

/-- Whoever waits has one place, and nobody else has any. -/
structure Placed (l : Ledger) (nextTicket : Ticket) (tasks : List Task) (items : Multiset Item) :
    Prop where
  once : ∀ t, places l items t ≤ 1
  issued : ∀ t, nextTicket ≤ t → places l items t = 0
  tasks : ∀ task ∈ tasks, places l items task.ticket = if task.work.queued then 1 else 0

/-- The ledger agrees with callers and tasks. The task `me` runs; what it has
is in `hand`. -/
structure Accounts (retired : List Nat) (w : Service) (me : Option Ticket) (hand : Multiset Item) :
    Prop where
  tickets : (w.tasks.map Task.ticket).Nodup
  issued : ∀ task ∈ w.tasks, task.ticket < w.nextTicket
  running : ∀ t, me = some t → ∃ task ∈ w.tasks, task.ticket = t ∧ task.work.queued = false
  books : ∀ l, w.ledger = some l → Books retired l w.nextId (w.items me + hand)
  placed : ∀ l, w.ledger = some l → Placed l w.nextTicket w.tasks (w.items me + hand)

/-! ## Places -/

namespace Placed

variable {l l' : Ledger} {n : Ticket} {tasks : List Task} {m m' : Multiset Item}

theorem congr (h : Placed l n tasks m) (hp : ∀ t, places l' m' t = places l m t) :
    Placed l' n tasks m' := by
  refine ⟨fun t => ?_, fun t ht => ?_, fun task ht => ?_⟩ <;> rw [hp]
  · exact h.once t
  · exact h.issued t ht
  · exact h.tasks task ht

/-- Those who have gone may lose their place. -/
theorem lose (h : Placed l n tasks m) (hp : ∀ t, places l' m' t ≤ places l m t)
    (hq : ∀ task ∈ tasks, task.work.queued = true → places l' m' task.ticket = places l m task.ticket) :
    Placed l' n tasks m' := by
  refine ⟨fun t => (hp t).trans (h.once t), fun t ht => ?_, fun task ht => ?_⟩
  · have := hp t
    rw [h.issued t ht] at this
    exact Nat.le_zero.1 this
  · cases hw : task.work.queued with
    | true => rw [hq task ht hw, h.tasks task ht, hw]
    | false =>
      have := hp task.ticket
      rw [h.tasks task ht, hw] at this
      simpa using this

end Placed

/-! ## Tasks -/

namespace Service

variable {w w' : Service} {t : Ticket}

theorem task?_some {task : Task} (h : w.task? t = some task) : task ∈ w.tasks ∧ task.ticket = t := by
  refine ⟨List.mem_of_find?_eq_some h, ?_⟩
  simpa using List.find?_some h

theorem work?_some {work : Work} (h : w.work? t = some work) :
    ∃ task ∈ w.tasks, task.ticket = t ∧ task.work = work := by
  obtain ⟨task, htask, hwork⟩ := Option.map_eq_some_iff.1 h
  obtain ⟨hmem, hticket⟩ := task?_some htask
  exact ⟨task, hmem, hticket, hwork⟩

theorem task?_eq (hn : (w.tasks.map Task.ticket).Nodup) {task : Task} (h : task ∈ w.tasks) :
    w.task? task.ticket = some task := by
  cases hf : w.task? task.ticket with
  | none => exact absurd (decide_eq_true rfl) (List.find?_eq_none.1 hf task h)
  | some other =>
    obtain ⟨hmem, ht⟩ := task?_some hf
    rw [List.inj_on_of_nodup_map hn hmem h ht]

theorem waits_eq_true : w.waits t = true ↔ ∃ task, w.task? t = some task ∧ task.work.queued = true := by
  unfold waits work?
  cases w.task? t with
  | none => simp
  | some task =>
    cases hw : task.work <;> simp [hw, Work.queued]
    next owner step => cases step <;> simp

theorem waits_of_mem (hn : (w.tasks.map Task.ticket).Nodup) {task : Task} (h : task ∈ w.tasks) :
    w.waits task.ticket = task.work.queued := by
  rw [Bool.eq_iff_iff, waits_eq_true]
  simp [task?_eq hn h]

/-- Replacing the work of one task replaces its items. -/
theorem items_await {task : Task} (hn : (w.tasks.map Task.ticket).Nodup) (hmem : task ∈ w.tasks)
    {me : Option Ticket} (hme : me ≠ some task.ticket) (work : Work) (wait : Wait) :
    (w.await task.ticket work wait).items me + task.work.items = w.items me + work.items := by
  have hlist : ∀ tasks : List Task, (tasks.map Task.ticket).Nodup → task ∈ tasks →
      (((tasks.map fun x => if x.ticket = task.ticket then { x with work, wait } else x).filter
        fun x => me ≠ some x.ticket).map fun x => x.work.items).sum + task.work.items =
      ((tasks.filter fun x => me ≠ some x.ticket).map fun x => x.work.items).sum + work.items := by
    intro tasks
    induction tasks with
    | nil => intro _ h; cases h
    | cons x rest ih =>
      intro hn hx
      rw [List.map_cons, List.nodup_cons] at hn
      rcases List.mem_cons.1 hx with rfl | hx
      · have hrest : (rest.map fun x => if x.ticket = task.ticket then { x with work, wait } else x) = rest :=
          (List.map_congr_left fun y hy => if_neg fun he => hn.1 (List.mem_map.2 ⟨y, hy, he⟩)).trans
            (List.map_id' rest)
        rw [List.map_cons, hrest, if_pos rfl, List.filter_cons_of_pos (by simpa using hme),
          List.filter_cons_of_pos (by simpa using hme), List.map_cons, List.map_cons, List.sum_cons,
          List.sum_cons]
        abel
      · have hne : x.ticket ≠ task.ticket := fun he => hn.1 (List.mem_map.2 ⟨task, hx, he.symm⟩)
        rw [List.map_cons, if_neg hne]
        have ih := ih hn.2 hx
        by_cases hm : me ≠ some x.ticket
        · rw [List.filter_cons_of_pos (by simpa using hm), List.filter_cons_of_pos (by simpa using hm),
            List.map_cons, List.map_cons, List.sum_cons, List.sum_cons, add_assoc, ih, add_assoc]
        · rw [List.filter_cons_of_neg (by simpa using hm), List.filter_cons_of_neg (by simpa using hm), ih]
  simp only [items, await, add_assoc, hlist w.tasks hn hmem]

/-- A task takes its items with it when it runs. -/
theorem items_none {task : Task} (hn : (w.tasks.map Task.ticket).Nodup) (hmem : task ∈ w.tasks) :
    w.items none = w.items (some task.ticket) + task.work.items := by
  have hlist : ∀ tasks : List Task, (tasks.map Task.ticket).Nodup → task ∈ tasks →
      (tasks.map fun x => x.work.items).sum =
      ((tasks.filter fun x => some task.ticket ≠ some x.ticket).map fun x => x.work.items).sum +
        task.work.items := by
    intro tasks
    induction tasks with
    | nil => intro _ h; cases h
    | cons x rest ih =>
      intro hn hx
      rw [List.map_cons, List.nodup_cons] at hn
      rcases List.mem_cons.1 hx with rfl | hx
      · have hrest : (rest.filter fun x => some task.ticket ≠ some x.ticket) = rest :=
          List.filter_eq_self.2 fun y hy => by
            simpa using fun he => hn.1 (List.mem_map.2 ⟨y, hy, Eq.symm he⟩)
        rw [List.filter_cons_of_neg (by simp), hrest, List.map_cons, List.sum_cons]
        abel
      · have hne : task.ticket ≠ x.ticket := fun he => hn.1 (List.mem_map.2 ⟨task, hx, he⟩)
        rw [List.filter_cons_of_pos (by simpa using hne), List.map_cons, List.map_cons, List.sum_cons,
          List.sum_cons, ih hn.2 hx, add_assoc]
  simp only [items, ne_eq, reduceCtorEq, not_false_eq_true, decide_true, List.filter_true, add_assoc,
    hlist w.tasks hn hmem]

theorem items_await_running {task : Task} (hn : (w.tasks.map Task.ticket).Nodup) (hmem : task ∈ w.tasks)
    (work : Work) (wait : Wait) :
    (w.await task.ticket work wait).items none = w.items (some task.ticket) + work.items := by
  have hme : (none : Option Ticket) ≠ some task.ticket := by simp
  have ha := items_await hn hmem hme work wait
  rw [items_none hn hmem, add_right_comm] at ha
  exact add_right_cancel ha

/-- What the task that runs is recorded to do does not count. -/
theorem items_await_self (w : Service) (t : Ticket) (work : Work) (wait : Wait) :
    (w.await t work wait).items (some t) = w.items (some t) := by
  have hlist : ∀ tasks : List Task,
      ((tasks.map fun x => if x.ticket = t then { x with work, wait } else x).filter
        fun x => some t ≠ some x.ticket) = tasks.filter fun x => some t ≠ some x.ticket := by
    intro tasks
    induction tasks with
    | nil => rfl
    | cons x rest ih =>
      rw [List.map_cons]
      by_cases hx : x.ticket = t
      · rw [if_pos hx, List.filter_cons_of_neg (by simp [hx]), List.filter_cons_of_neg (by simp [hx]), ih]
      · rw [if_neg hx, List.filter_cons_of_pos (by simpa using Ne.symm hx),
          List.filter_cons_of_pos (by simpa using Ne.symm hx), ih]
  simp only [items, await, hlist]

theorem tickets_await (w : Service) (t : Ticket) (work : Work) (wait : Wait) :
    (w.await t work wait).tasks.map Task.ticket = w.tasks.map Task.ticket := by
  simp only [await, List.map_map]
  refine List.map_congr_left fun x _ => ?_
  show (if x.ticket = t then { x with work, wait } else x).ticket = x.ticket
  split <;> rfl

theorem mem_await {x : Task} {work : Work} {wait : Wait} (h : x ∈ (w.await t work wait).tasks) :
    (x ∈ w.tasks ∧ x.ticket ≠ t) ∨ x.ticket = t ∧ x.work = work := by
  obtain ⟨y, hy, rfl⟩ := List.mem_map.1 h
  split
  · next ht => exact .inr ⟨ht, rfl⟩
  · next ht => exact .inl ⟨hy, ht⟩

theorem items_endTask (w : Service) (t : Ticket) : (w.endTask t).items none = w.items (some t) := by
  simp [items, endTask, eq_comm]

theorem items_spawn (w : Service) (work : Work) {me : Option Ticket} (hme : me ≠ some w.nextTicket) :
    (w.spawn work).items me = w.items me + work.items := by
  simp only [items, spawn, List.filter_append, List.map_append, List.sum_append]
  rw [List.filter_cons_of_pos (by simpa using hme)]
  simp [add_assoc]

theorem items_hold (w : Service) (owner : String) (c : Connection) (me : Option Ticket) :
    (w.hold owner c).items me = w.items me + {.connection c.id} := by
  simp only [items, hold, List.map_append, List.map_cons, List.map_nil, ← Multiset.coe_add,
    Multiset.coe_singleton]
  abel

theorem items_unhold {owner : String} {c : Connection} (h : w.held? owner = some c) (me : Option Ticket) :
    w.items me = (w.unhold owner).items me + {.connection c.id} := by
  have hlist : ∀ holding : List (String × Connection), holding.lookup owner = some c →
      ((holding.map fun p => Item.connection p.2.id : List Item) : Multiset Item) =
      (((holding.eraseP fun p => p.1 = owner).map fun p => Item.connection p.2.id : List Item)) +
        {.connection c.id} := by
    intro holding
    induction holding with
    | nil => intro h; cases h
    | cons p rest ih =>
      intro h
      obtain ⟨other, d⟩ := p
      by_cases ho : other = owner
      · subst ho
        simp only [List.lookup_cons_self, Option.some.injEq] at h
        subst h
        rw [List.eraseP_cons_of_pos (by simp), List.map_cons, ← Multiset.cons_coe,
          ← Multiset.singleton_add, add_comm]
      · have hb : (owner == other) = false := by simpa using Ne.symm ho
        rw [List.lookup_cons, hb] at h
        rw [List.eraseP_cons_of_neg (by simpa using ho), List.map_cons, List.map_cons,
          ← Multiset.cons_coe, ← Multiset.cons_coe, ih h, Multiset.cons_add]
  simp only [items, unhold]
  rw [hlist w.holding h]
  abel

end Service

/-! ## Effects on tasks and callers -/

namespace Accounts

open Service

variable {r : List Nat} {w w' : Service} {me : Option Ticket} {t : Ticket} {m : Multiset Item}
  {l l' : Ledger} {c : Connection}

theorem new (config : Config) (spawns : Bool) (peers : List Peer) :
    Accounts [] (Service.new config spawns peers) none 0 where
  tickets := List.nodup_nil
  issued := by simp [Service.new]
  running := by simp
  books := by
    intro l hl
    cases hl
    exact Books.new
  placed := by
    intro l hl
    cases hl
    exact ⟨fun t => Nat.zero_le 1, fun t _ => rfl, fun task ht => by cases ht⟩

/-- Only tasks, callers and the ledger count. -/
theorem congr (h : Accounts r w me m) (htasks : w'.tasks = w.tasks) (hholding : w'.holding = w.holding)
    (hledger : w'.ledger = w.ledger) (hticket : w'.nextTicket = w.nextTicket)
    (hid : w'.nextId = w.nextId) : Accounts r w' me m := by
  have hitems : w'.items me = w.items me := by simp only [items, htasks, hholding]
  refine ⟨htasks ▸ h.tickets, ?_, htasks ▸ h.running, ?_, ?_⟩
  · rw [htasks, hticket]; exact h.issued
  · rw [hledger, hitems, hid]; exact h.books
  · rw [hledger, hitems, hticket, htasks]; exact h.placed

theorem withLedger (h : Accounts r w me m) {m' : Multiset Item}
    (hb : Books r l w.nextId (w.items me + m'))
    (hp : Placed l w.nextTicket w.tasks (w.items me + m')) :
    Accounts r (w.withLedger l) me m' := by
  refine ⟨h.tickets, h.issued, h.running, ?_, ?_⟩
  · intro l₁ hl
    cases hl
    exact hb
  · intro l₁ hl
    cases hl
    exact hp

theorem running_ne_next (h : Accounts r w me m) : me ≠ some w.nextTicket := by
  intro he
  obtain ⟨task, hmem, ht, -⟩ := h.running _ he
  exact absurd (ht ▸ h.issued task hmem) (Nat.lt_irrefl _)

theorem start {task : Task} (h : Accounts r w none m) (hmem : task ∈ w.tasks)
    (hq : task.work.queued = false) : Accounts r w (some task.ticket) (m + task.work.items) := by
  have hitems : w.items (some task.ticket) + (m + task.work.items) = w.items none + m := by
    rw [items_none h.tickets hmem]; abel
  refine ⟨h.tickets, h.issued, ?_, ?_, ?_⟩
  · intro t ht
    simp only [Option.some.injEq] at ht
    exact ⟨task, hmem, ht, hq⟩
  · rw [hitems]; exact h.books
  · rw [hitems]; exact h.placed

theorem endTask (h : Accounts r w (some t) m) : Accounts r (w.endTask t) none m := by
  have hsub : ∀ {x}, x ∈ (w.endTask t).tasks → x ∈ w.tasks := List.mem_of_mem_filter
  refine ⟨h.tickets.sublist (List.filter_sublist.map _), fun x hx => h.issued x (hsub hx), by simp, ?_, ?_⟩
  · rw [items_endTask]; exact h.books
  · intro l hl
    rw [items_endTask]
    have hp := h.placed l hl
    exact ⟨hp.once, hp.issued, fun x hx => hp.tasks x (hsub hx)⟩

/-- A task that is dropped leaves its items. -/
theorem drop {task : Task} (h : Accounts r w none m) (hmem : task ∈ w.tasks) :
    Accounts r (w.endTask task.ticket) none (m + task.work.items) := by
  have hsub : ∀ {x}, x ∈ (w.endTask task.ticket).tasks → x ∈ w.tasks := List.mem_of_mem_filter
  have hitems : (w.endTask task.ticket).items none + (m + task.work.items) = w.items none + m := by
    rw [items_endTask, items_none h.tickets hmem]; abel
  refine ⟨h.tickets.sublist (List.filter_sublist.map _), fun x hx => h.issued x (hsub hx), by simp, ?_, ?_⟩
  · rw [hitems]; exact h.books
  · intro l hl
    rw [hitems]
    have hp := h.placed l hl
    exact ⟨hp.once, hp.issued, fun x hx => hp.tasks x (hsub hx)⟩

theorem issued_await (h : Accounts r w me m) {work : Work} {wait : Wait} :
    ∀ x ∈ (w.await t work wait).tasks, x.ticket < (w.await t work wait).nextTicket := by
  intro x hx
  have hx' := List.mem_map_of_mem (f := Task.ticket) hx
  rw [tickets_await] at hx'
  obtain ⟨y, hy, he⟩ := List.mem_map.1 hx'
  exact he ▸ h.issued y hy

/-- The task that runs stops and keeps what it goes on with. -/
theorem await {work : Work} {wait : Wait} (h : Accounts r w (some t) (m + work.items))
    (hq : work.queued = false) : Accounts r (w.await t work wait) none m := by
  obtain ⟨task, hmem, rfl, hrun⟩ := h.running _ rfl
  have hitems : (w.await task.ticket work wait).items none + m =
      w.items (some task.ticket) + (m + work.items) := by
    rw [items_await_running h.tickets hmem]; abel
  refine ⟨(tickets_await w _ work wait).symm ▸ h.tickets, h.issued_await, by simp, ?_, ?_⟩
  · rw [hitems]; exact h.books
  · intro l hl
    rw [hitems]
    have hp := h.placed l hl
    refine ⟨hp.once, hp.issued, fun x hx => ?_⟩
    rcases mem_await hx with ⟨hx, -⟩ | ⟨ht, hw⟩
    · exact hp.tasks x hx
    · rw [ht, hw, hq, hp.tasks task hmem, hrun]

/-- The caller who asks takes the last place in the queue. -/
theorem join {owner : String} (h : Accounts r w (some t) m) (hl : w.ledger = some l) :
    Accounts r ((w.withLedger { l with waiters := l.waiters ++ [t] }).await t (.acquire owner .queued) .other)
      none m := by
  obtain ⟨task, hmem, rfl, hrun⟩ := h.running _ rfl
  have hitems : ((w.withLedger { l with waiters := l.waiters ++ [task.ticket] }).await task.ticket
      (.acquire owner .queued) .other).items none = w.items (some task.ticket) := by
    rw [items_await_running (w := w.withLedger _) h.tickets hmem]
    exact add_zero _
  have hp := h.placed l hl
  have hself := hp.tasks task hmem
  simp only [hrun, Bool.false_eq_true, if_false] at hself
  have hplaces : ∀ x, places { l with waiters := l.waiters ++ [task.ticket] }
      (w.items (some task.ticket) + m) x =
      places l (w.items (some task.ticket) + m) x + if x = task.ticket then 1 else 0 := by
    intro x
    simp only [places, List.count_append, List.count_singleton, beq_iff_eq, eq_comm (a := x)]
    omega
  refine ⟨(tickets_await _ _ _ _).symm ▸ h.tickets, ?_, by simp, ?_, ?_⟩
  · exact issued_await (w := w.withLedger _) (h.withLedger (h.books l hl |>.congr rfl rfl) (hp.congr fun _ => rfl))
  · intro l₁ hl₁
    cases hl₁
    rw [hitems]
    exact (h.books l hl).congr rfl rfl
  · intro l₁ hl₁
    cases hl₁
    rw [hitems]
    refine ⟨fun x => ?_, fun x hx => ?_, fun x hx => ?_⟩
    · rw [hplaces]
      have := hp.once x
      split <;> simp_all
    · rw [hplaces, hp.issued x hx, if_neg]
      have := h.issued task hmem
      exact fun he => absurd (he ▸ this) (Nat.not_lt.2 hx)
    · rw [hplaces]
      rcases mem_await hx with ⟨hx, hne⟩ | ⟨ht, hw⟩
      · rw [if_neg hne, Nat.add_zero, hp.tasks x hx]
      · rw [if_pos ht, ht, hself, hw]; rfl

theorem spawn {work : Work} (h : Accounts r w me (m + work.items)) (hq : work.queued = false) :
    Accounts r (w.spawn work) me m := by
  have hitems : (w.spawn work).items me + m = w.items me + (m + work.items) := by
    rw [items_spawn w work h.running_ne_next]; abel
  have hmem : ∀ {x}, x ∈ (w.spawn work).tasks → x ∈ w.tasks ∨ x.ticket = w.nextTicket ∧ x.work = work := by
    intro x hx
    rcases List.mem_append.1 hx with hx | hx
    · exact .inl hx
    · rw [List.mem_singleton.1 hx]; exact .inr ⟨rfl, rfl⟩
  refine ⟨?_, ?_, ?_, ?_, ?_⟩
  · simp only [Service.spawn, List.map_append, List.map_cons, List.map_nil]
    refine List.nodup_append.2 ⟨h.tickets, List.nodup_singleton _, ?_⟩
    intro a ha b hb
    obtain ⟨x, hx, rfl⟩ := List.mem_map.1 ha
    rw [List.mem_singleton.1 hb]
    exact Nat.ne_of_lt (h.issued x hx)
  · intro x hx
    show x.ticket < w.nextTicket + 1
    rcases hmem hx with hx | ⟨ht, -⟩
    · exact Nat.lt_succ_of_lt (h.issued x hx)
    · exact ht ▸ Nat.lt_succ_self _
  · intro t ht
    obtain ⟨task, htask, hrun⟩ := h.running t ht
    exact ⟨task, List.mem_append_left _ htask, hrun⟩
  · rw [hitems]; exact h.books
  · intro l hl
    rw [hitems]
    have hp := h.placed l hl
    refine ⟨hp.once, fun t ht => hp.issued t (Nat.le_of_succ_le ht), fun x hx => ?_⟩
    rcases hmem hx with hx | ⟨ht, hw⟩
    · exact hp.tasks x hx
    · rw [ht, hw, hq, hp.issued _ (Nat.le_refl _)]; rfl

theorem hold {owner : String} (h : Accounts r w me (m + {.connection c.id})) :
    Accounts r (w.hold owner c) me m := by
  have hitems : (w.hold owner c).items me + m = w.items me + (m + {.connection c.id}) := by
    rw [items_hold]; abel
  refine ⟨h.tickets, h.issued, h.running, ?_, ?_⟩
  · rw [hitems]; exact h.books
  · rw [hitems]; exact h.placed

theorem unhold {owner : String} (h : Accounts r w me m) (hc : w.held? owner = some c) :
    Accounts r (w.unhold owner) me (m + {.connection c.id}) := by
  have hitems : (w.unhold owner).items me + (m + {.connection c.id}) = w.items me + m := by
    rw [items_unhold hc]; abel
  refine ⟨h.tickets, h.issued, h.running, ?_, ?_⟩
  · rw [hitems]; exact h.books
  · rw [hitems]; exact h.placed

theorem tell (h : Accounts r w me m) (owner : String) (e : Event) :
    Accounts r (w.tell owner e) me m := h.congr rfl rfl rfl rfl rfl

theorem record (h : Accounts r w me m) (o : Outbound) : Accounts r (w.record o) me m := by
  unfold Service.record
  split
  · exact h
  · exact h.congr rfl rfl rfl rfl rfl

theorem wake (h : Accounts r w me m) (t : Ticket) : Accounts r (w.wake t) me m := by
  unfold Service.wake
  split
  · exact h
  · exact h.congr rfl rfl rfl rfl rfl

/-- A caller who waits and has left the queue gets his result. -/
theorem deliver {result : Except Error Connection}
    (h : Accounts r w me (m + {.waiter t} + resultItems result)) (hw : w.waits t = true) :
    Accounts r (w.deliver t result) me m := by
  obtain ⟨task, ht, hq⟩ := waits_eq_true.1 hw
  obtain ⟨hmem, rfl⟩ := task?_some ht
  obtain ⟨owner, howner⟩ : ∃ owner, task.work = .acquire owner .queued := by
    unfold Work.queued at hq
    split at hq
    · next owner hw => exact ⟨owner, hw⟩
    · cases hq
  have hdeliver : w.deliver task.ticket result =
      (w.await task.ticket (.acquire owner (.handed result)) .none).wake task.ticket := by
    simp only [Service.deliver, Service.work?, ht, Option.map_some, howner, Service.become]
  rw [hdeliver]
  refine wake ?_ _
  have hme : me ≠ some task.ticket := by
    intro he
    obtain ⟨other, hother, hticket, hrun⟩ := h.running _ he
    rw [List.inj_on_of_nodup_map h.tickets hother hmem hticket, hq] at hrun
    cases hrun
  have hitems : (w.await task.ticket (.acquire owner (.handed result)) .none).items me =
      w.items me + resultItems result := by
    have := items_await h.tickets hmem hme (.acquire owner (.handed result)) .none
    rw [howner] at this
    simpa only [Work.items, Acquire.items, add_zero] using this
  have hplaces : ∀ l x, places l (w.items me + (m + {.waiter task.ticket} + resultItems result)) x =
      places l (w.items me + resultItems result + m) x + if x = task.ticket then 1 else 0 := by
    intro l x
    simp only [places, Multiset.count_add, Multiset.count_singleton, Item.waiter.injEq]
    omega
  refine ⟨(tickets_await _ _ _ _).symm ▸ h.tickets, h.issued_await, ?_, ?_, ?_⟩
  · intro t ht
    obtain ⟨other, hother, hticket, hrun⟩ := h.running t ht
    have hne : other.ticket ≠ task.ticket := fun he => hme (by rw [ht, ← hticket, he])
    exact ⟨other, List.mem_map.2 ⟨other, hother, if_neg hne⟩, hticket, hrun⟩
  · intro l hl
    rw [hitems]
    refine (h.books l hl).congr_items fun x hx => ?_
    simp only [Multiset.count_add, Multiset.count_singleton, hx, if_false]
    omega
  · intro l hl
    rw [hitems]
    have hp := h.placed l hl
    refine ⟨fun x => ?_, fun x hx => ?_, fun x hx => ?_⟩
    · have := hp.once x
      rw [hplaces] at this
      omega
    · have := hp.issued x hx
      rw [hplaces] at this
      exact (Nat.add_eq_zero_iff.1 this).1
    · rcases mem_await hx with ⟨hx, hne⟩ | ⟨hx, hwork⟩
      · have := hp.tasks x hx
        rwa [hplaces, if_neg hne, Nat.add_zero] at this
      · have := hp.tasks task hmem
        rw [hplaces, if_pos rfl, hq] at this
        rw [hx, hwork]
        simpa [Work.queued] using this

/-- A caller who left the queue and has gone need not be served. -/
theorem lose (h : Accounts r w me (m + {.waiter t})) (hw : w.waits t ≠ true) : Accounts r w me m := by
  refine ⟨h.tickets, h.issued, h.running, ?_, ?_⟩
  · intro l hl
    refine (h.books l hl).congr_items fun x hx => ?_
    simp [hx]
  · intro l hl
    refine (h.placed l hl).lose (fun x => ?_) fun task hmem hq => ?_
    · simp only [places, Multiset.count_add]
      omega
    · have hne : task.ticket ≠ t := fun he => hw (he ▸ (waits_of_mem h.tickets hmem).trans hq)
      simp [places, hne]

/-- A caller who left the queue is told of an error, if he still waits. -/
theorem refuse (h : Accounts r w me (m + {.waiter t})) : Accounts r (w.refuse t) me m := by
  by_cases hw : w.waits t = true
  · have hr : Accounts r w me (m + {.waiter t} + resultItems (.error .poolClosed)) := by
      simpa [resultItems] using h
    exact hr.deliver hw
  · have hsame : w.refuse t = w := by
      unfold Service.refuse Service.deliver
      unfold Service.waits at hw
      split
      · next he => simp [he] at hw
      · rfl
    rw [hsame]
    exact h.lose hw

theorem signal (h : Accounts r w me m) (drained : Drained) : Accounts r (w.signal drained) me m := by
  unfold Service.signal
  split
  swap
  · exact h
  next t =>
  split
  swap
  · exact h
  next owner he =>
  obtain ⟨task, hmem, rfl, hwork⟩ := work?_some he
  refine wake ?_ _
  have hitems : (w.become task.ticket (.shutdown owner .drained)).items me = w.items me := by
    by_cases hme : me = some task.ticket
    · rw [hme]; exact items_await_self w _ _ _
    · have := items_await h.tickets hmem hme (.shutdown owner .drained) .none
      rw [hwork] at this
      show (w.await task.ticket (.shutdown owner .drained) .none).items me = w.items me
      simpa only [Work.items, add_zero] using this
  refine ⟨(tickets_await _ _ _ _).symm ▸ h.tickets, h.issued_await, ?_, ?_, ?_⟩
  · intro t ht
    obtain ⟨other, hother, hticket, hrun⟩ := h.running t ht
    by_cases he : other.ticket = task.ticket
    · exact ⟨{ other with work := .shutdown owner .drained, wait := .none },
        List.mem_map.2 ⟨other, hother, if_pos he⟩, hticket, rfl⟩
    · exact ⟨other, List.mem_map.2 ⟨other, hother, if_neg he⟩, hticket, hrun⟩
  · rw [hitems]; exact h.books
  · intro l hl
    rw [hitems]
    have hp := h.placed l hl
    refine ⟨hp.once, hp.issued, fun x hx => ?_⟩
    rcases mem_await hx with ⟨hx, -⟩ | ⟨hx, hw⟩
    · exact hp.tasks x hx
    · rw [hx, hw, hp.tasks task hmem, hwork]; rfl

theorem finish (h : Accounts r w me m) (drained : Option Drained) :
    Accounts r (w.finish drained) me m := by
  have ha : Accounts r (w.announce (told drained)) me m := h.congr rfl rfl rfl rfl rfl
  exact ha.signal _

theorem closeDetached (h : Accounts r w me (m + {.connection c.id})) :
    Accounts r (w.closeDetached c) me m := by
  unfold Service.closeDetached
  split
  · exact spawn h rfl
  · exact spawn h rfl

/-- A pool that nobody holds any more is not accounted for. -/
theorem reap (h : Accounts r w me m) : Accounts r w.reap me m := by
  unfold Service.reap
  split
  · exact h
  · exact ⟨h.tickets, h.issued, h.running, by simp, by simp⟩

theorem gone {m' : Multiset Item} (h : Accounts r w me m) (hl : w.ledger = none) :
    Accounts r w me m' :=
  ⟨h.tickets, h.issued, h.running, by simp [hl], by simp [hl]⟩

theorem cast {m' : Multiset Item} (h : Accounts r w me m) (he : m = m') :
    Accounts r w me m' := he ▸ h

/-- The next identifier is given to a connection. -/
theorem name (h : Accounts r w me m) :
    Accounts r { w with nextId := w.nextId + 1 } me (m + {.named w.nextId}) := by
  refine ⟨h.tickets, h.issued, h.running, ?_, ?_⟩
  · intro l hl
    have hb := (h.books l hl).name
    rwa [add_assoc] at hb
  · intro l hl
    exact (h.placed l hl).congr fun x => by simp [places, Service.items]

/-! ## Turns at the ledger -/

/-- A new connection is recorded in the slot that is counted for it. -/
theorem enter {id : Nat} (h : Accounts r w me (m + {.slot, .named id})) :
    Accounts r { w with ledger := w.ledger.map fun l => l.enter id } me (m + {.connection id}) := by
  refine ⟨h.tickets, h.issued, h.running, ?_, ?_⟩
  · intro l hl
    obtain ⟨l₀, hl₀, rfl⟩ := Option.map_eq_some_iff.1 hl
    have hb := h.books l₀ hl₀
    rw [← add_assoc] at hb
    have he := hb.enter
    rwa [add_assoc] at he
  · intro l hl
    obtain ⟨l₀, hl₀, rfl⟩ := Option.map_eq_some_iff.1 hl
    exact (h.placed l₀ hl₀).congr fun x => by
      simp [places, Service.items, Ledger.enter, Multiset.insert_eq_cons]

theorem vacate {id : Option Nat} (h : Accounts r w me (m + {vacated id})) :
    Accounts r (w.vacate id) me m := by
  unfold Service.vacate
  split
  · next hl => exact h.gone hl
  next l hl =>
  have hb : Books r (l.strike id) w.nextId (w.items me + m) :=
    Books.strike (by rw [add_assoc]; exact h.books l hl)
  have hp : Placed (l.strike id) w.nextTicket w.tasks (w.items me + m) :=
    (h.placed l hl).congr fun x => by cases id <;> simp [places, Ledger.strike, vacated]
  -- Those who have gone lose their place with the queue.
  have hlose : ∀ {l' : Ledger} {m' : Multiset Item},
      (∀ x, places l' m' x ≤ places (l.strike id) (w.items me + m) x) →
      (∀ x, w.waits x = true → places l' m' x = places (l.strike id) (w.items me + m) x) →
      Placed l' w.nextTicket w.tasks m' := fun hle heq =>
    hp.lose hle fun task hmem hq => heq _ ((waits_of_mem h.tickets hmem).trans hq)
  rcases l.vacate_cases w.limit w.spawns w.waits id with
    ⟨-, -, hv⟩ | ⟨-, hall, hv⟩ | ⟨-, -, gone, t, rest, hw, hgone, ht, hv⟩ | ⟨-, -, -, hv⟩
  · rw [hv]
    exact (h.withLedger hb hp).finish none
  · rw [hv]
    refine finish (w := w.withLedger { l.strike id with waiters := [] })
      (h.withLedger (hb.congr rfl rfl) (hlose (fun x => ?_) fun x hx => ?_)) none
    · simp only [places, List.count_nil]
      omega
    · have hout : x ∉ l.waiters := fun hmem => by rw [hall x hmem] at hx; cases hx
      simp [places, Ledger.strike, List.count_eq_zero_of_not_mem hout]
  · rw [hv]
    have hserve : Accounts r (w.withLedger { l.strike id with waiters := rest, count := l.count - 1 + 1 }) me
        (m + (Work.serve t .reserved).items) := by
      refine h.withLedger ?_ (hlose (fun x => ?_) fun x hx => ?_)
      · refine Books.congr_items (hb.reserve.congr rfl rfl) fun x hx => ?_
        simp only [Work.items, Opening.items, Multiset.count_add, Multiset.count_singleton, hx, if_false]
        omega
      · simp only [places, Ledger.strike, hw, Work.items, Opening.items, Multiset.count_add,
          Multiset.count_singleton, Item.waiter.injEq, List.count_append, List.count_cons, beq_iff_eq,
          reduceCtorEq, if_false, eq_comm (a := x)]
        omega
      · have hout : x ∉ gone := fun hmem => by rw [hgone x hmem] at hx; cases hx
        simp only [places, Ledger.strike, hw, Work.items, Opening.items, Multiset.count_add,
          Multiset.count_singleton, Item.waiter.injEq, List.count_append, List.count_cons, beq_iff_eq,
          reduceCtorEq, if_false, eq_comm (a := x), List.count_eq_zero_of_not_mem hout]
        omega
    exact (hserve.spawn rfl).finish none
  · rw [hv]
    exact finish (w := w.withLedger { l.strike id with drained := true, onDrained := none })
      (h.withLedger (hb.congr rfl rfl) (hp.congr fun _ => rfl)) _

theorem discard (h : Accounts r w me (m + {.connection c.id})) : Accounts r (w.discard c) me m :=
  vacate h

theorem release (h : Accounts r w me (m + {.connection c.id})) : Accounts r (w.release c) me m := by
  unfold Service.release
  split
  · exact h.discard
  split
  · next hl => exact h.gone hl
  next l hl =>
  have hb := h.books l hl
  have hp := h.placed l hl
  rcases l.accept_cases w.config.keepAlive w.waits (w.now + w.config.idleTimeout) c with
    ⟨-, ha⟩ | ⟨-, gone, t, rest, hw, hgone, ht, ha⟩ | ⟨-, hall, ha⟩
  · simp only [ha]
    exact closeDetached (h.withLedger hb hp)
  · simp only [ha]
    refine deliver (h.withLedger ?_ ?_) ht
    · have hb' : Books r { l with waiters := rest } w.nextId _ := hb.congr rfl rfl
      refine hb'.congr_items fun x hx => ?_
      simp only [resultItems, Multiset.count_add, Multiset.count_singleton, hx, if_false]
      omega
    · refine hp.lose (fun x => ?_) fun task hmem hq => ?_
      · simp only [places, hw, resultItems, Multiset.count_add, Multiset.count_singleton,
          Item.waiter.injEq, List.count_append, List.count_cons, beq_iff_eq, reduceCtorEq, if_false,
          eq_comm (a := x)]
        omega
      · have hout : task.ticket ∉ gone := fun hx => by
          rw [← waits_of_mem h.tickets hmem, hgone _ hx] at hq; cases hq
        simp only [places, hw, resultItems, Multiset.count_add, Multiset.count_singleton,
          Item.waiter.injEq, List.count_append, List.count_cons, beq_iff_eq, reduceCtorEq, if_false,
          eq_comm (a := task.ticket), List.count_eq_zero_of_not_mem hout]
        omega
  · simp only [ha]
    have hpark : Accounts r (w.withLedger (Ledger.park { l with waiters := [] } c
        (w.now + w.config.idleTimeout))) me m := by
      refine h.withLedger (Books.park ?_) (hp.lose (fun x => ?_) fun task hmem hq => ?_)
      · rw [add_assoc]; exact hb.congr rfl rfl
      · simp only [places, Ledger.park, Ledger.put_waiters, List.count_nil, Multiset.count_add]
        omega
      · have hout : task.ticket ∉ l.waiters := fun hx => by
          rw [← waits_of_mem h.tickets hmem, hall _ hx] at hq; cases hq
        simp [places, Ledger.park, List.count_eq_zero_of_not_mem hout]
    split
    · exact spawn (hpark.cast (add_zero m).symm) rfl
    · exact hpark

theorem foldl {α : Type} {f : Service → α → Service} {item : α → Item}
    (hf : ∀ {w m a}, Accounts r w me (m + {item a}) → Accounts r (f w a) me m) (as : List α)
    (h : Accounts r w me (m + (as.map item : List Item))) : Accounts r (as.foldl f w) me m := by
  induction as generalizing w with
  | nil => exact h.cast (add_zero m)
  | cons a as ih =>
    refine ih (hf (h.cast ?_))
    rw [List.map_cons, ← Multiset.cons_coe, ← Multiset.singleton_add]
    abel

theorem closePool {onDrained : Option DrainCall} (h : Accounts r w me m)
    (hc : w.closePool onDrained = some w') : Accounts r w' me m := by
  unfold Service.closePool at hc
  split at hc
  · cases hc
  next l hl =>
  split at hc
  · cases hc
  next closing l' hb =>
  cases hc
  obtain ⟨-, hwaiters, hidle, hl'⟩ := Ledger.beginClose_some hb
  obtain ⟨hlive, hcount, hnone⟩ : l'.live = (l.closed onDrained).live ∧ l'.count = (l.closed onDrained).count ∧
      l'.waiters = [] := by
    rcases hl' with ⟨-, -, rfl⟩ | ⟨-, -, rfl⟩ <;> exact ⟨rfl, rfl, rfl⟩
  rw [hwaiters, hidle]
  refine Accounts.finish (foldl closeDetached _
    (foldl refuse _ (h.withLedger ?_ ?_))) _
  · refine (((h.books l hl).closed onDrained).congr hlive hcount).congr_items fun x hx => ?_
    have hout : x ∉ l.waiters.map Item.waiter := fun hmem => by
      obtain ⟨t, -, rfl⟩ := List.mem_map.1 hmem
      exact hx t rfl
    simp only [Multiset.count_add, Multiset.coe_count, List.count_eq_zero_of_not_mem hout, Books.parked]
    omega
  · refine (h.placed l hl).congr fun t => ?_
    have hout : Item.waiter t ∉ (l.live.filterMap fun p => p.2.parked?).map fun c => Item.connection c.id := by
      simp
    have hinj : (l.waiters.map Item.waiter).count (.waiter t) = l.waiters.count t :=
      List.count_map_of_injective _ Item.waiter (fun _ _ h => by cases h; rfl) t
    simp only [places, hnone, Multiset.count_add, Multiset.coe_count, hinj,
      List.count_eq_zero_of_not_mem hout, List.count_nil]
    omega

end Accounts

end SmtpClient.Pool
