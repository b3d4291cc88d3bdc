/-
The queue of a pool. Somebody waits only where nothing is free; whoever comes
later waits behind him; nobody leaves the queue before one who stands in front of
him and still waits (`step_in_order`); and whoever leaves it and still waits is
served by a released connection, by an attempt made for him or by the close.
-/
import Mathlib.Data.List.Induction
import SmtpClient.Proofs.Effects

namespace SmtpClient.Pool

/-! ## The ledger -/

namespace Ledger

variable {l l' : Ledger} {limit : Nat} {closes : Option DrainCall → Prop} {calls : List Outcall}

/-- Somebody waits only where nothing is free. -/
def Orderly (limit : Nat) (l : Ledger) : Prop :=
  l.waiters ≠ [] → l.closing = false ∧ l.idleCount = 0 ∧ limit ≤ l.count

theorem idleCount_ne_zero {id deadline : Nat} {c : Connection} (h : (id, .idle c deadline) ∈ l.live) :
    l.idleCount ≠ 0 := fun hz => by
  have hp := idleCount_eq_zero.1 hz _ h
  cases hp

/-- While a connection is idle nobody waits. -/
theorem Orderly.unqueued {id deadline : Nat} {c : Connection} (h : l.Orderly limit)
    (hmem : (id, .idle c deadline) ∈ l.live) : l.waiters = [] := by
  by_contra hw
  exact idleCount_ne_zero hmem (h hw).2.1

theorem slot?_mem {id : Nat} {slot : Slot} (h : l.slot? id = some slot) : (id, slot) ∈ l.live := by
  obtain ⟨before, after, he, -⟩ := List.lookup_eq_some_iff.1 h
  rw [he]
  exact List.mem_append_right _ List.mem_cons_self

/-- **No idle waiting.** Where attempts can be started, no turn leaves somebody
in the queue of a pool that has something free. -/
theorem Orderly.turn (h : l.Orderly limit) (ht : Turn limit true closes l l' calls) : l'.Orderly limit := by
  cases ht with
  | none => exact h
  | acquire caller =>
    rcases l.acquire_cases limit caller with
      ⟨-, ha⟩ | ⟨-, c, l', htake, ha⟩ | ⟨-, -, -, ha⟩ | ⟨hopen, hidle, hfull, ha⟩
    · rw [ha]; exact h
    · obtain ⟨id, c₀, deadline, hmem, -, rfl⟩ := takeIdle_some htake
      rw [ha]
      exact fun hw => absurd (h.unqueued hmem) hw
    · rw [ha]
      intro hw
      obtain ⟨hopen, hidle, hfull⟩ := h hw
      exact ⟨hopen, hidle, Nat.le_succ_of_le hfull⟩
    · rw [ha]
      exact fun _ => ⟨hopen, hidle, hfull⟩
  | reserve =>
    rcases l.reserveReplacement_cases with ⟨-, hr⟩ | ⟨-, hr⟩
    · rw [hr]; exact h
    · rw [hr]
      intro hw
      obtain ⟨hopen, hidle, hfull⟩ := h hw
      exact ⟨hopen, hidle, Nat.le_succ_of_le hfull⟩
  | enter id =>
    intro hw
    obtain ⟨hopen, hidle, hfull⟩ := h hw
    exact ⟨hopen, idleCount_put_lent hidle, hfull⟩
  | accept keepAlive waits deadline c =>
    rcases l.accept_cases keepAlive waits deadline c with
      ⟨-, ha⟩ | ⟨-, gone, t, rest, hw, -, -, ha⟩ | ⟨-, -, ha⟩
    · rw [ha]; exact h
    · rw [ha]
      exact fun _ => h (by simp [hw])
    · rw [ha]
      exact fun hw => absurd rfl hw
  | expire hx =>
    obtain ⟨deadline, -, hs, rfl⟩ := takeExpired_some hx
    exact fun hw => absurd (h.unqueued (slot?_mem hs)) hw
  | vacate waits id =>
    rcases l.vacate_cases limit true waits id with
      ⟨hno, -, hv⟩ | ⟨-, -, hv⟩ | ⟨-, -, gone, t, rest, hw, -, -, hv⟩ | ⟨hclosing, -, -, hv⟩
    · rw [hv]
      intro hw
      obtain ⟨hopen, hidle, -⟩ := h hw
      refine ⟨hopen, idleCount_strike hidle id, ?_⟩
      rcases hno with hc | hfull | hs
      · exact absurd (hopen.symm.trans hc) Bool.false_ne_true
      · exact hfull
      · cases hs
    · rw [hv]
      exact fun hw => absurd rfl hw
    · rw [hv]
      intro _
      obtain ⟨hopen, hidle, hfull⟩ := h (by simp [hw])
      refine ⟨hopen, idleCount_strike hidle id, ?_⟩
      show limit ≤ l.count - 1 + 1
      omega
    · rw [hv]
      exact fun hw => absurd ((h hw).1.symm.trans hclosing) Bool.false_ne_true
  | close _ hb =>
    obtain ⟨-, -, -, ⟨-, -, rfl⟩ | ⟨-, -, rfl⟩⟩ := beginClose_some hb <;>
      exact fun hw => absurd rfl hw

end Ledger

/-! ## Runs -/

/-- The caller whom a task serves. -/
def Work.serves? : Work → Option Ticket
  | .serve waiter _ => some waiter
  | _ => none

namespace Service

variable {w : Service} {l : Ledger} {s : Step} {t x y : Ticket} {owner : String}

theorem count_waiter (w : Service) (x : Ticket) :
    (w.items none).count (.waiter x) = w.tasks.countP fun task => task.work.serves? = some x := by
  rw [count_items (.waiter x) fun task => task.work.serves? = some x]
  · rw [List.count_eq_zero_of_not_mem (by simp), Nat.zero_add]
  · intro task
    cases task.work with
    | acquire owner step =>
      cases step with
      | discarding c replaced => cases replaced <;> simp [Work.items, Acquire.items, Work.serves?]
      | opening step => cases step <;> simp [Work.items, Acquire.items, Opening.items, Work.serves?]
      | handed result => cases result <;> simp [Work.items, Acquire.items, resultItems, Work.serves?]
      | _ => simp [Work.items, Acquire.items, Work.serves?]
    | serve waiter step =>
      cases step <;> simp [Work.items, Opening.items, Work.serves?, Multiset.count_cons, eq_comm (a := x)]
    | _ => simp [Work.items, Work.serves?]

/-- Who waits has one place, in the queue or by an attempt that is made for him,
and no other task has any. -/
theorem places_work (h : Accounts [] w none 0) (hl : w.ledger = some l) {work : Work} (hw : w.work? t = some work) :
    l.waiters.count t + (w.tasks.countP fun task => task.work.serves? = some t) =
      if work.queued then 1 else 0 := by
  obtain ⟨task, hmem, rfl, hwork⟩ := work?_some hw
  have hp := (h.placed l hl).tasks task hmem
  rwa [hwork, add_zero, places, count_waiter] at hp

/-- A caller who waits stands in the queue once, or one attempt is made for him. -/
theorem one_place (h : Accounts [] w none 0) (hl : w.ledger = some l)
    (hw : w.work? t = some (.acquire owner .queued)) :
    l.waiters.count t + (w.tasks.countP fun task => task.work.serves? = some t) = 1 :=
  places_work h hl hw

theorem steps_orderly (config : Config) (peers : List Peer) (run : List Step)
    (hl : ((new config true peers).steps run).ledger = some l) :
    l.Orderly ((new config true peers).steps run).limit := by
  have hlimit : ((new config true peers).steps run).limit = (new config true peers).limit := by
    simp only [limit, (steps_config _ run).1]
  obtain ⟨l₀, hl₀, hR⟩ := steps_ledger (R := fun l l' => l.Orderly (new config true peers).limit →
    l'.Orderly (new config true peers).limit) (fun _ h => h) (fun h h' ho => h' (h ho))
    (fun ht ho => ho.turn ht) run hl
  cases hl₀
  rw [hlimit]
  exact hR fun hw => absurd rfl hw

/-- A task that holds the pool keeps it. -/
theorem reap_held {task : Task} (hmem : task ∈ w.tasks) (h : task.work.holdsPool = true) : w.reap = w := by
  rcases reap_eq w with he | ⟨-, -, hnone⟩
  · exact he
  · exact absurd (h.symm.trans (hnone task hmem)) (by simp)

/-- Whoever comes while others wait takes the last place behind them. -/
theorem run_start_queued (hl : w.ledger = some l) (ho : l.Orderly w.limit) (hq : l.waiters ≠ [])
    (ht : w.work? t = some (.acquire owner .start)) :
    (w.run t).queue = l.waiters ++ [t] ∧ (w.run t).work? t = some (.acquire owner .queued) := by
  obtain ⟨hopen, hidle, hfull⟩ := ho hq
  obtain ⟨task, hmem, rfl, hwork⟩ := work?_some ht
  have hacq : l.acquire w.limit task.ticket = (.wait, { l with waiters := l.waiters ++ [task.ticket] }) := by
    rcases l.acquire_cases w.limit task.ticket with
      ⟨hclosing, -⟩ | ⟨-, c, l', htake, -⟩ | ⟨-, -, hfree, -⟩ | ⟨-, -, -, ha⟩
    · exact absurd (hopen.symm.trans hclosing) Bool.false_ne_true
    · obtain ⟨id, c₀, deadline, hidle', -⟩ := Ledger.takeIdle_some htake
      exact absurd hidle (Ledger.idleCount_ne_zero hidle')
    · exact absurd hfull (Nat.not_le.2 hfree)
    · exact ha
  have hrun : w.run task.ticket = ((w.withLedger { l with waiters := l.waiters ++ [task.ticket] }).await task.ticket
      (.acquire owner .queued) .other).reap := by
    simp only [run, ht, runWork, runAcquire, hl, hacq]
  have hself : ((w.withLedger { l with waiters := l.waiters ++ [task.ticket] }).await task.ticket
      (.acquire owner .queued) .other).work? task.ticket = some (.acquire owner .queued) := by
    rw [work?_await, if_pos rfl, show (w.withLedger _).work? task.ticket = _ from ht, Option.map_some]
  obtain ⟨task', hmem', -, hwork'⟩ := work?_some hself
  have hkept := reap_held hmem' (by rw [hwork']; rfl)
  rw [hrun, hkept]
  exact ⟨rfl, hself⟩

/-- Nobody is forgotten: a caller who waits gives up, goes on waiting or is
given his result. -/
theorem step_waiting {x : Ticket} (h : Accounts [] w none 0) (hx : w.work? x = some (.acquire owner .queued))
    (s : Step) :
    (s = .request (.cancel owner) ∧ (w.step s).work? x = none) ∨
      (w.step s).work? x = some (.acquire owner .queued) ∨
      ∃ result, (w.step s).work? x = some (.acquire owner (.handed result)) ∧ Resolved w x s result := by
  rcases (step_effect w s).work x with he | ⟨work, he, hc⟩ | ⟨he, hends⟩
  · exact .inr (.inl (he.trans hx))
  · cases hc with
    | starts hn _ => exact absurd (work?_lt h.issued hx) (Nat.not_lt.2 hn)
    | goes ht hg =>
      obtain rfl := Option.some.inj (hx.symm.trans ht)
      cases hg
    | handed ht hr =>
      cases hx.symm.trans ht
      exact .inr (.inr ⟨_, he, hr⟩)
    | drained ht => cases hx.symm.trans ht
  · rcases hends.acquire h.tickets hx with rfl | rfl
    · -- Whoever waits makes no step of his own.
      refine .inr (.inl ?_)
      rw [step, run, hx]
      exact (work?_reap _ x).trans hx
    · exact .inl ⟨rfl, he⟩

/-! ## The order in the queue -/

/-- Nobody stands in the queue twice. -/
theorem queue_nodup (h : Accounts [] w none 0) : w.queue.Nodup := by
  cases hl : w.ledger with
  | none => simp [queue, hl]
  | some l =>
    rw [queue_eq hl, List.nodup_iff_count_le_one]
    exact fun x => (Nat.le_add_right _ _).trans ((h.placed l hl).once x)

/-- A caller who is not about to ask for a connection, and never will be. -/
structure HasAsked (w : Service) (x : Ticket) : Prop where
  issued : x < w.nextTicket
  begun : ∀ owner, w.work? x ≠ some (.acquire owner .start)

theorem asked_of_mem (h : Accounts [] w none 0) (hx : x ∈ w.queue) : w.HasAsked x := by
  cases hl : w.ledger with
  | none => simp [queue, hl] at hx
  | some l =>
    rw [queue_eq hl] at hx
    have hpos : 0 < l.waiters.count x := List.count_pos_iff.2 hx
    refine ⟨?_, fun owner hw => ?_⟩
    · by_contra hnot
      have hzero := (h.placed l hl).issued x (Nat.le_of_not_lt hnot)
      rw [add_zero, places] at hzero
      omega
    · have hzero := places_work h hl hw
      simp only [Work.queued, Bool.false_eq_true, if_false] at hzero
      omega

theorem HasAsked.step (h : w.HasAsked x) (s : Step) : (w.step s).HasAsked x := by
  refine ⟨Nat.lt_of_lt_of_le h.issued (step_effect w s).fresh, fun owner hw => ?_⟩
  rcases step_work hw with hsame | hc
  · exact h.begun owner hsame
  cases hc with
  | starts hn _ => exact absurd h.issued (Nat.not_lt.2 hn)
  | goes _ hg => cases hg

theorem HasAsked.steps (h : w.HasAsked x) (later : List Step) : (w.steps later).HasAsked x := by
  induction later generalizing w with
  | nil => exact h
  | cons s later ih => exact ih (h.step s)

/-- A step takes callers out in front, or lets one join at the back. -/
theorem Queues.suffix_or_joins {q : List Ticket} (h : w.Queues s q) :
    q <:+ w.queue ∨ ∃ t owner, w.work? t = some (.acquire owner .start) ∧ q = w.queue ++ [t] := by
  cases h with
  | stays => exact .inl List.suffix_rfl
  | joins ht => exact .inr ⟨_, _, ht, rfl⟩
  | @serves _ gone rest x hq _ => exact .inl ⟨gone ++ [x], by rw [hq, List.append_assoc, List.singleton_append]⟩
  | empties => exact .inl List.nil_suffix
  | closes => exact .inl List.nil_suffix

/-- **In the order of arrival.** After some steps of a run the queue consists of those who stood at its back,
in their order, and behind them of others who came since. -/
theorem queue_along (h : Accounts [] w none 0) (later : List Step) :
    ∃ gone rest joined, w.queue = gone ++ rest ∧ (w.steps later).queue = rest ++ joined ∧
      ∀ x ∈ joined, x ∉ w.queue := by
  induction later using List.reverseRecOn with
  | nil => exact ⟨[], w.queue, [], rfl, (List.append_nil _).symm, nofun⟩
  | append_singleton later s ih =>
    obtain ⟨gone, rest, joined, hq, hq', hnew⟩ := ih
    rw [steps_snoc]
    rcases (step_effect (w.steps later) s).queue.suffix_or_joins with ⟨front, he⟩ | ⟨t, owner, ht, he⟩
    · rcases List.append_eq_append_iff.1 (hq'.symm.trans he.symm) with ⟨left, -, hj⟩ | ⟨left, hr, he'⟩
      · exact ⟨w.queue, [], _, (List.append_nil _).symm, rfl,
          fun x hx => hnew x (hj ▸ List.mem_append_right _ hx)⟩
      · exact ⟨gone ++ front, left, joined, by rw [hq, hr, List.append_assoc], he', hnew⟩
    · refine ⟨gone, rest, joined ++ [t], hq, by rw [he, hq', List.append_assoc], fun x hx hmem => ?_⟩
      rcases List.mem_append.1 hx with hx | hx
      · exact hnew x hx hmem
      · cases List.mem_singleton.1 hx
        exact ((asked_of_mem h hmem).steps later).begun owner ht

/-- A caller who gives up leaves the queue as it is, as long as another one waits. -/
theorem step_gives_up (h : Accounts [] w none 0) {other : String} (hy : w.work? y = some (.acquire other .queued))
    (he : Ends w s y) (hx : w.work? x = some (.acquire owner .queued)) (hs : (w.step s).work? x ≠ none) :
    (w.step s).queue = w.queue := by
  rcases he.acquire h.tickets hy with rfl | rfl
  · obtain ⟨task, hmem, -, hwork⟩ := work?_some hy
    have hsame : w.step (.run y) = w.reap := by simp only [Service.step, run, hy, runWork, runAcquire]
    rw [hsame, reap_held hmem (by rw [hwork]; rfl)]
  · cases he with
    | @cancelled _ task hu =>
      obtain ⟨hwork, -⟩ := underWay?_work h.tickets hu
      have hwork : task.work = .acquire other .queued := Option.some.inj (hwork.symm.trans hy)
      have hdrop : w.dropTask task = some (w.endTask task.ticket) := by simp only [dropTask, hwork]
      have hsame : w.step (.request (.cancel other)) = ((w.endTask task.ticket).tell other .cancelled).reap := by
        show w.cancel other = _
        simp only [cancel, hu, Option.bind_some, hdrop]
      have hrest : ((w.endTask task.ticket).tell other .cancelled).work? x =
          if x = task.ticket then none else w.work? x := work?_endTask w task.ticket x
      have hne : x ≠ task.ticket := fun heq => hs (by rw [hsame, work?_reap, hrest, if_pos heq])
      have hstill : ((w.endTask task.ticket).tell other .cancelled).work? x = some (.acquire owner .queued) := by
        rw [hrest, if_neg hne, hx]
      obtain ⟨task', hmem', -, hwork'⟩ := work?_some hstill
      rw [hsame, reap_held hmem' (by rw [hwork']; rfl)]
      rfl

/-- **Nobody is overtaken.** Whoever leaves the queue in a step, and has not given up, had nobody in front of
him who still waited, or the pool is closed in it. -/
theorem step_in_order (h : Accounts [] w none 0) (hx : w.work? x = some (.acquire owner .queued))
    (hs : (w.step s).work? x ≠ none) {front back : List Ticket} (hq : w.queue = front ++ x :: back)
    (hleft : x ∉ (w.step s).queue) : (∃ onDrained, w.Closes s onDrained) ∨ ∀ y ∈ front, w.waits y = false := by
  have hmem : x ∈ w.queue := hq ▸ List.mem_append_right _ List.mem_cons_self
  have habsent : ∀ y, w.Absent s y → w.waits y = false := by
    intro y hy
    by_contra hwaits
    have hwaits : w.waits y = true := by simpa using hwaits
    obtain ⟨other, hwork⟩ := waits_work hwaits
    exact hleft (step_gives_up h hwork (hy hwaits (work?_lt h.issued hwork)) hx hs ▸ hmem)
  have hpresent : ¬ w.Absent s x := fun ha => by
    have hwaits := habsent x ha
    simp [waits, hx] at hwaits
  have hqueue := (step_effect w s).queue
  generalize (w.step s).queue = q at hqueue hleft
  cases hqueue with
  | stays => exact absurd hmem hleft
  | joins => exact absurd (List.mem_append_left _ hmem) hleft
  | @serves _ gone rest x' he hgone =>
    have hnodup := he ▸ queue_nodup h
    have hnot : x ∉ gone := fun hin => hpresent (hgone x hin)
    obtain rfl : x = x' := by
      rw [he] at hmem
      rcases List.mem_append.1 hmem with hin | hin
      · exact absurd hin hnot
      · exact (List.mem_cons.1 hin).resolve_right hleft
    obtain ⟨rfl, -, -⟩ := (List.append_cons_inj_of_notMem hnot hleft).1 (he.symm.trans hq)
    exact .inr fun y hy => habsent y (hgone y hy)
  | empties hall => exact absurd (hall x hmem) hpresent
  | closes hc => exact .inl ⟨_, hc⟩

/-- **First come, first served.** In a pool that can start attempts, between
any two steps of any run: somebody waits only where the pool is open, full and
has nothing idle; whoever asks while others wait takes the last place behind
them; nobody stands in the queue twice; later it has lost those in front, and they
do not come back, and others joined it behind the rest; and whoever waits has one
place in the queue or one attempt made for him, and gives up, goes on waiting, or
gets a released connection, the result of that attempt or the news of the close.
As long as he does not give up he leaves the queue only when nobody in front of him
waits any more, or when the pool is closed. -/
theorem steps_fifo (config : Config) (peers : List Peer) (run : List Step) (l : Ledger)
    (hl : ((new config true peers).steps run).ledger = some l) :
    let w := (new config true peers).steps run
    (l.waiters ≠ [] → l.closing = false ∧ l.idleCount = 0 ∧ w.limit ≤ l.count) ∧
    (∀ t owner, l.waiters ≠ [] → w.work? t = some (.acquire owner .start) →
      (w.step (.run t)).queue = l.waiters ++ [t] ∧
      (w.step (.run t)).work? t = some (.acquire owner .queued)) ∧
    l.waiters.Nodup ∧
    (∀ later, ∃ gone rest joined, l.waiters = gone ++ rest ∧ (w.steps later).queue = rest ++ joined ∧
      (∀ x ∈ gone, x ∉ (w.steps later).queue) ∧ ∀ x ∈ joined, x ∉ l.waiters) ∧
    ∀ x owner, w.work? x = some (.acquire owner .queued) →
      l.waiters.count x + (w.tasks.countP fun task => task.work.serves? = some x) = 1 ∧
      ∀ s, (s = .request (.cancel owner) ∧ (w.step s).work? x = none) ∨
        (((w.step s).work? x = some (.acquire owner .queued) ∨
          ∃ result, (w.step s).work? x = some (.acquire owner (.handed result)) ∧ Resolved w x s result) ∧
        ∀ front back, l.waiters = front ++ x :: back → x ∉ (w.step s).queue →
          (∃ onDrained, w.Closes s onDrained) ∨ ∀ y ∈ front, w.waits y = false) := by
  intro w
  have ha : Accounts [] w none 0 := (Accounts.new config true peers).steps run
  have ho : l.Orderly w.limit := steps_orderly config peers run hl
  have hqueue : w.queue = l.waiters := queue_eq hl
  have hnodup : l.waiters.Nodup := hqueue ▸ queue_nodup ha
  refine ⟨ho, fun t owner hq ht => run_start_queued hl ho hq ht, hnodup, fun later => ?_, fun x owner hw =>
    ⟨one_place ha hl hw, fun s => ?_⟩⟩
  · obtain ⟨gone, rest, joined, hq, hq', hnew⟩ := queue_along ha later
    rw [hqueue] at hq hnew
    refine ⟨gone, rest, joined, hq, hq', fun x hx hmem => ?_, hnew⟩
    rw [hq'] at hmem
    rcases List.mem_append.1 hmem with hrest | hjoined
    · exact (List.disjoint_of_nodup_append (hq ▸ hnodup)) hx hrest
    · exact hnew x hjoined (hq ▸ List.mem_append_left _ hx)
  · rcases step_waiting ha hw s with hgone | hgoes
    · exact .inl hgone
    · refine .inr ⟨hgoes, fun front back hq hleft => ?_⟩
      refine step_in_order ha hw ?_ (hqueue.trans hq) hleft
      rcases hgoes with hstill | ⟨result, hhanded, -⟩
      · simp [hstill]
      · simp [hhanded]

/-- A run in which two callers wait for the only connection. -/
def crowded : Service :=
  (new narrow true [plainPeer]).steps [.request (.acquire "a"), .run 0, .request (.acquire "b"), .run 1,
    .request (.acquire "c"), .run 2]

/-- The second one waits as long as the first does. -/
theorem steps_fifo_crowded :
    ∃ l, crowded.ledger = some l ∧ l.waiters = [1, 2] ∧ narrow.maxPoolSize ≤ l.count ∧
      ∀ s, s ≠ .request (.cancel "c") → (∀ onDrained, ¬ crowded.Closes s onDrained) → 2 ∈ (crowded.step s).queue := by
  have hl : crowded.ledger = some { count := 1, waiters := [1, 2] } := by decide +kernel
  have hfirst : crowded.waits 1 = true := by decide +kernel
  have hsecond : crowded.work? 2 = some (.acquire "c" .queued) := by
    obtain ⟨owner, hw⟩ := waits_work (w := crowded) (x := 2) (by decide +kernel)
    have howner : (crowded.work? 2).bind Work.owner? = some "c" := by decide +kernel
    rw [hw] at howner
    cases howner
    exact hw
  obtain ⟨hbusy, -, -, -, hwaits⟩ := steps_fifo narrow [plainPeer] _ _ hl
  refine ⟨_, hl, rfl, (hbusy (by simp)).2.2, fun s hs hopen => ?_⟩
  by_contra hleft
  rcases (hwaits 2 "c" hsecond).2 s with ⟨hcancel, -⟩ | ⟨-, horder⟩
  · exact hs hcancel
  rcases horder [1] [] rfl hleft with ⟨onDrained, hclose⟩ | hnobody
  · exact hopen onDrained hclose
  · cases hfirst.symm.trans (hnobody 1 List.mem_cons_self)

end Service

end SmtpClient.Pool
