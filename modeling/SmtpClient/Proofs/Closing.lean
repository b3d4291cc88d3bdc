/-
What a closing pool still opens. A slot that was counted before the close is
not looked at again: whoever has it connects (`Connects.goes`), and nobody else
does (`Shutting.due_step`). A caller for whom none is counted learns `poolClosed`.
-/
import SmtpClient.Proofs.Close
import SmtpClient.Proofs.Queue

namespace SmtpClient.Pool

/-- Has a slot counted and has not begun to connect. -/
def Work.due : Work → Bool
  | .acquire _ (.discarding _ true) | .acquire _ (.opening .reserved) | .serve _ .reserved => true
  | _ => false

/-- Has no slot in a closing pool, and nobody makes an attempt for it. -/
def Acquire.barred : Acquire → Bool
  | .start | .unsound _ | .discarding _ false | .handed (.error .poolClosed) => true
  | _ => false

namespace Service

variable {w w' : Service} {s : Step} {l : Ledger} {t x : Ticket} {owner : String}
  {onDrained : Option DrainCall}

/-- How many tasks have a slot counted and have not begun to connect. -/
def due (w : Service) : Nat :=
  w.tasks.countP fun task => task.work.due

/-! ## Whoever waits when the pool closes -/

theorem work?_refused {ts : List Ticket} {step : Acquire} (h : w.work? x = some (.acquire owner step))
    (hs : (step = .queued ∧ x ∈ ts) ∨ step = .handed (.error .poolClosed)) :
    (ts.foldl refuse w).work? x = some (.acquire owner (.handed (.error .poolClosed))) := by
  induction ts generalizing w step with
  | nil =>
    rcases hs with ⟨-, hmem⟩ | rfl
    · cases hmem
    · exact h
  | cons t ts ih =>
    rw [List.foldl_cons]
    by_cases hx : x = t
    · subst hx
      refine ih ?_ (.inr rfl)
      rcases hs with ⟨rfl, -⟩ | rfl
      · exact work?_deliver_self h
      · simp only [refuse, deliver, h]
    · refine ih ((work?_deliver_ne hx).trans h) (hs.imp_left (And.imp_right fun hmem => ?_))
      exact (List.mem_cons.1 hmem).resolve_left hx

theorem closePool_refuses (hl : w.ledger = some l) (hmem : x ∈ l.waiters)
    (h : w.work? x = some (.acquire owner .queued)) (hc : w.closePool onDrained = some w') :
    w'.work? x = some (.acquire owner (.handed (.error .poolClosed))) := by
  simp only [closePool, hl] at hc
  split at hc
  · cases hc
  next closing l' hb =>
  cases hc
  obtain ⟨-, hwaiters, -⟩ := Ledger.beginClose_some hb
  have hrefused : (closing.waiters.foldl refuse (w.withLedger l')).work? x =
      some (.acquire owner (.handed (.error .poolClosed))) :=
    work?_refused (w := w.withLedger l') h (.inl ⟨rfl, hwaiters ▸ hmem⟩)
  refine work?_finish ?_ _
  generalize closing.waiters.foldl refuse (w.withLedger l') = w₁ at hrefused
  induction closing.idle generalizing w₁ with
  | nil => exact hrefused
  | cons c rest ih => exact ih _ (work?_spawn_some hrefused _)

/-- Whoever stands in the queue of a pool that is closed learns it. -/
theorem Closes.refuses (h : w.Closes s onDrained) (hl : w.ledger = some l) (hopen : l.closing = false)
    (hmem : x ∈ l.waiters) (hq : w.work? x = some (.acquire owner .queued)) :
    (w.step s).work? x = some (.acquire owner (.handed (.error .poolClosed))) := by
  have hnone : ∀ {w' : Service} {onDrained}, w'.ledger = some l → w'.closePool onDrained ≠ none := by
    intro w' onDrained hl' hn
    exact absurd (hopen.symm.trans (closePool_none hl' hn)) Bool.false_ne_true
  cases h with
  | @request callback hh =>
    simp only [Service.step, ask, hh, if_true]
    split
    · next hc => exact closePool_refuses hl hmem hq hc
    · next hc => exact absurd hc (hnone hl)
  | @shutdown t other ht =>
    have hne : x ≠ t := by
      rintro rfl
      cases hq.symm.trans ht
    have hl' : (w.await t (.shutdown other .draining) .other).ledger = some l := hl
    have hq' : (w.await t (.shutdown other .draining) .other).work? x = some (.acquire owner .queued) := by
      rw [work?_await, if_neg hne]
      exact hq
    simp only [Service.step, Service.run, ht, runWork, runShutdown, work?_reap]
    split
    · next hc => exact closePool_refuses hl' hmem hq' hc
    · next hc => exact absurd hc (hnone hl')

/-! ## Who has a slot -/

theorem connects_reap (w : Service) : w.reap.connects = w.connects := by
  unfold reap
  split <;> rfl

theorem step_reserved (ht : w.work? t = some (.acquire owner (.opening .reserved))) :
    (w.step (.run t)).connects = w.connects + 1 ∧
      (w.step (.run t)).work? t = some (.acquire owner (.opening (.attempting w.connect.1))) := by
  have hself : w.connect.2.work? t = some (.acquire owner (.opening .reserved)) := ht
  simp only [Service.step, run, ht, runWork, runAcquire, runOpening, work?_reap, work?_await, connects_reap, hself]
  exact ⟨rfl, if_pos trivial⟩

theorem step_reserved_serve (ht : w.work? t = some (.serve x .reserved)) :
    (w.step (.run t)).connects = w.connects + 1 ∧
      (w.step (.run t)).work? t = some (.serve x (.attempting w.connect.1)) := by
  have hself : w.connect.2.work? t = some (.serve x .reserved) := ht
  simp only [Service.step, run, ht, runWork, runServe, runOpening, work?_reap, work?_await, connects_reap, hself]
  exact ⟨rfl, if_pos trivial⟩

/-- Whoever has a slot connects, closing or not, and then has none to connect for. -/
theorem Connects.goes (h : w.Connects s) : (w.step s).connects = w.connects + 1 ∧
    ∃ t work work', s = .run t ∧ w.work? t = some work ∧ work.due = true ∧
      (w.step s).work? t = some work' ∧ work'.due = false := by
  cases h with
  | acquire ht =>
    obtain ⟨hone, hw⟩ := step_reserved ht
    exact ⟨hone, _, _, _, rfl, ht, rfl, hw, rfl⟩
  | serve ht =>
    obtain ⟨hone, hw⟩ := step_reserved_serve ht
    exact ⟨hone, _, _, _, rfl, ht, rfl, hw, rfl⟩

theorem not_open (hl : w.ledger = some l) (hc : l.closing = true) {l' : Ledger} (hl' : w.ledger = some l') :
    l'.closing ≠ false := by
  cases hl.symm.trans hl'
  simp [hc]

/-- In a closing pool nobody gets a slot any more. -/
theorem Comes.due {work : Work} (h : Comes w s t work) (hd : work.due = true) (hl : w.ledger = some l)
    (hc : l.closing = true) (hw : l.waiters = []) : ∃ before, w.work? t = some before ∧ before.due = true := by
  have hopen : ∀ {l'}, w.ledger = some l' → l'.closing ≠ false := not_open hl hc
  cases h with
  | starts _ hs =>
    cases hs with
    | serve hq => simp [queue_eq hl, hw] at hq
    | _ => cases hd
  | goes ht hg =>
    cases hg with
    | create hl' ho => exact absurd ho (hopen hl')
    | replace => exact ⟨_, ht, rfl⟩
    | reserve hl' =>
      cases hl.symm.trans hl'
      rcases l.reserveReplacement_cases with ⟨-, hr⟩ | ⟨ho, -⟩
      · rw [hr] at hd
        cases hd
      · exact absurd ho (hopen hl)
    | opening hr => cases runOpening_goesOn hr <;> cases hd
    | serve hr => cases runOpening_goesOn hr <;> cases hd
    | _ => cases hd
  | handed => cases hd
  | drained => cases hd

/-- A pool that is closing: nobody waits in it. -/
structure Shutting (w : Service) : Prop where
  accounts : Accounts [] w none 0
  kept : w.Kept
  closing : ∀ l, w.ledger = some l → l.closing = true ∧ l.waiters = []

theorem Shutting.step (h : w.Shutting) (s : Step) : (w.step s).Shutting := by
  refine ⟨h.accounts.step s, h.kept.step s, fun l' hl' => ?_⟩
  obtain ⟨l, calls, hl, ht, -⟩ := step_ledger hl'
  obtain ⟨hc, hw⟩ := h.closing l hl
  have hs := Ledger.closing_turn ht hc
  exact ⟨hs.closing, hs.waiters.trans hw⟩

/-- No task gets a slot after the close. -/
theorem Shutting.due_step (h : w.Shutting) {work : Work} (hw : (w.step s).work? t = some work)
    (hd : work.due = true) : ∃ before, w.work? t = some before ∧ before.due = true := by
  rcases step_work hw with hw | hc
  · exact ⟨work, hw, hd⟩
  cases hl : w.ledger with
  | none =>
    -- Who has a slot holds the pool.
    have hgone : (w.step s).ledger = none := by
      by_contra hne
      obtain ⟨l', hl'⟩ := Option.ne_none_iff_exists'.1 hne
      obtain ⟨_, _, hl₁, -⟩ := step_ledger hl'
      cases hl.symm.trans hl₁
    have hfree := (h.kept.step s hgone).2 t work hw
    cases work with
    | acquire | serve => cases hfree
    | _ => cases hd
  | some l =>
    obtain ⟨hclosing, hwaiters⟩ := h.closing l hl
    exact hc.due hd hl hclosing hwaiters

/-- Each connect is begun by a task that had a slot, and has none afterwards. -/
theorem Shutting.count_step (h : w.Shutting) (s : Step) :
    (w.step s).connects + (w.step s).due ≤ w.connects + w.due := by
  have hcount : ∀ w : Service, ((w.tasks.filter fun task => task.work.due).map Task.ticket).length = w.due :=
    fun w => by rw [List.length_map, due, List.countP_eq_length_filter]
  have hmem : ∀ {t}, t ∈ (w.tasks.filter fun task => task.work.due).map Task.ticket ↔
      ∃ work, w.work? t = some work ∧ work.due = true := mem_tickets h.accounts.tickets Work.due
  have hmem' : ∀ {t}, t ∈ ((w.step s).tasks.filter fun task => task.work.due).map Task.ticket ↔
      ∃ work, (w.step s).work? t = some work ∧ work.due = true :=
    mem_tickets (h.step s).accounts.tickets Work.due
  have hnodup : ((w.step s).tasks.filter fun task => task.work.due).map Task.ticket |>.Nodup :=
    (h.step s).accounts.tickets.sublist (List.filter_sublist.map _)
  have hsub : ∀ t ∈ ((w.step s).tasks.filter fun task => task.work.due).map Task.ticket,
      t ∈ (w.tasks.filter fun task => task.work.due).map Task.ticket := by
    intro t ht
    obtain ⟨work, hw, hd⟩ := hmem'.1 ht
    exact hmem.2 (h.due_step hw hd)
  rw [← hcount, ← hcount]
  rcases (step_effect w s).connects with ⟨hc, -⟩ | ⟨hc, -⟩
  · rw [hc]
    exact Nat.add_le_add_left (List.subperm_of_subset hnodup hsub).length_le _
  · obtain ⟨hone, t, work, work', -, hw, hd, hw', hd'⟩ := hc.goes
    have hout : t ∉ ((w.step s).tasks.filter fun task => task.work.due).map Task.ticket := by
      intro ht
      obtain ⟨work₁, hw₁, hd₁⟩ := hmem'.1 ht
      cases hw'.symm.trans hw₁
      exact Bool.false_ne_true (hd'.symm.trans hd₁)
    have hlen := (List.subperm_of_subset (List.nodup_cons.2 ⟨hout, hnodup⟩)
      (List.cons_subset.2 ⟨hmem.2 ⟨work, hw, hd⟩, hsub⟩)).length_le
    rw [List.length_cons] at hlen
    omega

theorem Shutting.count_steps (h : w.Shutting) (later : List Step) :
    (w.steps later).connects + (w.steps later).due ≤ w.connects + w.due := by
  induction later generalizing w with
  | nil => exact Nat.le_refl _
  | cons s later ih => exact (ih (h.step s)).trans (h.count_step s)

theorem Shutting.due_steps (h : w.Shutting) {later : List Step} {work : Work}
    (hw : (w.steps later).work? t = some work) (hd : work.due = true) :
    ∃ before, w.work? t = some before ∧ before.due = true := by
  induction later generalizing w with
  | nil => exact ⟨work, hw, hd⟩
  | cons s later ih =>
    obtain ⟨before, hb, hd⟩ := ih (h.step s) hw
    exact h.due_step hb hd

/-! ## Who has none -/

/-- An acquire without a slot that runs goes on without one, or fails. -/
theorem act_barred {step : Acquire} (hl : w.ledger = some l) (hc : l.closing = true)
    (ht : w.work? t = some (.acquire owner step)) (hb : step.barred = true)
    (hnone : (w.step (.run t)).work? t = none) :
    (w.act (.run t)).events = w.events ++ [(owner, .failed .poolClosed)] := by
  cases step with
  | start => rw [run_start_closing hl hc ht]; rfl
  | unsound c =>
    have hself : (w.withLedger l.reserveReplacement.2).work? t = some (.acquire owner (.unsound c)) := ht
    simp only [Service.step, run, ht, runWork, runAcquire, hl, work?_reap, become, work?_await, hself] at hnone
    simp at hnone
  | discarding c replaced =>
    cases replaced with
    | true => cases hb
    | false =>
      have hev : (w.discard c).events = w.events := events_vacate w _
      simp only [act, ht, runWork, runAcquire, conclude, tell, endTask, hev]
  | handed result =>
    cases result with
    | ok c => cases hb
    | error e =>
      cases e with
      | poolClosed => simp only [act, ht, runWork, runAcquire, conclude, tell, endTask]
      | _ => cases hb
  | _ => cases hb

/-- What becomes of an acquire without a slot in one step. -/
theorem Shutting.barred_step (h : w.Shutting) {step : Acquire} (ht : w.work? t = some (.acquire owner step))
    (hb : step.barred = true) (s : Step) :
    (∃ step', (w.step s).work? t = some (.acquire owner step') ∧ step'.barred = true) ∨
    s = .request (.cancel owner) ∨
    (s = .run t ∧ (w.act s).events = w.events ++ [(owner, .failed .poolClosed)]) := by
  obtain ⟨l, hl⟩ := h.kept.ledger ht rfl
  obtain ⟨hclosing, -⟩ := h.closing l hl
  have hopen : ∀ {l'}, w.ledger = some l' → l'.closing ≠ false := not_open hl hclosing
  rcases (step_effect w s).work t with he | ⟨work, hw, hc⟩ | ⟨hnone, hends⟩
  · exact .inl ⟨step, he.trans ht, hb⟩
  · cases hc with
    | starts hn _ => exact absurd (work?_lt h.accounts.issued ht) (Nat.not_lt.2 hn)
    | goes ht' hg =>
      cases ht.symm.trans ht'
      cases hg with
      | reuse hl' ho => exact absurd ho (hopen hl')
      | reuseFails hl' ho => exact absurd ho (hopen hl')
      | create hl' ho => exact absurd ho (hopen hl')
      | join hl' ho => exact absurd ho (hopen hl')
      | reserve hl' =>
        refine .inl ⟨_, hw, ?_⟩
        rcases Ledger.reserveReplacement_cases _ with ⟨-, hr⟩ | ⟨ho, -⟩
        · rw [hr]
          rfl
        · exact absurd ho (hopen hl')
      | _ => cases hb
    | handed hq _ =>
      cases ht.symm.trans hq
      cases hb
    | drained hq => cases ht.symm.trans hq
  · rcases hends.acquire h.accounts.tickets ht with rfl | hcancel
    · exact .inr (.inr ⟨rfl, act_barred hl hclosing ht hb hnone⟩)
    · exact .inr (.inl hcancel)

theorem Shutting.barred_steps (h : w.Shutting) {step : Acquire} (ht : w.work? t = some (.acquire owner step))
    (hb : step.barred = true) (later : List Step) :
    (∃ step', (w.steps later).work? t = some (.acquire owner step') ∧ step'.barred = true) ∨
    ∃ before s rest step', later = before ++ s :: rest ∧
      (w.steps before).work? t = some (.acquire owner step') ∧ step'.barred = true ∧
      (s = .request (.cancel owner) ∨ (s = .run t ∧
        ((w.steps before).act s).events = (w.steps before).events ++ [(owner, .failed .poolClosed)])) := by
  induction later generalizing w step with
  | nil => exact .inl ⟨step, ht, hb⟩
  | cons s later ih =>
    rcases h.barred_step ht hb s with ⟨step', ht', hb'⟩ | hends
    · rcases ih (h.step s) ht' hb' with hstays | ⟨before, s', rest, step₁, rfl, hs⟩
      · exact .inl hstays
      · exact .inr ⟨s :: before, s', rest, step₁, rfl, hs⟩
    · exact .inr ⟨[], s, later, step, rfl, ht, hb, hends⟩

/-- **What a closing pool still opens.** In every run: the step that closes the
pool refuses everybody who stands in its queue. From then on only a task that had
a slot counted at the close begins to connect, and each of them at most once; but
it does so as soon as it runs, closing or not. Whoever still waits has such a task,
or one that connected before. An acquire for which no slot is counted makes no
attempt any more and is given up or fails with `poolClosed`. -/
theorem steps_closing (config : Config) (spawns : Bool) (peers : List Peer) (run : List Step) (l : Ledger)
    (hl : ((new config spawns peers).steps run).ledger = some l) :
    let w := (new config spawns peers).steps run
    (∀ s onDrained, l.closing = false → w.Closes s onDrained →
      ∀ x owner, x ∈ l.waiters → w.work? x = some (.acquire owner .queued) →
        (w.step s).work? x = some (.acquire owner (.handed (.error .poolClosed)))) ∧
    (∀ s, w.Connects s → (w.step s).connects = w.connects + 1) ∧
    (l.closing = true →
      (∀ later s, (w.steps later).Connects s →
        ∃ t work, s = .run t ∧ w.work? t = some work ∧ work.due = true) ∧
      (∀ later, (w.steps later).connects + (w.steps later).due ≤ w.connects + w.due) ∧
      (∀ x owner, w.work? x = some (.acquire owner .queued) →
        (w.tasks.countP fun task => task.work.serves? = some x) = 1) ∧
      ∀ t owner step, w.work? t = some (.acquire owner step) → step.barred = true → ∀ later,
        (∃ step', (w.steps later).work? t = some (.acquire owner step') ∧ step'.barred = true) ∨
        ∃ before s rest step', later = before ++ s :: rest ∧
          (w.steps before).work? t = some (.acquire owner step') ∧ step'.barred = true ∧
          (s = .request (.cancel owner) ∨ (s = .run t ∧
            ((w.steps before).act s).events = (w.steps before).events ++ [(owner, .failed .poolClosed)]))) := by
  intro w
  have ha : Accounts [] w none 0 := (Accounts.new config spawns peers).steps run
  have hd : Draining (new config spawns peers) run := .steps run
  refine ⟨fun s d hopen hs x owner hmem hq => hs.refuses hl hopen hmem hq, fun s hs => hs.goes.1, fun hc => ?_⟩
  have hw : l.waiters = [] := (hd.shut l hl hc).1
  have hshut : w.Shutting := by
    refine ⟨ha, (kept_new config spawns peers).steps run, fun l' hl' => ?_⟩
    obtain rfl : l = l' := Option.some.inj (hl.symm.trans hl')
    exact ⟨hc, hw⟩
  refine ⟨fun later s hs => ?_, hshut.count_steps, fun x owner hq => ?_, fun t owner step ht hb =>
    hshut.barred_steps ht hb⟩
  · obtain ⟨-, t, work, -, rfl, hwork, hdue, -⟩ := hs.goes
    obtain ⟨before, hbefore, hd⟩ := hshut.due_steps hwork hdue
    exact ⟨t, before, rfl, hbefore, hd⟩
  · have hplace := one_place ha hl hq
    rwa [hw, List.count_nil, Nat.zero_add] at hplace

/-- A run in which the pool is closed after an attempt for a waiter was set up
and before it connects. -/
def overtaken : Service :=
  (new narrow true [plainPeer, plainPeer]).steps [.request (.acquire "a"), .run 0, .run 0, .run 0, .run 0,
    .request (.acquire "b"), .run 1, .request (.drop "a"), .request (.closePool false)]

/-- The waiter gets a connection that the closing pool opens, and is the last
who does. -/
theorem steps_closing_overtaken :
    (∃ l, overtaken.ledger = some l ∧ l.closing = true) ∧ overtaken.connects = 1 ∧
    (overtaken.step (.run 2)).connects = 2 ∧ (∀ later, (overtaken.steps later).connects ≤ 2) ∧
    (overtaken.steps [.run 2, .run 2, .run 2, .run 1]).events =
      [("a", .acquired 1 .skipped .inUse), ("b", .acquired 2 .skipped .inUse)] := by
  have hl : overtaken.ledger = some { count := 1, closing := true } := by decide +kernel
  have hone : overtaken.connects = 1 := by decide +kernel
  have hdue : overtaken.due = 1 := by decide +kernel
  obtain ⟨-, hconnects, hclosing⟩ := steps_closing narrow true [plainPeer, plainPeer] _ _ hl
  have hserves : overtaken.Connects (.run 2) := by
    have hwork : (overtaken.work? 2).map (fun work => (work.serves?, work.due)) = some (some 1, true) := by
      decide +kernel
    obtain ⟨work, hw, he⟩ := Option.map_eq_some_iff.1 hwork
    simp only [Prod.mk.injEq] at he
    cases work with
    | serve waiter step =>
      cases step with
      | reserved => exact .serve hw
      | _ => cases he.2
    | _ => cases he.1
  have htwo : overtaken.connects + 1 = 2 := by rw [hone]
  refine ⟨⟨_, hl, rfl⟩, hone, (hconnects _ hserves).trans htwo, fun later => ?_, by decide +kernel⟩
  have hbound := (hclosing rfl).2.1 later
  have hstart : overtaken.connects + overtaken.due = 2 := by rw [hone, hdue]
  exact (Nat.le_add_right _ _).trans (hbound.trans hstart.le)

end Service

end SmtpClient.Pool
