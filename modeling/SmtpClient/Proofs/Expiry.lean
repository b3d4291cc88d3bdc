/-
When idle connections expire. A connection that is parked has been so since it was released and
keeps the deadline that it got then (`steps_parked`), whatever expiry tasks of earlier parkings
are left. So what an expiry task takes was idle for the whole timeout, and it touches nothing else
(`steps_expired`).
-/
import SmtpClient.Proofs.Breakage

namespace SmtpClient.Pool.Service

variable {w w' : Service} {s : Step} {t : Ticket} {c : Connection} {p : Place} {id deadline due : Nat}

/-! ## Who holds a pool -/

/-- A pool that is there is held by its callers or by a task. -/
def Attended (w : Service) : Prop :=
  w.ledger ≠ none → w.handle = true ∨ ∃ task ∈ w.tasks, task.work.holdsPool = true

/-- Callers let the pool go only when they say so. -/
theorem ask_handle {q : Request} (h : w.ask q = .ok w') (hdrop : q ≠ .dropPool)
    (hcancel : ∀ owner, q ≠ .cancel owner) : w'.handle = w.handle := by
  cases q with
  | acquire | shutdown =>
    simp only [ask] at h
    obtain ⟨-, rfl⟩ := withPool_ok h
    rfl
  | exchange | closeConnection | setBroken =>
    obtain ⟨c, -, h⟩ := withHeld_ok h
    cases h
    rfl
  | release owner =>
    obtain ⟨c, -, h⟩ := withHeld_ok h
    obtain ⟨-, rfl⟩ := withPool_ok h
    exact (inward_release _ c).handle
  | drop owner =>
    obtain ⟨c, -, h⟩ := withHeld_ok h
    cases h
    exact (inward_vacate _ _).handle
  | cancel owner => exact absurd rfl (hcancel owner)
  | abandon owner =>
    cases h
    unfold abandon
    split <;> rfl
  | closePool callback => exact (inward_closePool (closePool_ok h).2).handle
  | dropPool => exact absurd rfl hdrop

namespace Attended

theorem new (config : Config) (spawns : Bool) (peers : List Peer) : (Service.new config spawns peers).Attended :=
  fun _ => .inl rfl

/-- What is held is not let go. -/
theorem reap_eq (h : w.Attended) : w.reap = w := by
  rcases Service.reap_eq w with he | ⟨he, hh, ht⟩
  · exact he
  rw [he]
  cases hl : w.ledger with
  | none => rw [← hl]
  | some l =>
    rcases h (by simp [hl]) with hheld | ⟨task, hmem, hheld⟩
    · exact absurd (hh.symm.trans hheld) Bool.false_ne_true
    · exact absurd ((ht task hmem).symm.trans hheld) Bool.false_ne_true

theorem of_reap (w : Service) : w.reap.Attended := by
  unfold reap
  split
  · next hheld => exact fun _ => by simpa using hheld
  · exact fun hl => absurd rfl hl

/-- A request takes the pool from no task but one that is cancelled. -/
theorem ask (h : w.Attended) (ha : Accounts [] w none 0) {q : Request} (hq : w.ask q = .ok w')
    (hdrop : q ≠ .dropPool) (hcancel : ∀ owner, q ≠ .cancel owner) : w'.Attended := by
  have hstep : w.step (.request q) = w' := by simp only [step, hq, Except.toOption, Option.getD_some]
  intro hl'
  have hl : w.ledger ≠ none := by
    obtain ⟨l', hl'⟩ := Option.ne_none_iff_exists'.1 hl'
    obtain ⟨l, _, hl, -⟩ := step_ledger (hstep ▸ hl')
    simp [hl]
  rcases h hl with hh | ⟨task, hmem, hheld⟩
  · exact .inl ((ask_handle hq hdrop hcancel).trans hh)
  have ht := work?_eq ha.tickets hmem
  right
  suffices hw : ∃ work, w'.work? task.ticket = some work ∧ work.holdsPool = true by
    obtain ⟨work, hw, hheld⟩ := hw
    obtain ⟨task', hmem', -, rfl⟩ := work?_some hw
    exact ⟨task', hmem', hheld⟩
  rcases (Effect.ask hq).work task.ticket with he | ⟨work', he, hc⟩ | ⟨-, hends⟩
  · exact ⟨_, he.trans ht, hheld⟩
  · cases hc with
    | starts hn _ => exact absurd (work?_lt ha.issued ht) (Nat.not_lt.2 hn)
    | handed | drained => exact ⟨_, he, rfl⟩
  · rcases hends.reason ha.tickets ht with hrun | ⟨owner, -, hgone | ⟨-, _, _, _, hx⟩⟩
    · cases hrun
    · cases hgone
      exact absurd rfl (hcancel owner)
    · rw [hx] at hheld
      cases hheld

theorem step (h : w.Attended) (ha : Accounts [] w none 0) (s : Step) : (w.step s).Attended := by
  cases s with
  | request q =>
    simp only [Service.step]
    cases hq : w.ask q with
    | error e => exact h
    | ok w' =>
      show w'.Attended
      cases q with
      | cancel owner =>
        cases hq
        unfold Service.cancel
        split
        · exact of_reap _
        · exact h
      | dropPool =>
        cases hq
        exact of_reap _
      | _ => exact h.ask ha hq (by simp) (by simp)
  | run t =>
    simp only [Service.step, run]
    split
    · exact h
    · exact of_reap _
  | tick ms => exact h

theorem steps (h : w.Attended) (ha : Accounts [] w none 0) (run : List Step) : (w.steps run).Attended := by
  induction run generalizing w with
  | nil => exact h
  | cons s run ih => exact ih (h.step ha s) (ha.step s)

end Attended

/-! ## What is parked -/

/-- In a run this connection came to be parked, and has been there ever since with this deadline. -/
def RestsSince (w : Service) (run : List Step) (id : Nat) (c : Connection) (due : Nat) : Prop :=
  ∃ before s after, run = before ++ s :: after ∧ Parks (w.steps before) s id c due ∧
    ∀ mid, mid <+: after → (w.steps (before ++ s :: mid)).ParkedUntil id c due

theorem RestsSince.mono {run : List Step} (h : w.RestsSince run id c due)
    (hp : (w.steps (run ++ [s])).ParkedUntil id c due) : w.RestsSince (run ++ [s]) id c due := by
  obtain ⟨before, s₀, after, rfl, hparks, hrests⟩ := h
  refine ⟨before, s₀, after ++ [s], by simp, hparks, fun mid hmid => ?_⟩
  rcases List.prefix_concat_iff.1 hmid with rfl | hmid
  · simpa using hp
  · exact hrests mid hmid

/-- **Parked since.** What is parked after a run of a new pool came to be parked in it, and has been
there ever since. -/
theorem steps_parked (config : Config) (spawns : Bool) (peers : List Peer) (run : List Step)
    (h : ((new config spawns peers).steps run).ParkedUntil id c due) :
    (new config spawns peers).RestsSince run id c due := by
  induction run using List.reverseRecOn with
  | nil =>
    obtain ⟨l, hl, hmem⟩ := h
    cases hl
    cases hmem
  | append_singleton run s ih =>
    have hnow := h
    rw [steps_snoc] at h
    rcases (step_effect _ s).parked id c due h with hbefore | hparks
    · exact (ih hbefore).mono hnow
    · refine ⟨run, s, [], rfl, hparks, fun mid hmid => ?_⟩
      rw [List.prefix_nil.1 hmid]
      exact hnow

/-! ## Expiry tasks -/

/-- The task is an expiry and goes on to close this connection, which it takes out of the pool. -/
def Expires (w : Service) (t : Ticket) (c : Connection) : Prop :=
  ∃ id deadline, w.work? t = some (.expiry id deadline) ∧
    (w.step (.run t)).work? t = some (.close none true c none)

/-- What an expiry task can do: go on waiting, end, or take what is parked under its identifier and due. -/
inductive Expiring (w : Service) (t : Ticket) (id deadline : Nat) : Service → Prop where
  | waits : w.now < deadline → Expiring w t id deadline (w.await t (.expiry id deadline) (.time deadline))
  | ends : (∀ c due, w.ParkedUntil id c due → w.now < due) → Expiring w t id deadline (w.endTask t)
  | takes {l : Ledger} {c : Connection} {due : Nat} : w.ledger = some l → l.slot? id = some (.idle c due) →
    due ≤ w.now → Expiring w t id deadline
      ((w.withLedger (l.put id (.lent true))).become t (.close none true c none))

theorem Tracked.slot?_eq (h : w.Tracked) {l : Ledger} (hl : w.ledger = some l) (hmem : (id, .idle c due) ∈ l.live) :
    l.slot? id = some (.idle c due) :=
  (Ledger.lookup_eq_some (h.accounts.booked hl).ascending).2 hmem

/-- The other tasks stay as they are. -/
theorem mem_await_of_ne {task : Task} (hmem : task ∈ w.tasks) (hne : task.ticket ≠ t) (work : Work) (wait : Wait) :
    task ∈ (w.await t work wait).tasks :=
  List.mem_map.2 ⟨task, hmem, if_neg hne⟩

theorem mem_endTask_of_ne {task : Task} (hmem : task ∈ w.tasks) (hne : task.ticket ≠ t) :
    task ∈ (w.endTask t).tasks :=
  List.mem_filter.2 ⟨hmem, by simpa using hne⟩

theorem work?_become {work : Work} (ht : w.work? t = some work) (l : Ledger) (next : Work) :
    ((w.withLedger l).become t next).work? t = some next := by
  have hwork : (w.withLedger l).work? t = some work := ht
  rw [become, work?_await, if_pos rfl, hwork, Option.map_some]

/-- An expiry task does not hold the pool, so that nothing is let go where it waits or ends. -/
theorem Attended.without (h : w.Attended) (hn : (w.tasks.map Task.ticket).Nodup) (hl : w'.ledger = w.ledger)
    (hh : w'.handle = w.handle) (ht : w.work? t = some (.expiry id deadline))
    (htasks : ∀ task ∈ w.tasks, task.ticket ≠ t → task ∈ w'.tasks) : w'.Attended := by
  intro hledger
  rcases h (hl ▸ hledger) with hheld | ⟨task, hmem, hheld⟩
  · exact .inl (hh.trans hheld)
  refine .inr ⟨task, htasks task hmem ?_, hheld⟩
  rintro rfl
  have hwork := (work?_eq hn hmem).symm.trans ht
  rw [Option.some.inj hwork] at hheld
  cases hheld

theorem Tracked.expiring (h : w.Tracked) (ha : w.Attended) (ht : w.work? t = some (.expiry id deadline)) :
    Expiring w t id deadline (w.step (.run t)) := by
  have hn := h.accounts.tickets
  have hwaits : (w.await t (.expiry id deadline) (.time deadline)).Attended :=
    ha.without hn rfl rfl ht fun _ hmem hne => mem_await_of_ne hmem hne _ _
  have hends : (w.endTask t).Attended := ha.without hn rfl rfl ht fun _ hmem hne => mem_endTask_of_ne hmem hne
  simp only [Service.step, run, ht, runWork, runExpiry]
  split
  · next hlt =>
    rw [hwaits.reap_eq]
    exact .waits hlt
  split
  · next hl =>
    rw [hends.reap_eq]
    refine .ends fun c due hp => ?_
    obtain ⟨l, hl', -⟩ := hp
    cases hl.symm.trans hl'
  next l hl =>
  split
  · next hnone =>
    rw [hends.reap_eq]
    refine .ends fun c due hp => Nat.lt_of_not_le fun hdue => ?_
    obtain ⟨_, hl', hmem⟩ := hp
    cases hl.symm.trans hl'
    cases hnone.symm.trans (Ledger.takeExpired_due (h.slot?_eq hl hmem) hdue)
  · next c l' htake =>
    obtain ⟨due, hdue, hslot, rfl⟩ := Ledger.takeExpired_some htake
    obtain ⟨task, hmem, -, hwork⟩ := work?_some (work?_become ht (l.put id (.lent true)) (.close none true c none))
    rw [reap_held hmem (by rw [hwork]; rfl)]
    exact .takes hl hslot hdue

/-- What an expiry task takes is parked under its identifier, and due. -/
theorem Tracked.expires (h : w.Tracked) (ha : w.Attended) (ht : w.work? t = some (.expiry id deadline))
    (he : w.Expires t c) : c.id = id ∧ ∃ due, w.ParkedUntil id c due ∧ due ≤ w.now := by
  obtain ⟨_, _, -, hclose⟩ := he
  generalize hw' : w.step (.run t) = w' at hclose
  cases hw' ▸ h.expiring ha ht with
  | waits =>
    rw [work?_await, if_pos rfl, ht] at hclose
    cases hclose
  | ends =>
    rw [work?_endTask, if_pos rfl] at hclose
    cases hclose
  | @takes l c₀ due hl hslot hdue =>
    cases (work?_become ht _ _).symm.trans hclose
    have hmem := Ledger.slot?_mem hslot
    exact ⟨h.slot_id hl hmem, due, ⟨l, hl, hmem⟩, hdue⟩

/-- An expiry task that holds the pool when it has run took something out of it. -/
theorem Tracked.expires_of_holdsPool (h : w.Tracked) (ha : w.Attended) (ht : w.work? t = some (.expiry id deadline))
    (hh : ((w.step (.run t)).work? t).any Work.holdsPool = true) : ∃ c, w.Expires t c := by
  generalize hw' : w.step (.run t) = w' at hh
  cases hw' ▸ h.expiring ha ht with
  | waits =>
    rw [work?_await, if_pos rfl, ht] at hh
    cases hh
  | ends =>
    rw [work?_endTask, if_pos rfl] at hh
    cases hh
  | @takes l c due =>
    exact ⟨c, id, deadline, ht, hw' ▸ work?_become ht _ _⟩

/-- Only a task that has no connection can be an expiry. -/
theorem owns_expiry (ht : w.work? t = some (.expiry id deadline)) (hn : (w.tasks.map Task.ticket).Nodup) {task : Task}
    (hmem : task ∈ w.tasks) (ho : task.owns = some (c, p)) : task.ticket ≠ t := by
  rintro rfl
  have hwork := Option.some.inj ((work?_eq hn hmem).symm.trans ht)
  simp [Task.owns, hwork] at ho

/-- Whoever has a connection keeps it, unless it is parked under the identifier of the expiry and due. -/
theorem Tracked.spared (h : w.Tracked) (ha : w.Attended) (ht : w.work? t = some (.expiry id deadline))
    (hc : w.Has c p) (hdue : ∀ due, w.ParkedUntil id c due → w.now < due) : (w.step (.run t)).Has c p := by
  have hn := h.accounts.tickets
  have hexp := h.expiring ha ht
  generalize w.step (.run t) = w' at hexp ⊢
  cases hc with
  | held hmem => cases hexp <;> exact .held hmem
  | task hmem ho =>
    have hne := owns_expiry ht hn hmem ho
    cases hexp with
    | waits => exact .task (mem_await_of_ne hmem hne _ _) ho
    | ends => exact .task (mem_endTask_of_ne hmem hne) ho
    | takes => exact .task (mem_await_of_ne (w := w.withLedger _) hmem hne _ _) ho
  | @parked l id' due _ hl hmem =>
    cases hexp with
    | waits => exact .parked hl hmem
    | ends => exact .parked hl hmem
    | @takes l' c₀ due₀ hl' hslot hdue₀ =>
      cases hl.symm.trans hl'
      have hne : id' ≠ id := by
        rintro rfl
        cases hslot.symm.trans (h.slot?_eq hl hmem)
        exact Nat.not_lt.2 hdue₀ (hdue due ⟨l, hl, hmem⟩)
      have hkept : (l.put id (.lent true)).slot? id' = some (.idle c due) := by
        rw [Ledger.slot?_put, if_neg hne]
        exact h.slot?_eq hl hmem
      exact .parked rfl (Ledger.slot?_mem hkept)

/-- Who expires a connection has it, and nobody else gets it. -/
theorem Tracked.expired_along (h : w.Tracked) (he : w.Expires t c) (later : List Step) :
    ∀ c' p, ((w.step (.run t)).steps later).Has c' p → c'.id = c.id → p = .closing t := by
  obtain ⟨_, _, -, hclose⟩ := he
  have hc : (w.step (.run t)).Has c (.closing t) := has_work hclose rfl
  have h' := h.step (.run t)
  refine h'.along (Q := fun _ _ p => p = .closing t) (h'.taken_of_has hc) ?_ ?_ later
  · rintro w s c p c' p' - - hd - rfl
    exact hd.closing t rfl
  · exact fun c' p hc' hid => (h'.unique hc hc' hid).2

/-- **Nothing expires that was used in between.** An expiry task that runs takes a connection only under
its own identifier, and only one that has been parked without a break since it was released, the whole
timeout ago or longer. From then on this task alone has it, and no task takes it again. Every other
connection stays where it is: what is lent, what is being closed, what is parked under another identifier
and what was parked again with a later deadline. Where nothing is taken nothing changes but that the task
is over, or waits for its time. -/
theorem steps_expired (config : Config) (spawns : Bool) (peers : List Peer) (run : List Step) :
    let start := new config spawns peers
    let w := start.steps run
    ∀ t id deadline, w.work? t = some (.expiry id deadline) →
      let w' := w.step (.run t)
      (∀ c, w.Expires t c → c.id = id ∧
        (∃ before s after c₀, run = before ++ s :: after ∧ Released (start.steps before) s c₀ ∧
          c = { c₀ with status := .idle } ∧
          let due := (start.steps before).now + config.idleTimeout
          due ≤ w.now ∧ ∀ mid, mid <+: after → (start.steps (before ++ s :: mid)).ParkedUntil id c due) ∧
        (∀ later c' p, (c', p) ∈ (w'.steps later).connections → c'.id = id → p = .closing t) ∧
        ∀ later t' c', (w'.steps later).Expires t' c' → c'.id ≠ id) ∧
      (∀ c p, (c, p) ∈ w.connections → (∀ due, w.ParkedUntil id c due → w.now < due) → (c, p) ∈ w'.connections) ∧
      ((∀ c, ¬ w.Expires t c) → w' = w.endTask t ∨ w' = w.await t (.expiry id deadline) (.time deadline)) := by
  intro start w t id deadline ht w'
  have h : w.Tracked := (Tracked.new config spawns peers).steps run
  have ha : w.Attended := (Attended.new config spawns peers).steps (Accounts.new config spawns peers) run
  refine ⟨fun c he => ?_, fun c p hc hdue => ?_, fun hnone => ?_⟩
  · obtain ⟨rfl, due, hparked, hdue⟩ := h.expires ha ht he
    have halong := h.expired_along he
    refine ⟨rfl, ?_, fun later c' p hc' hid => halong later c' p (mem_connections.1 hc') hid, ?_⟩
    · obtain ⟨before, s, after, hrun, hparks, hrests⟩ := steps_parked config spawns peers run hparked
      generalize hid : c.id = id at hparks hrests
      cases hparks with
      | @released c₀ hr _ =>
        have hconfig := (steps_config start before).1
        rw [hconfig] at hdue hrests
        exact ⟨before, s, after, c₀, hrun, hr, rfl, hdue, hrests⟩
    · intro later t' c' he' hid
      have h' := (h.step (.run t)).steps later
      have ha' := (ha.step h.accounts (.run t)).steps (h.accounts.step _) later
      obtain ⟨id', deadline', ht', hclose⟩ := he'
      obtain ⟨-, due', ⟨l, hl, hmem⟩, -⟩ := h'.expires ha' ht' ⟨id', deadline', ht', hclose⟩
      cases halong later c' _ (.parked hl hmem) hid
  · exact mem_connections.2 (h.spared ha ht (mem_connections.1 hc) hdue)
  · have hexp := h.expiring ha ht
    show w.step (.run t) = _ ∨ w.step (.run t) = _
    generalize hw' : w.step (.run t) = w₁ at hexp ⊢
    cases hexp with
    | waits => exact .inr rfl
    | ends => exact .inl rfl
    | @takes l c due hl hslot hdue =>
      exact absurd ⟨id, deadline, ht, hw' ▸ work?_become ht _ _⟩ (hnone c)

/-! A connection that is used and parked again, with the expiry task of its first parking left. -/

/-- A server that answers one command. -/
def brief : Peer where
  connect := .ok { arrivals := [.data "220 a\r\n250 a\r\n250 a\r\n".toUTF8.toList] }
  upgrade := fun _ => .error (.notSupported "STARTTLS")

def hasty : Config := { narrow with idleTimeout := 30 }

def reparking : List Step :=
  [.request (.acquire "a"), .run 0, .run 0, .run 0, .run 0, .request (.release "a"), .tick 20,
    .request (.acquire "a"), .run 2, .run 2, .request (.release "a"), .tick 20]

def reparked : Service := (new hasty true [brief]).steps reparking

/-- What is parked for the second time. -/
def rested : Connection where
  id := 1
  transport := { stream := { arrivals := [], outbound := { attempted := [.ehlo "localhost", .rset] } } }
  info := { hostname := "a" }
  status := .idle

theorem isExpiry {work : Option Work} (h : work.any (fun
      | .expiry id' deadline' => id' = id && deadline' = deadline
      | _ => false) = true) : work = some (.expiry id deadline) := by
  obtain ⟨work, rfl, hb⟩ := (Option.any_eq_true _ _).1 h
  cases work with
  | expiry id' deadline' =>
    obtain ⟨rfl, rfl⟩ : id' = id ∧ deadline' = deadline := by simpa using hb
    rfl
  | _ => cases hb

/-- The task of the first parking leaves it alone; that of the second takes it, when its time has come. -/
theorem steps_expired_reused :
    (reparked.now = 40 ∧ reparked.work? 1 = some (.expiry 1 30) ∧
      (rested, .slot 1) ∈ (reparked.step (.run 1)).connections) ∧
    let late := (new hasty true [brief]).steps (reparking ++ [.run 1, .tick 10])
    ∃ c, late.Expires 3 c ∧ ∀ later t' c', ((late.step (.run 3)).steps later).Expires t' c' → c'.id ≠ 1 := by
  have hnow : reparked.now = 40 := by decide +kernel
  have hl : reparked.ledger = some { count := 1, live := [(1, .idle rested 50)] } := by decide +kernel
  have hold : reparked.work? 1 = some (.expiry 1 30) := isExpiry (by decide +kernel)
  have hc : (rested, .slot 1) ∈ reparked.connections := mem_connections.2 (.parked hl List.mem_cons_self)
  refine ⟨⟨hnow, hold, (steps_expired hasty true [brief] reparking 1 1 30 hold).2.1 _ _ hc fun due hp => ?_⟩, ?_⟩
  · obtain ⟨l, hl', hmem⟩ := hp
    cases hl.symm.trans hl'
    cases List.mem_singleton.1 hmem
    rw [show ((new hasty true [brief]).steps reparking).now = 40 from hnow]
    decide
  · intro late
    have ht : late.work? 3 = some (.expiry 1 50) := isExpiry (by decide +kernel)
    have h : late.Tracked := (Tracked.new hasty true [brief]).steps _
    have ha : late.Attended := (Attended.new hasty true [brief]).steps (Accounts.new hasty true [brief]) _
    obtain ⟨c, he⟩ := h.expires_of_holdsPool ha ht (by decide +kernel)
    exact ⟨c, he, ((steps_expired hasty true [brief] _ 3 1 50 ht).1 c he).2.2.2⟩

end SmtpClient.Pool.Service
