/-
What callers see of a close. An acquire that comes to a closing pool fails,
a second close is refused, and no acquire learns `poolClosed` unless there was
a close or the connector says so (`Excused`).
-/
import SmtpClient.Proofs.Drain

namespace SmtpClient.Pool.Service

variable {w : Service} {s : Step} {l : Ledger} {t x : Ticket} {owner : String} {onDrained : Option DrainCall}
  {run : List Step}

/-! ## A closing pool -/

theorem withLedger_self (h : w.ledger = some l) : w.withLedger l = w := by
  rw [withLedger, ← h]

theorem closePool_closing (hl : w.ledger = some l) (hc : l.closing = true) : w.closePool onDrained = none := by
  simp only [closePool, hl, Ledger.beginClose_closing hc]

/-- A second close is refused and changes nothing. -/
theorem ask_close_closing (hl : w.ledger = some l) (hc : l.closing = true) (hh : w.handle = true)
    (callback : Bool) : w.ask (.closePool callback) = .error .alreadyClosed := by
  simp only [ask, hh, if_true, closePool_closing hl hc]

theorem run_shutdown_closing (hl : w.ledger = some l) (hc : l.closing = true)
    (ht : w.work? t = some (.shutdown owner .start)) :
    w.act (.run t) = (w.endTask t).tell owner .alreadyClosed := by
  have hnone : (w.await t (.shutdown owner .draining) .other).closePool (some (.signal t)) = none :=
    closePool_closing hl hc
  simp only [act, ht, runWork, runShutdown, hnone]

theorem run_start_closing (hl : w.ledger = some l) (hc : l.closing = true)
    (ht : w.work? t = some (.acquire owner .start)) :
    w.act (.run t) = (w.endTask t).tell owner (.failed .poolClosed) := by
  have ha : l.acquire w.limit t = (.refused, l) := by simp only [Ledger.acquire, hc, if_true]
  simp only [act, ht, runWork, runAcquire, hl, ha, withLedger_self hl]
  rfl

theorem closePool_closed {w' : Service} (h : w.closePool onDrained = some w') :
    ∃ l', w'.ledger = some l' ∧ l'.closing = true := by
  obtain ⟨l, closing, l', -, hb, hl'⟩ := closePool_ledger h
  refine ⟨l', hl', ?_⟩
  obtain ⟨-, -, -, ⟨-, -, rfl⟩ | ⟨-, -, rfl⟩⟩ := Ledger.beginClose_some hb <;> rfl

theorem closePool_none (hl : w.ledger = some l) (h : w.closePool onDrained = none) : l.closing = true := by
  cases hc : l.closing with
  | true => rfl
  | false =>
    rcases l.beginClose_open hc onDrained with ⟨-, hb⟩ | ⟨-, hb⟩ <;> simp [closePool, hl, hb] at h

/-- A call of close leaves the pool closing. -/
theorem Closes.closing (h : w.Closes s onDrained) (hk : w.Kept) :
    ∃ l', (w.act s).ledger = some l' ∧ l'.closing = true := by
  cases h with
  | @request callback hh =>
    obtain ⟨l, hl⟩ : ∃ l, w.ledger = some l :=
      Option.ne_none_iff_exists'.1 fun hnone => absurd (hh.symm.trans (hk hnone).1) (by simp)
    simp only [act, ask, hh, if_true]
    cases hc : w.closePool (if callback then some .callback else none) with
    | none => exact ⟨l, hl, closePool_none hl hc⟩
    | some w' => exact closePool_closed hc
  | @shutdown t owner ht =>
    obtain ⟨l, hl⟩ := hk.ledger ht rfl
    simp only [act, ht, runWork, runShutdown]
    cases hc : (w.await t (.shutdown owner .draining) .other).closePool (some (.signal t)) with
    | none => exact ⟨l, hl, closePool_none (w := w.await t (.shutdown owner .draining) .other) hl hc⟩
    | some w' => exact closePool_closed hc

/-! ## Acquires begun after the close -/

/-- Only its own step or its caller takes an acquire away from its start. -/
theorem step_start (ha : Accounts [] w none 0) (ht : w.work? t = some (.acquire owner .start)) (s : Step) :
    (w.step s).work? t = some (.acquire owner .start) ∨ s = .run t ∨ s = .request (.cancel owner) := by
  rcases (step_effect w s).work t with he | ⟨work, -, hc⟩ | ⟨-, hends⟩
  · exact .inl (he.trans ht)
  · cases hc with
    | starts hn _ => exact absurd (work?_lt ha.issued ht) (Nat.not_lt.2 hn)
    | goes _ _ => exact .inr (.inl rfl)
    | handed hq _ => cases ht.symm.trans hq
    | drained hq => cases ht.symm.trans hq
  · exact .inr (hends.acquire ha.tickets ht)

/-- An acquire that has not begun when the pool is closing is given up, fails
with `poolClosed`, or has not begun yet. -/
theorem steps_start (ha : Accounts [] w none 0) (hk : w.Kept) (hl : w.ledger = some l) (hc : l.closing = true)
    (ht : w.work? t = some (.acquire owner .start)) (later : List Step) :
    (w.steps later).work? t = some (.acquire owner .start) ∨
    ∃ before s rest, later = before ++ s :: rest ∧ (w.steps before).work? t = some (.acquire owner .start) ∧
      (s = .request (.cancel owner) ∨ (s = .run t ∧ (w.steps before).act s =
        ((w.steps before).endTask t).tell owner (.failed .poolClosed))) := by
  induction later generalizing w l with
  | nil => exact .inl ht
  | cons s later ih =>
    rcases step_start ha ht s with hstart | rfl | rfl
    · obtain ⟨l', hl'⟩ := (hk.step s).ledger hstart rfl
      have hc' : l'.closing = true := by
        obtain ⟨l₁, _, hl₁, hturn, -⟩ := step_ledger hl'
        cases hl.symm.trans hl₁
        exact (Ledger.closing_turn hturn hc).closing
      rcases ih (ha.step s) (hk.step s) hl' hc' hstart with hs | ⟨before, s', rest, rfl, hs⟩
      · exact .inl hs
      · exact .inr ⟨s :: before, s', rest, rfl, hs⟩
    · exact .inr ⟨[], _, later, rfl, ht, .inr ⟨rfl, run_start_closing hl hc ht⟩⟩
    · exact .inr ⟨[], _, later, rfl, ht, .inl rfl⟩

/-! ## Who learns of it -/

theorem Comes.discarding {c : Connection} {replaced : Bool}
    (h : Comes w s x (.acquire owner (.discarding c replaced))) :
    ∃ l, w.ledger = some l ∧ replaced = l.reserveReplacement.1 := by
  cases h with
  | starts _ hs => cases hs
  | goes _ hg =>
    cases hg with
    | reserve hl => exact ⟨_, hl, rfl⟩

theorem Comes.resolved {result : Except Error Connection}
    (h : Comes w s x (.acquire owner (.handed result))) : Resolved w x s result := by
  cases h with
  | starts _ hs => cases hs
  | goes _ hg => cases hg
  | handed _ hr => exact hr

theorem Comes.opening {step : Opening} (h : Comes w s x (.acquire owner (.opening step))) :
    step = .reserved ∨ ∃ before wait, s = .run x ∧ w.work? x = some (.acquire owner (.opening before)) ∧
      (w.runOpening before).1 = .goesOn step wait := by
  cases h with
  | starts _ hs => cases hs
  | goes ht hg =>
    cases hg with
    | create => exact .inl rfl
    | replace => exact .inl rfl
    | opening hr => exact .inr ⟨_, _, rfl, ht, hr⟩

theorem Comes.serve {waiter : Ticket} {step : Opening} (h : Comes w s x (.serve waiter step)) :
    step = .reserved ∨ ∃ before wait, s = .run x ∧ w.work? x = some (.serve waiter before) ∧
      (w.runOpening before).1 = .goesOn step wait := by
  cases h with
  | starts _ hs => cases hs; exact .inl rfl
  | goes ht hg =>
    cases hg with
    | serve hr => exact .inr ⟨_, _, rfl, ht, hr⟩

/-- A task makes an attempt for itself or for a caller who waits. -/
inductive Tries (w : Service) (u : Ticket) : Ticket → Attempt → Prop where
  | own {owner : String} {attempt : Attempt} :
    w.work? u = some (.acquire owner (.opening (.attempting attempt))) → Tries w u u attempt
  | served {waiter : Ticket} {attempt : Attempt} :
    w.work? u = some (.serve waiter (.attempting attempt)) → Tries w u waiter attempt

/-- In a run the connector refused an attempt made for this task as if it were
a closed pool. -/
def Denied (w : Service) (run : List Step) (x : Ticket) : Prop :=
  w.Happened run fun w s => ∃ u attempt, s = .run u ∧ w.Tries u x attempt ∧
    attempt.Refused w.config w.now .poolClosed

/-- A call of close came in a run. -/
def Closed (w : Service) (run : List Step) : Prop :=
  ∃ onDrained, w.ClosedFor run onDrained

/-- Whoever is about to learn `poolClosed` has a reason to. -/
structure Excused (w : Service) (run : List Step) : Prop where
  discarding : ∀ x owner c, (w.steps run).work? x = some (.acquire owner (.discarding c false)) → w.Closed run
  handed : ∀ x owner, (w.steps run).work? x = some (.acquire owner (.handed (.error .poolClosed))) →
    w.Closed run ∨ w.Denied run x
  opening : ∀ x owner, (w.steps run).work? x = some (.acquire owner (.opening (.failed .poolClosed))) →
    w.Denied run x
  serve : ∀ x waiter, (w.steps run).work? x = some (.serve waiter (.failed .poolClosed)) → w.Denied run waiter

/-- An attempt that fails with `poolClosed` was refused by the connector. -/
theorem runOpening_poolClosed {step : Opening} {wait : Wait}
    (h : (w.runOpening step).1 = .goesOn (.failed .poolClosed) wait) :
    ∃ attempt, step = .attempting attempt ∧ attempt.Refused w.config w.now .poolClosed := by
  cases step with
  | reserved => cases h
  | attempting attempt =>
    refine ⟨attempt, rfl, ?_⟩
    simp only [runOpening] at h
    split at h
    · cases h
    · cases h
    · next hp => cases h; exact Attempt.poll_poolClosed hp
  | failed e => cases h
  | named c => cases h

namespace Excused

theorem new (w : Service) (h : w.tasks = []) : Excused w [] := by
  have hnone : ∀ {x work}, (w.steps []).work? x ≠ some work := by
    intro x work hw
    simp only [steps, List.foldl_nil, work?, task?, h] at hw
    cases hw
  exact ⟨fun _ _ _ h => absurd h hnone, fun _ _ h => absurd h hnone, fun _ _ h => absurd h hnone,
    fun _ _ h => absurd h hnone⟩

theorem step (h : Excused w run) (hd : Draining w run) (s : Step) : Excused w (run ++ [s]) := by
  have hclosed : w.Closed run → w.Closed (run ++ [s]) := fun ⟨d, hd⟩ => ⟨d, hd.mono s⟩
  have hdenied : ∀ {x}, w.Denied run x → w.Denied (run ++ [s]) x := fun hx => hx.mono s
  have hwork : ∀ {x work}, (w.steps (run ++ [s])).work? x = some work →
      (w.steps run).work? x = some work ∨ (w.steps run).Comes s x work := by
    intro x work hw
    rw [steps_snoc] at hw
    exact step_work hw
  refine ⟨fun x owner c hw => ?_, fun x owner hw => ?_, fun x owner hw => ?_, fun x waiter hw => ?_⟩ <;>
    rcases hwork hw with hw | hc
  · exact hclosed (h.discarding x owner c hw)
  · obtain ⟨l, hl, hreplaced⟩ := hc.discarding
    rcases l.reserveReplacement_cases with ⟨hc, -⟩ | ⟨-, hr⟩
    · obtain ⟨d, hd, -⟩ := hd.closed l hl hc
      exact ⟨d, hd.mono _⟩
    · rw [hr] at hreplaced
      exact absurd hreplaced Bool.false_ne_true
  · exact (h.handed x owner hw).imp hclosed hdenied
  · cases hc.resolved with
    | opened hserve hends =>
      rw [runOpening_ends hends] at hserve
      exact .inr (hdenied (h.serve _ _ hserve))
    | @closed _ d hclose hmem =>
      left
      cases hl : (w.steps run).ledger with
      | none => simp [queue, hl] at hmem
      | some l =>
        rw [queue_eq hl] at hmem
        refine ⟨d, happened_last ⟨⟨l, hl, ?_⟩, hclose⟩⟩
        by_contra hc
        rw [(hd.shut l hl (by simpa using hc)).1] at hmem
        cases hmem
  · exact hdenied (h.opening x owner hw)
  · rcases hc.opening with he | ⟨before, wait, rfl, hx, hrun⟩
    · cases he
    · obtain ⟨attempt, rfl, hr⟩ := runOpening_poolClosed hrun
      exact happened_last ⟨x, attempt, rfl, .own hx, hr⟩
  · exact hdenied (h.serve x waiter hw)
  · rcases hc.serve with he | ⟨before, wait, rfl, hx, hrun⟩
    · cases he
    · obtain ⟨attempt, rfl, hr⟩ := runOpening_poolClosed hrun
      exact happened_last ⟨x, attempt, rfl, .served hx, hr⟩

end Excused

/-! ## What acquires report -/

theorem events_record (w : Service) (o : Outbound) : (w.record o).events = w.events := by
  unfold record
  split <;> rfl

theorem events_vacate (w : Service) (id : Option Nat) : (w.vacate id).events = w.events := by
  unfold vacate
  split
  · rfl
  next l hl =>
  have hsignal : ∀ (w : Service) drained, (w.signal drained).events = w.events := by
    intro w drained
    unfold signal wake
    repeat' split
    all_goals rfl
  show (Service.signal _ _).events = _
  rw [hsignal]
  show (Service.serveNext _ (l.vacate w.limit w.spawns w.waits id).1.waiter).events = _
  cases (l.vacate w.limit w.spawns w.waits id).1.waiter <;> rfl

theorem events_runOpening (w : Service) (step : Opening) : (w.runOpening step).2.events = w.events := by
  cases step with
  | reserved => rfl
  | attempting attempt =>
    simp only [runOpening]
    split <;> exact events_record w _
  | failed e => exact events_vacate w none
  | named c => rfl

/-- With what an acquire that is over in its next step ends. -/
inductive Concludes (w : Service) : Acquire → Except Error Connection → Prop where
  | refused {l : Ledger} : w.ledger = some l → l.closing = true → Concludes w .start (.error .poolClosed)
  | verified {c c' c'' : Connection} {reader : ReplyReader} {result : Except Error Reply} :
    c.poll w.now reader = (.ready result, c') → c'.judge result = (.ok (), c'') →
    Concludes w (.verifying c reader) (.ok c'')
  | barred {c : Connection} : Concludes w (.discarding c false) (.error .poolClosed)
  | opened {step : Opening} {result : Except Error Connection} : (w.runOpening step).1 = .ends result →
    Concludes w (.opening step) result
  | handed {result : Except Error Connection} : Concludes w (.handed result) result

/-- An acquire reports nothing in a step, or its end. -/
theorem act_acquire {step : Acquire} (ht : w.work? t = some (.acquire owner step)) :
    (w.act (.run t)).events = w.events ∨ ∃ (w' : Service) (result : Except Error Connection),
      w'.events = w.events ∧ w.Concludes step result ∧
      w.act (.run t) = w'.conclude t owner result := by
  simp only [act, ht, runWork]
  cases step with
  | start =>
    simp only [runAcquire]
    split
    · exact .inl rfl
    next l hl =>
    rcases l.acquire_cases w.limit t with ⟨hc, ha⟩ | ⟨-, c, l', htake, ha⟩ | ⟨-, -, -, ha⟩ | ⟨-, -, -, ha⟩ <;>
      rw [ha]
    · exact .inr ⟨w.withLedger l, _, rfl, .refused hl hc, rfl⟩
    · dsimp only
      split <;> exact .inl (events_record (w.withLedger l') _)
    · exact .inl rfl
    · exact .inl rfl
  | verifying c reader =>
    simp only [runAcquire]
    split
    · exact .inl rfl
    next hp =>
    split
    · next hj => exact .inr ⟨w, _, rfl, .verified hp hj, rfl⟩
    · exact .inl rfl
  | unsound c =>
    simp only [runAcquire]
    split <;> exact .inl rfl
  | discarding c replaced =>
    cases replaced with
    | true => exact .inl (events_vacate w _)
    | false => exact .inr ⟨w.discard c, _, events_vacate w _, .barred, rfl⟩
  | opening step =>
    have hev := events_runOpening w step
    simp only [runAcquire]
    split
    · next hr =>
      rw [hr] at hev
      exact .inl hev
    · next w' hr =>
      rw [hr] at hev
      exact .inr ⟨w', _, hev, .opened (congrArg Prod.fst hr), rfl⟩
  | queued => exact .inl rfl
  | handed result => exact .inr ⟨w, result, rfl, .handed, rfl⟩

theorem events_conclude (w : Service) (t : Ticket) (owner : String) (result : Except Error Connection) :
    (w.conclude t owner result).events = w.events ++ [(owner, match result with
      | .ok c => .acquired c.id c.auth c.status
      | .error e => .failed e)] := by
  cases result <;> rfl

/-- What an acquire reports is its end. -/
theorem act_reported {step : Acquire} {e : Event} (ht : w.work? t = some (.acquire owner step))
    (h : (w.act (.run t)).events = w.events ++ [(owner, e)]) :
    ∃ (w' : Service) (result : Except Error Connection), w.Concludes step result ∧
      w.act (.run t) = w'.conclude t owner result ∧
      e = match result with
        | .ok c => .acquired c.id c.auth c.status
        | .error e => .failed e := by
  rcases act_acquire ht with hsame | ⟨w', result, hev, hc, hact⟩
  · have hlen := congrArg List.length (hsame.symm.trans h)
    simp at hlen
  · rw [hact, events_conclude, hev] at h
    exact ⟨w', result, hc, hact, by simpa using h.symm⟩

/-- A connection that an acquire reports is with its caller. -/
theorem act_acquired {step : Acquire} {id : Nat} {auth : AuthOutcome} {status : Status}
    (ht : w.work? t = some (.acquire owner step))
    (h : (w.act (.run t)).events = w.events ++ [(owner, .acquired id auth status)]) :
    ∃ c, w.Concludes step (.ok c) ∧ (owner, c) ∈ (w.act (.run t)).holding ∧
      c.id = id ∧ c.auth = auth ∧ c.status = status := by
  obtain ⟨w', result, hc, hact, he⟩ := act_reported ht h
  cases result with
  | error e => cases he
  | ok c =>
    cases he
    refine ⟨c, hc, ?_, rfl, rfl, rfl⟩
    rw [hact]
    exact List.mem_append_right _ (List.mem_singleton.2 rfl)

/-- How an acquire comes to fail. -/
theorem act_failed {step : Acquire} {e : Error} (ht : w.work? t = some (.acquire owner step))
    (h : (w.act (.run t)).events = w.events ++ [(owner, .failed e)]) :
    (e = .poolClosed ∧ ∃ l, w.ledger = some l ∧ l.closing = true) ∨
    (∃ c, step = .discarding c false) ∨ step = .opening (.failed e) ∨ step = .handed (.error e) := by
  obtain ⟨w', result, hc, -, he⟩ := act_reported ht h
  cases result with
  | ok c => cases he
  | error e' =>
    cases he
    cases hc with
    | refused hl hc => exact .inl ⟨rfl, _, hl, hc⟩
    | barred => exact .inr (.inl ⟨_, rfl⟩)
    | opened hr => exact .inr (.inr (.inl (by rw [runOpening_ends hr])))
    | handed => exact .inr (.inr (.inr rfl))

theorem Excused.failed {step : Acquire} (h : Excused w run) (hd : Draining w run)
    (ht : (w.steps run).work? t = some (.acquire owner step))
    (hev : ((w.steps run).act (.run t)).events = (w.steps run).events ++ [(owner, .failed .poolClosed)]) :
    w.Closed run ∨ w.Denied run t := by
  rcases act_failed ht hev with ⟨-, l, hl, hc⟩ | ⟨c, rfl⟩ | rfl | rfl
  · obtain ⟨d, hd, -⟩ := hd.closed l hl hc
    exact .inl ⟨d, hd⟩
  · exact .inl (h.discarding t owner c ht)
  · exact .inr (h.opening t owner ht)
  · exact h.handed t owner ht

theorem Excused.steps (config : Config) (spawns : Bool) (peers : List Peer) (run : List Step) :
    Excused (Service.new config spawns peers) run := by
  induction run using List.reverseRecOn with
  | nil => exact .new _ rfl
  | append_singleton run s ih => exact ih.step (.steps run) s

/-- **Close and drain.** Between any two steps of any run: a call of close
leaves the pool closing, and from then on there is no queue, nothing is parked,
the pool only shrinks, acquires that have not begun fail with `poolClosed`, and
a second close is refused and changes nothing. An acquire fails so only if close
was called or the connector said so. The outside is told of the drain, with the
call that the close named, in the very step that first leaves nothing in the
closing pool and in no other; and after that nothing is opened any more. -/
theorem steps_closed (config : Config) (spawns : Bool) (peers : List Peer) (run : List Step) :
    let start := new config spawns peers
    let w := start.steps run
    (∀ s onDrained, w.Closes s onDrained → ∃ l, (w.act s).ledger = some l ∧ l.closing = true) ∧
    (∀ l, w.ledger = some l → l.closing = true →
      (∀ later l', (w.steps later).ledger = some l' →
        l'.closing = true ∧ l'.waiters = [] ∧ l'.idleCount = 0 ∧ l'.count ≤ l.count) ∧
      (∀ t owner, w.work? t = some (.acquire owner .start) → ∀ later,
        (w.steps later).work? t = some (.acquire owner .start) ∨
        ∃ before s rest, later = before ++ s :: rest ∧ (w.steps before).work? t = some (.acquire owner .start) ∧
          (s = .request (.cancel owner) ∨ (s = .run t ∧ (w.steps before).act s =
            ((w.steps before).endTask t).tell owner (.failed .poolClosed)))) ∧
      (w.handle = true → ∀ callback, w.ask (.closePool callback) = .error .alreadyClosed ∧
        w.step (.request (.closePool callback)) = w) ∧
      ∀ t owner, w.work? t = some (.shutdown owner .start) →
        w.act (.run t) = (w.endTask t).tell owner .alreadyClosed) ∧
    (∀ t owner step, w.work? t = some (.acquire owner step) →
      (w.act (.run t)).events = w.events ++ [(owner, .failed .poolClosed)] →
      start.Closed run ∨ start.Denied run t) ∧
    (∀ s, (¬ w.Emptied ∧ (w.act s).Emptied ∧ w.outcalls = [] ∧ ∃ onDrained, start.ClosedFor (run ++ [s]) onDrained ∧
        (w.step s).outcalls = .connector :: (onDrained.map Outcall.drained).toList) ∨
      ((w.Emptied ∨ ¬ (w.act s).Emptied) ∧ (w.step s).outcalls = w.outcalls)) ∧
    (w.outcalls ≠ [] → ∀ later,
      (∀ l, (w.steps later).ledger = some l → l.live = [] ∧ l.count = 0) ∧
      (w.steps later).attempts = 0 ∧ (w.steps later).connects = w.connects ∧
      (w.steps later).outcalls = w.outcalls) := by
  intro start w
  have ha : Accounts [] w none 0 := (Accounts.new config spawns peers).steps run
  have hk : w.Kept := (kept_new config spawns peers).steps run
  have hd : ∀ run, Draining start run := .steps
  refine ⟨fun s d hc => hc.closing hk, fun l hl hc => ⟨fun later l' hl' => ?_, fun t owner ht later => ?_,
    fun hh callback => ?_, fun t owner ht => run_shutdown_closing hl hc ht⟩, fun t owner step ht hev => ?_,
    (hd run).step_told, fun ho later => ?_⟩
  · obtain ⟨l₁, hl₁, hR⟩ := steps_ledger
      (R := fun l l' => l.closing = true → l'.closing = true ∧ l'.count ≤ l.count)
      (fun _ hc => ⟨hc, Nat.le_refl _⟩)
      (fun h h' hc => ⟨(h' (h hc).1).1, Nat.le_trans (h' (h hc).1).2 (h hc).2⟩)
      (fun ht hc => ⟨(Ledger.closing_turn ht hc).closing, (Ledger.closing_turn ht hc).count⟩) later hl'
    obtain rfl : l = l₁ := Option.some.inj (hl.symm.trans hl₁)
    obtain ⟨hc', hcount⟩ := hR hc
    obtain ⟨hw, hi⟩ := (hd (run ++ later)).shut l' (by rw [steps_append]; exact hl') hc'
    exact ⟨hc', hw, hi, hcount⟩
  · exact steps_start ha hk hl hc ht later
  · have hrefused := ask_close_closing hl hc hh callback
    exact ⟨hrefused, by rw [step, hrefused]; rfl⟩
  · exact (Excused.steps config spawns peers run).failed (hd run) ht hev
  · have hover : w.Over := fun l hl => (hd run).emptied ho hl
    exact hover.steps hk ha (hd run).settled later

/-- A run in which the only connection goes after the close. -/
def wound : Service :=
  opened.steps [.request (.closePool true), .request (.drop "a")]

theorem steps_closed_wound :
    wound.outcalls = [.connector, .drained .callback] ∧ (wound.step (.request (.acquire "b"))).attempts = 0 := by
  have hout : wound.outcalls = [.connector, .drained .callback] := by decide +kernel
  have hne : wound.outcalls ≠ [] := by rw [hout]; simp
  have hover := (steps_closed narrow true [plainPeer] [.request (.acquire "a"), .run 0, .run 0, .run 0, .run 0,
    .request (.closePool true), .request (.drop "a")]).2.2.2.2 hne
  exact ⟨hout, (hover [.request (.acquire "b")]).2.1⟩

end SmtpClient.Pool.Service
