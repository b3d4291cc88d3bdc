/-
The capacity of a pool. Only a caller whose idle connection failed its probe
takes a slot without asking whether there is room; until that connection is
gone the caller is in the window (`Service.window`). Every other step keeps to
the limit (`Checked`), so the count exceeds it by the callers in the window at
most (`Service.steps_capped`).
-/
import Mathlib.Data.List.Perm.Subperm
import SmtpClient.Proofs.Effects

namespace SmtpClient.Pool

/-! ## The ledger -/

namespace Ledger

variable {l l' : Ledger} {limit : Nat}

theorem acquire_count (l : Ledger) (limit : Nat) (caller : Ticket) :
    (l.acquire limit caller).2.count ≤ max l.count limit := by
  rcases l.acquire_cases limit caller with ⟨-, ha⟩ | ⟨-, c, l', ht, ha⟩ | ⟨-, -, hlt, ha⟩ | ⟨-, -, -, ha⟩
  · rw [ha]; exact Nat.le_max_left ..
  · obtain ⟨id, c₀, deadline, -, -, rfl⟩ := takeIdle_some ht
    rw [ha]
    exact Nat.le_max_left ..
  · rw [ha]
    exact Nat.le_trans hlt (Nat.le_max_right ..)
  · rw [ha]; exact Nat.le_max_left ..

theorem accept_count (l : Ledger) (keepAlive : Bool) (waits : Ticket → Bool) (deadline : Nat) (c : Connection) :
    (l.accept keepAlive waits deadline c).2.count = l.count := by
  rcases l.accept_cases keepAlive waits deadline c with ⟨-, ha⟩ | ⟨-, _, _, _, -, -, -, ha⟩ | ⟨-, -, ha⟩
  all_goals simp only [ha, park, put_count]

theorem reassign_count (l : Ledger) (limit : Nat) (serves : Bool) (waits : Ticket → Bool) :
    (l.reassign limit serves waits).2.count ≤ max l.count limit := by
  unfold reassign
  split
  · next hroom =>
    simp only [Bool.and_eq_true, decide_eq_true_eq] at hroom
    rcases l.nextWaiter_cases waits with ⟨-, hn⟩ | ⟨_, _, _, -, -, -, hn⟩
    · rw [hn]; exact Nat.le_max_left ..
    · rw [hn]; exact Nat.le_trans hroom.1.2 (Nat.le_max_right ..)
  · exact Nat.le_max_left ..

theorem checkDrained_count (l : Ledger) : l.checkDrained.2.count = l.count := by
  rcases l.checkDrained_cases with ⟨-, hc⟩ | ⟨-, hc⟩ <;> rw [hc]

/-- A slot that is vacated is counted again only where there is room. -/
theorem vacate_count (l : Ledger) (limit : Nat) (serves : Bool) (waits : Ticket → Bool) (id : Option Nat) :
    (l.vacate limit serves waits id).2.count ≤ max (l.count - 1) limit := by
  simp only [vacate, checkDrained_count]
  exact (l.strike id).reassign_count limit serves waits

theorem beginClose_count {onDrained : Option DrainCall} {closing : Closing}
    (h : l.beginClose onDrained = some (closing, l')) : l'.count = l.count := by
  obtain ⟨-, -, -, ⟨-, -, rfl⟩ | ⟨-, -, rfl⟩⟩ := beginClose_some h <;> rfl

end Ledger

/-- The work of a caller who reserved a replacement and still has the connection
that it is to replace. -/
def Work.replaces : Work → Bool
  | .acquire _ (.discarding _ replaced) => replaced
  | _ => false

namespace Service

variable {w w' : Service} {l l' : Ledger} {s : Step}

/-! ## Steps that ask for room -/

/-- From `w` to `w'` no slot was counted where there was no room. -/
def Checked (w w' : Service) : Prop :=
  ∀ l', w'.ledger = some l' → ∃ l, w.ledger = some l ∧ l'.count ≤ max l.count w.limit

theorem checked_withLedger (hl : w.ledger = some l) (hcount : l'.count ≤ max l.count w.limit) :
    Checked w (w.withLedger l') := by
  intro l₁ hl₁
  cases hl₁
  exact ⟨l, hl, hcount⟩

theorem Quiet.checked (h : Quiet w w') : Checked w w' :=
  fun l' hl' => ⟨l', h.ledger ▸ hl', Nat.le_max_left ..⟩

theorem vacate_ledger (hl : w.ledger = some l) (id : Option Nat) :
    (w.vacate id).ledger = some (l.vacate w.limit w.spawns w.waits id).2 := by
  have hfinish : ∀ (w : Service) (drained : Option Drained), (w.finish drained).ledger = w.ledger := fun w drained =>
    (quiet_signal (w.announce (told drained)) drained.join).ledger
  simp only [vacate, hl, hfinish]
  exact (quiet_serveNext _ _).ledger

theorem checked_vacate (w : Service) (id : Option Nat) : Checked w (w.vacate id) := by
  intro l' hl'
  cases hl : w.ledger with
  | none =>
    simp only [vacate, hl] at hl'
    cases hl'
  | some l =>
    have hcount := l.vacate_count w.limit w.spawns w.waits id
    obtain rfl : _ = l' := Option.some.inj ((vacate_ledger hl id).symm.trans hl')
    exact ⟨l, rfl, by omega⟩

theorem checked_closePool {onDrained : Option DrainCall} (h : w.closePool onDrained = some w') : Checked w w' := by
  intro l' hl'
  obtain ⟨l, closing, l₁, hl, hb, hl₁⟩ := closePool_ledger h
  cases hl₁.symm.trans hl'
  exact ⟨l, hl, Ledger.beginClose_count hb ▸ Nat.le_max_left ..⟩

/-- **Room is asked for** in every step but the one in which a caller reserves
the replacement of a connection that failed its probe. -/
theorem step_checked (hs : ¬ w.Reserves s) : Checked w (w.step s) := by
  have hlifts : Lifts (w.Closes s) (w.Reserves s) Checked := {
    quiet := Quiet.checked
    after := fun hq h => by
      rw [Checked, hq.ledger, hq.limit] at h
      exact h
    before := fun h hq l' hl' => h l' (hq.ledger ▸ hl')
    vacate := checked_vacate
    acquire := fun t hl => checked_withLedger hl (Ledger.acquire_count _ _ t)
    reserve := fun hr => absurd hr hs
    accept := fun c hl => checked_withLedger hl ((Ledger.accept_count _ _ _ _ c).le.trans (Nat.le_max_left ..))
    enter := fun w id l' hl' => by
      obtain ⟨l, hl, rfl⟩ := Option.map_eq_some_iff.1 hl'
      exact ⟨l, hl, Nat.le_max_left ..⟩
    expire := fun hl he => by
      obtain ⟨_, -, -, rfl⟩ := Ledger.takeExpired_some he
      exact checked_withLedger hl (Nat.le_max_left ..)
    close := fun _ => checked_closePool }
  intro l' hl'
  rcases step_act w s with hw | hw
  · exact hlifts.act l' (hw ▸ hl')
  · rcases reap_eq (w.act s) with he | ⟨he, -⟩
    · exact hlifts.act l' (he ▸ hw ▸ hl')
    · rw [hw, he] at hl'
      cases hl'

/-! ## The window -/

/-- The callers who reserved a replacement and still have the connection that
it is to replace. -/
def window (w : Service) : List Ticket :=
  (w.tasks.filter fun task => task.work.replaces).map Task.ticket

theorem mem_window (hn : (w.tasks.map Task.ticket).Nodup) {x : Ticket} :
    x ∈ w.window ↔ ∃ owner c, w.work? x = some (.acquire owner (.discarding c true)) := by
  refine (mem_tickets hn Work.replaces).trans ⟨?_, ?_⟩
  · rintro ⟨work, hwork, hreplaces⟩
    unfold Work.replaces at hreplaces
    split at hreplaces
    · next owner c replaced => exact ⟨owner, c, by rw [hwork, hreplaces]⟩
    · cases hreplaces
  · rintro ⟨owner, c, hwork⟩
    exact ⟨_, hwork, rfl⟩

theorem window_nodup (hn : (w.tasks.map Task.ticket).Nodup) : w.window.Nodup :=
  hn.sublist (List.filter_sublist.map _)

/-- A caller in the window cannot be cancelled. -/
theorem cancel_window {owner owner' : String} {task : Task} {c : Connection} (htask : w.underWay? owner = some task)
    (hwork : task.work = .acquire owner' (.discarding c true)) : w.cancel owner = w := by
  simp only [cancel, htask, Option.bind_some, dropTask, hwork]

/-- Nobody leaves the window but by giving the connection up. -/
theorem window_step (ha : Accounts [] w none 0) {x : Ticket} (h : x ∈ w.window) (hs : s ≠ .run x) :
    x ∈ (w.step s).window := by
  obtain ⟨owner, c, hwork⟩ := (mem_window ha.tickets).1 h
  refine (mem_window (ha.step s).tickets).2 ⟨owner, c, ?_⟩
  rcases (step_effect w s).work x with he | ⟨work, he, hcomes⟩ | ⟨he, hends⟩
  · exact he.trans hwork
  · cases hcomes with
    | starts ht => exact absurd (work?_lt ha.issued hwork) (Nat.not_lt.2 ht)
    | goes => exact absurd rfl hs
    | handed hq | drained hq => cases hwork.symm.trans hq
  · cases hends with
    | ran => exact absurd rfl hs
    | @cancelled owner' task htask =>
      obtain ⟨hown, -⟩ := underWay?_work ha.tickets htask
      have hstay : w.step (.request (.cancel owner')) = w :=
        cancel_window htask (Option.some.inj (hown.symm.trans hwork))
      rw [hstay, hwork] at he
      cases he
    | abandoned htask hexchange =>
      obtain ⟨hown, -⟩ := underWay?_work ha.tickets htask
      rw [hexchange] at hown
      cases hwork.symm.trans hown

theorem ledger_reap (h : w.reap.ledger = some l) : w.ledger = some l := by
  rcases reap_eq w with he | ⟨he, -⟩
  · rwa [he] at h
  · rw [he] at h
    cases h

/-- Who reserves a replacement enters the window. -/
theorem count_reserve (ha : Accounts [] w none 0) (hr : w.Reserves s) (hl : w.ledger = some l)
    (hl' : (w.step s).ledger = some l') : l'.count + w.window.length ≤ l.count + (w.step s).window.length := by
  obtain ⟨t, owner, c, rfl, ht⟩ := hr
  have hstays : ∀ x ∈ w.window, x ∈ (w.step (.run t)).window ∧ x ≠ t := by
    intro x hx
    have hne : x ≠ t := by
      rintro rfl
      obtain ⟨_, _, hwork⟩ := (mem_window ha.tickets).1 hx
      cases ht.symm.trans hwork
    exact ⟨window_step ha hx fun he => hne (Step.run.inj he).symm, hne⟩
  have hstep : w.step (.run t) = ((w.withLedger l.reserveReplacement.2).become t
      (.acquire owner (.discarding c l.reserveReplacement.1))).reap := by
    simp only [step, run, ht, runWork, runAcquire, hl]
  have hledger : l.reserveReplacement.2 = l' := by
    rw [hstep] at hl'
    exact Option.some.inj (ledger_reap hl')
  rcases l.reserveReplacement_cases with ⟨-, hr⟩ | ⟨-, hr⟩
  · rw [← hledger, hr]
    have hsub := List.subperm_of_subset (window_nodup ha.tickets) fun x hx => (hstays x hx).1
    exact Nat.add_le_add_left hsub.length_le _
  · have hself : t ∈ (w.step (.run t)).window := by
      refine (mem_window (ha.step _).tickets).2 ⟨owner, c, ?_⟩
      rw [hstep, work?_reap, hr]
      exact (work?_await _ t _ _ t).trans (by rw [if_pos rfl]; exact congrArg _ ht)
    have hnodup : (t :: w.window).Nodup :=
      List.nodup_cons.2 ⟨fun hx => (hstays t hx).2 rfl, window_nodup ha.tickets⟩
    have hsub := List.subperm_of_subset hnodup fun x hx => by
      rcases List.mem_cons.1 hx with rfl | hx
      · exact hself
      · exact (hstays x hx).1
    have hlength := hsub.length_le
    rw [List.length_cons] at hlength
    rw [← hledger, hr]
    simp only
    omega

/-- Who gives the connection up leaves the window, and its slot. -/
theorem count_discard (ha : Accounts [] w none 0) {t : Ticket} (ht : t ∈ w.window) (hl : w.ledger = some l)
    (hl' : (w.step (.run t)).ledger = some l') :
    l'.count ≤ max (l.count - 1) w.limit ∧ w.window.length ≤ (w.step (.run t)).window.length + 1 := by
  obtain ⟨owner, c, hwork⟩ := (mem_window ha.tickets).1 ht
  constructor
  · have hstep : w.step (.run t) = ((w.discard c).become t (.acquire owner (.opening .reserved))).reap := by
      simp only [step, run, hwork, runWork, runAcquire]
    rw [hstep] at hl'
    have hkept : ((w.discard c).become t (.acquire owner (.opening .reserved))).ledger = some l' := ledger_reap hl'
    have hledger : (l.vacate w.limit w.spawns w.waits (some c.id)).2 = l' :=
      Option.some.inj ((vacate_ledger hl (some c.id)).symm.trans hkept)
    rw [← hledger]
    exact l.vacate_count w.limit w.spawns w.waits (some c.id)
  · have hsub := List.subperm_of_subset ((window_nodup ha.tickets).erase t) fun x hx => by
      obtain ⟨hne, hmem⟩ := ((window_nodup ha.tickets).mem_erase_iff).1 hx
      exact window_step ha hmem fun he => hne (Step.run.inj he).symm
    have hlength := hsub.length_le
    rw [List.length_erase_of_mem ht] at hlength
    omega

/-! ## The bound -/

/-- The count exceeds the limit by the callers in the window at most. -/
def Capped (w : Service) : Prop :=
  ∀ l, w.ledger = some l → l.count ≤ w.limit + w.window.length

theorem Capped.step (h : w.Capped) (ha : Accounts [] w none 0) (s : Step) : (w.step s).Capped := by
  intro l' hl'
  obtain ⟨l, -, hl, -⟩ := step_ledger hl'
  have hcount := h l hl
  rw [step_limit]
  by_cases hr : w.Reserves s
  · have hreserve := count_reserve ha hr hl hl'
    omega
  by_cases hd : ∃ t ∈ w.window, s = .run t
  · obtain ⟨t, ht, rfl⟩ := hd
    have hpos := List.length_pos_of_mem ht
    have hdiscard := count_discard ha ht hl hl'
    omega
  · obtain ⟨l₁, hl₁, hchecked⟩ := step_checked hr l' hl'
    cases hl.symm.trans hl₁
    have hsub := List.subperm_of_subset (window_nodup ha.tickets) fun x hx =>
      window_step (s := s) ha hx fun he => hd ⟨x, hx, he⟩
    have hlength := hsub.length_le
    omega

theorem Capped.steps (h : w.Capped) (ha : Accounts [] w none 0) (run : List Step) : (w.steps run).Capped := by
  induction run generalizing w with
  | nil => exact h
  | cons s run ih => exact ih (h.step ha s) (ha.step s)

/-- **Capacity.** Between any two steps of any run the count exceeds the limit
by the callers in the window at most; and while nobody is in the window, the
live connections and the attempts under way are within the limit. -/
theorem steps_capped (config : Config) (spawns : Bool) (peers : List Peer) (run : List Step) (l : Ledger)
    (hl : ((new config spawns peers).steps run).ledger = some l) :
    let w := (new config spawns peers).steps run
    l.count ≤ max 1 config.maxPoolSize + w.window.length ∧
      (w.window = [] → l.live.length + w.attempts ≤ max 1 config.maxPoolSize) := by
  intro w
  have hnew := Accounts.new config spawns peers
  have hempty : (new config spawns peers).Capped := by
    rintro l hl
    cases hl
    exact Nat.zero_le _
  have hcapped := hempty.steps hnew run l hl
  have hlimit : w.limit = max 1 config.maxPoolSize := by
    rw [limit, (steps_config (new config spawns peers) run).1]
    rfl
  rw [hlimit] at hcapped
  refine ⟨hcapped, fun hwindow => ?_⟩
  have hbooks : Books [] l w.nextId (w.items none) := (hnew.steps run).booked hl
  rw [← hbooks.count_attempts]
  rwa [hwindow] at hcapped

/-! A run in which an idle connection fails its probe, where there is room for
one connection: while the caller is in the window two slots are counted. -/

def probing : List Step :=
  [.request (.acquire "a"), .run 0, .run 0, .run 0, .run 0, .request (.release "a"),
    .request (.acquire "b"), .run 2, .run 2, .run 2]

theorem steps_capped_probing :
    let w := (new narrow true [plainPeer]).steps probing
    (w.window = [2] ∧ ∃ l, w.ledger = some l ∧ l.count = 2 ∧ l.count ≤ 1 + w.window.length) ∧
      ∃ l, (w.step (.run 2)).ledger = some l ∧ l.live.length + (w.step (.run 2)).attempts ≤ 1 := by
  intro w
  have hwindow : w.window = [2] := by decide +kernel
  have hl : w.ledger = some { count := 2, live := [(1, .lent false)] } := by decide +kernel
  have hnext : ((new narrow true [plainPeer]).steps (probing ++ [.run 2])).ledger = some { count := 1 } := by
    decide +kernel
  have hsame : (new narrow true [plainPeer]).steps (probing ++ [.run 2]) = w.step (.run 2) := List.foldl_append
  refine ⟨⟨hwindow, _, hl, rfl, (steps_capped narrow true [plainPeer] probing _ hl).1⟩, _, hsame ▸ hnext, ?_⟩
  rw [← hsame]
  exact (steps_capped narrow true [plainPeer] (probing ++ [.run 2]) _ hnext).2 (by decide +kernel)

end Service

end SmtpClient.Pool
