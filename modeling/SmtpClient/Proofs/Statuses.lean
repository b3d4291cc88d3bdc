/-
Which status a connection has in which place. One that a caller can get is in
use, one that is parked is idle, one that is to be given up after a failed probe
is broken (`Fitted`). So what the pool decides by where it has a connection
agrees with the connection itself.
-/
import SmtpClient.Proofs.Close
import SmtpClient.Proofs.Input
import SmtpClient.Proofs.Queue

namespace SmtpClient

/-! ## Exchanges -/

namespace Connection

variable {c c' : Connection} {now : Nat} {r r' : ReplyReader}

theorem isBroken_eq (c : Connection) : c.isBroken = true ↔ c.status = .broken ∨ c.status = .closed := by
  simp only [isBroken, Bool.or_eq_true, decide_eq_true_eq]

theorem setBroken_status (h : c.status ≠ .closed) : c.setBroken.status = .broken := by
  rw [setBroken, if_neg h]

/-- Nothing is begun on a broken connection. -/
theorem begin_unusable (h : c.isBroken = true) (command : Command) :
    c.begin command = (.error (.invalidState (.unusable c.id c.status)), c) := by
  rw [begin, if_pos h]

theorem begin_ok_status {command : Command} (h : c.begin command = (.ok r, c')) : c'.status = c.status := by
  simp only [begin] at h
  split at h
  · cases h
  split at h <;> cases h
  rfl

theorem begin_error_status {command : Command} {e : Error} (h : c.begin command = (.error e, c'))
    (hc : c.status ≠ .closed) : c'.status = .broken := by
  simp only [begin] at h
  split at h
  · next hb =>
    cases h
    exact ((isBroken_eq c).1 hb).resolve_right hc
  split at h <;> cases h
  exact setBroken_status hc

theorem poll_pending_status {wake : Option Nat} (h : c.poll now r = (.pending wake r', c')) :
    c'.status = c.status := by
  simp only [poll] at h
  split at h <;> cases h
  rfl

theorem poll_error_status {e : Error} (h : c.poll now r = (.ready (.error e), c')) (hc : c.status ≠ .closed) :
    c'.status = .broken := by
  simp only [poll] at h
  split at h <;> cases h
  exact setBroken_status hc

/-- The server may say that it goes away. -/
theorem poll_ok_status {reply : Reply} (h : c.poll now r = (.ready (.ok reply), c')) (hc : c.status ≠ .closed) :
    c'.status = if reply.code = .serviceUnavailable then .broken else c.status := by
  simp only [poll] at h
  split at h
  · cases h
  · cases h
  · next got t _ =>
    cases h
    have hclosed : { c with transport := t }.status ≠ .closed := hc
    split
    · exact setBroken_status hclosed
    · rfl

theorem poll_status {result : Except Error Reply} (h : c.poll now r = (.ready result, c')) (hc : c.status = .inUse) :
    c'.status = .inUse ∨ c'.status = .broken := by
  have hclosed : c.status ≠ .closed := by simp [hc]
  cases result with
  | error e => exact .inr (poll_error_status h hclosed)
  | ok reply =>
    rw [poll_ok_status h hclosed]
    split
    · exact .inr rfl
    · exact .inl hc

/-- Only a positive reply passes. -/
theorem judge_ok {result : Except Error Reply} (h : c.judge result = (.ok (), c')) :
    c' = c ∧ ∃ reply, result = .ok reply ∧ reply.isSuccess = true := by
  cases result with
  | error e => cases h
  | ok reply =>
    simp only [judge] at h
    split at h <;> cases h
    next hs => exact ⟨rfl, reply, rfl, hs⟩

/-- With what the judged connection fails, it is broken. -/
theorem judge_error {result : Except Error Reply} {e : Error} (h : c.judge result = (.error e, c')) :
    (result = .error e ∧ c' = c) ∨
      ∃ reply, result = .ok reply ∧ reply.isSuccess = false ∧ c' = c.setBroken := by
  cases result with
  | error e' => cases h; exact .inl ⟨rfl, rfl⟩
  | ok reply =>
    simp only [judge] at h
    split at h <;> cases h
    next hs => exact .inr ⟨reply, rfl, by simpa using hs, rfl⟩

/-- A probe that passed leaves the connection in use. -/
theorem passed_status {result : Except Error Reply} {c'' : Connection} (hp : c.poll now r = (.ready result, c'))
    (hj : c'.judge result = (.ok (), c'')) (hc : c.status = .inUse) : c''.status = .inUse := by
  obtain ⟨rfl, reply, rfl, hs⟩ := judge_ok hj
  rw [poll_ok_status hp (by simp [hc]), if_neg, hc]
  intro hcode
  rw [Reply.isSuccess, hcode] at hs
  cases hs

/-- One that failed leaves it broken. -/
theorem failed_status {result : Except Error Reply} {c'' : Connection} {e : Error}
    (hp : c.poll now r = (.ready result, c')) (hj : c'.judge result = (.error e, c''))
    (hc : c.status = .inUse) : c''.status = .broken := by
  rcases judge_error hj with ⟨rfl, rfl⟩ | ⟨reply, rfl, -, rfl⟩
  · exact poll_error_status hp (by simp [hc])
  · exact setBroken_status (by rcases poll_status hp hc with h | h <;> simp [h])

end Connection

namespace Pool

/-! ## Places -/

/-- The status that a connection has in a task. -/
def Work.Fits : Work → Prop
  | .acquire _ (.verifying c _) | .acquire _ (.opening (.named c)) | .serve _ (.named c)
  | .acquire _ (.handed (.ok c)) | .giveBack c | .exchange _ _ c (some _) => c.status = .inUse
  | .acquire _ (.unsound c) | .acquire _ (.discarding c _) => c.status = .broken
  | .exchange _ _ c none => c.status = .inUse ∨ c.status = .broken
  | .close _ _ c (some _) => c.status = .inUse ∨ c.status = .idle
  | .close _ _ c none | .giveUp c => c.status ≠ .closed
  | _ => True

namespace Service

variable {w : Service} {s : Step} {t : Ticket} {c : Connection}

/-- Every connection has the status that belongs to its place. -/
structure Fitted (w : Service) : Prop where
  work : ∀ t work, w.work? t = some work → work.Fits
  held : ∀ p ∈ w.holding, p.2.status = .inUse ∨ p.2.status = .broken
  parked : ∀ c, w.Parked c → c.status = .idle

namespace Fitted

theorem held? (h : w.Fitted) {owner : String} (hc : w.held? owner = some c) :
    c.status = .inUse ∨ c.status = .broken := by
  obtain ⟨before, after, he, -⟩ := List.lookup_eq_some_iff.1 hc
  exact h.held (owner, c) (by rw [he]; exact List.mem_append_right _ List.mem_cons_self)

theorem released (h : w.Fitted) (hr : Released w s c) : c.status = .inUse ∨ c.status = .broken := by
  cases hr with
  | request _ hc => exact h.held? hc
  | giveBack ht => exact .inl (h.work _ _ ht)

theorem sound (h : w.Fitted) (hr : Released w s c) (hb : c.isBroken = false) : c.status = .inUse := by
  refine (h.released hr).resolve_right fun hbroken => ?_
  exact absurd (hb.symm.trans ((Connection.isBroken_eq c).2 (.inl hbroken))) Bool.false_ne_true

theorem dismissed (h : w.Fitted) (hd : Dismissed w s c) : c.status ≠ .closed := by
  rcases hd with hr | ⟨_, -, hp⟩
  · rcases h.released hr with he | he <;> simp [he]
  · simp [h.parked c hp]

/-- A connection that an acquire returns is in use. -/
theorem concludes (h : w.Fitted) {owner : String} {step : Acquire} (ht : w.work? t = some (.acquire owner step))
    (hc : w.Concludes step (.ok c)) : c.status = .inUse := by
  have hfit := h.work _ _ ht
  cases hc with
  | verified hp hj => exact Connection.passed_status hp hj hfit
  | opened hr =>
    rw [runOpening_ends hr] at hfit
    exact hfit
  | handed => exact hfit

theorem comes (h : w.Fitted) {work : Work} (hc : Comes w s t work) : work.Fits := by
  cases hc with
  | starts _ hs =>
    cases hs with
    | exchange hc => exact h.held? hc
    | close hc => rcases h.held? hc with he | he <;> simp [Work.Fits, he]
    | dismiss hd => exact h.dismissed hd
    | giveUp hd => exact h.dismissed hd
    | _ => exact True.intro
  | goes ht hg =>
    have hold := h.work _ _ ht
    cases hg with
    | reuse hl _ htake hb =>
      obtain ⟨_, _, _, -, rfl, -⟩ := Ledger.takeIdle_some htake
      exact Connection.begin_ok_status hb
    | reuseFails hl _ htake hb =>
      obtain ⟨_, _, _, -, rfl, -⟩ := Ledger.takeIdle_some htake
      exact Connection.begin_error_status hb (by simp)
    | verify hp => exact (Connection.poll_pending_status hp).trans hold
    | verifyFails hp hj => exact Connection.failed_status hp hj hold
    | reserve => exact hold
    | opening hr => cases runOpening_goesOn hr <;> trivial
    | begin hb =>
      have hsound := (Connection.begin_ok hb).1
      refine (Connection.begin_ok_status hb).trans (hold.resolve_right fun hbroken => ?_)
      exact absurd (hsound.symm.trans ((Connection.isBroken_eq _).2 (.inl hbroken))) Bool.false_ne_true
    | exchange hp => exact (Connection.poll_pending_status hp).trans hold
    | @quit _ _ c c' _ _ hb =>
      have hsound := (Connection.begin_ok hb).1
      have hclosed : c.status ≠ .closed := hold
      show c'.status = .inUse ∨ c'.status = .idle
      rw [Connection.begin_ok_status hb]
      cases hs : c.status with
      | inUse => exact .inl rfl
      | idle => exact .inr rfl
      | broken => simp [Connection.isBroken, hs] at hsound
      | closed => exact absurd hs hclosed
    | @quitting _ _ c c' _ _ _ _ hp =>
      show c'.status = .inUse ∨ c'.status = .idle
      rw [Connection.poll_pending_status hp]
      exact hold
    | @expire _ _ l _ c hl htake =>
      obtain ⟨deadline, -, hslot, -⟩ := Ledger.takeExpired_some htake
      have hidle := h.parked c ⟨l, _, deadline, hl, Ledger.slot?_mem hslot⟩
      simp [Work.Fits, hidle]
    | serve hr => cases runOpening_goesOn hr <;> trivial
    | bounce hr =>
      rw [runOpening_ends hr] at hold
      exact hold
    | _ => exact True.intro
  | @handed _ _ owner result _ hr hb =>
    cases hr with
    | @released _ c hrel _ => exact h.sound hrel (hb c rfl hrel)
    | opened ht hend =>
      have hold := h.work _ _ ht
      rw [runOpening_ends hend] at hold
      cases result with
      | ok c => exact hold
      | error e => exact True.intro
    | closed => exact True.intro
  | drained => exact True.intro

theorem gets (h : w.Fitted) (hn : (w.tasks.map Task.ticket).Nodup) {owner : String} (hg : Gets w s owner c) :
    c.status = .inUse ∨ c.status = .broken := by
  cases hg with
  | verified ht hp hj => exact .inl (Connection.passed_status hp hj (h.work _ _ ht))
  | opened ht hr =>
    have hold := h.work _ _ ht
    rw [runOpening_ends hr] at hold
    exact .inl hold
  | handed ht => exact .inl (h.work _ _ ht)
  | refused ht hb =>
    refine .inr (Connection.begin_error_status hb ?_)
    rcases h.work _ _ ht with he | he <;> simp [he]
  | replied ht hp => exact Connection.poll_status hp (h.work _ _ ht)
  | @probed t owner c c' reader result ht hp =>
    cases hj : c'.judge result with
    | mk verdict c'' =>
      cases verdict with
      | ok u => exact .inl (Connection.passed_status hp hj (h.work _ _ ht))
      | error e => exact .inr (Connection.failed_status hp hj (h.work _ _ ht))
  | spoilt hc => exact .inr (Connection.setBroken_status (by rcases h.held? hc with he | he <;> simp [he]))
  | @abandoned owner task purpose c reader hu he =>
    have hold := h.work _ _ ((underWay?_work hn hu).1.trans (congrArg some he))
    cases reader with
    | none => exact hold
    | some reader => exact .inl hold

theorem step (h : w.Fitted) (hn : (w.tasks.map Task.ticket).Nodup) (s : Step) : (w.step s).Fitted := by
  have heff := step_effect w s
  refine ⟨fun t work hw => ?_, fun p hp => ?_, fun c hc => ?_⟩
  · rcases step_work hw with hw | hc
    · exact h.work t work hw
    · exact h.comes hc
  · rcases heff.held p hp with hmem | hg
    · exact h.held p hmem
    · exact h.gets hn hg
  · obtain ⟨l, id, deadline, hl, hmem⟩ := hc
    rcases heff.parked id c deadline ⟨l, hl, hmem⟩ with ⟨l, hl, hmem⟩ | ⟨-, -⟩
    · exact h.parked c ⟨l, id, deadline, hl, hmem⟩
    · rfl

theorem new (config : Config) (spawns : Bool) (peers : List Peer) : (Service.new config spawns peers).Fitted := by
  refine ⟨fun t work hw => ?_, fun p hp => ?_, fun c hc => ?_⟩
  · cases hw
  · cases hp
  · obtain ⟨l, _, _, hl, hmem⟩ := hc
    cases hl
    cases hmem

theorem steps (h : w.Fitted) (ha : Accounts [] w none 0) (run : List Step) : (w.steps run).Fitted := by
  induction run generalizing w with
  | nil => exact h
  | cons s run ih => exact ih (h.step ha.tickets s) (ha.step s)

end Fitted

end Service

end Pool

end SmtpClient
