/-
Closing a pool and its drain. A closing pool has no queue and nothing parked,
and only shrinks; the step that leaves nothing in it tells the outside, and no
other does (`step_told`). `poolClosed` is what acquires learn from then on,
and they learn it only then or from a connector.
-/
import Mathlib.Data.List.Induction
import SmtpClient.Proofs.Effects
import SmtpClient.Proofs.Faults

namespace SmtpClient.Pool

/-! ## The ledger -/

namespace Ledger

variable {l l' : Ledger} {limit : Nat} {serves : Bool} {closes : Option DrainCall → Prop} {calls : List Outcall}

/-- In a closing pool nobody waits and nothing is parked. -/
def Shut (l : Ledger) : Prop :=
  l.closing = true → l.waiters = [] ∧ l.idleCount = 0

/-- Closing, and nothing is left. -/
def Emptied (l : Ledger) : Prop :=
  l.closing = true ∧ l.count = 0

/-- The drain is reported as soon as nothing is left. -/
def Settled (l : Ledger) : Prop :=
  l.drained = true ↔ l.Emptied

theorem idleCount_closed (l : Ledger) (onDrained : Option DrainCall) : (l.closed onDrained).idleCount = 0 := by
  rw [idleCount_eq_zero]
  intro p hp
  obtain ⟨q, -, rfl⟩ := List.mem_map.1 hp
  rfl

theorem not_emptied (h : l.closing = false) : ¬ l.Emptied := fun he =>
  absurd (h.symm.trans he.1) Bool.false_ne_true

/-- What is left to happen to a closing pool: its ledger loses slots, and with
the last one it drains. -/
structure Sinks (l l' : Ledger) (calls : List Outcall) : Prop where
  closing : l'.closing = true
  waiters : l'.waiters = l.waiters
  idle : l.idleCount = 0 → l'.idleCount = 0
  count : l'.count ≤ l.count
  drain :
    (l'.onDrained = l.onDrained ∧ l'.drained = l.drained ∧ calls = [] ∧
      (l'.count = 0 → l.count = 0 ∨ l.drained = true)) ∨
    (l.drained = false ∧ l'.drained = true ∧ l'.count = 0 ∧ calls = Service.told (some l.onDrained))

theorem Sinks.refl (h : l.closing = true) : Sinks l l [] :=
  ⟨h, rfl, id, Nat.le_refl _, .inl ⟨rfl, rfl, rfl, .inl⟩⟩

theorem closing_turn (ht : Turn limit serves closes l l' calls) (h : l.closing = true) : Sinks l l' calls := by
  have hopen : l.closing ≠ false := by simp [h]
  cases ht with
  | none => exact .refl h
  | acquire caller =>
    rcases l.acquire_cases limit caller with ⟨-, ha⟩ | ⟨hc, -⟩ | ⟨hc, -⟩ | ⟨hc, -⟩
    · rw [ha]; exact .refl h
    all_goals exact absurd hc hopen
  | reserve =>
    rcases l.reserveReplacement_cases with ⟨-, hr⟩ | ⟨hc, -⟩
    · rw [hr]; exact .refl h
    · exact absurd hc hopen
  | enter id => exact ⟨h, rfl, idleCount_put_lent, Nat.le_refl _, .inl ⟨rfl, rfl, rfl, .inl⟩⟩
  | accept keepAlive waits deadline c =>
    rcases l.accept_cases keepAlive waits deadline c with ⟨-, ha⟩ | ⟨hc, -⟩ | ⟨hc, -⟩
    · rw [ha]; exact .refl h
    all_goals exact absurd hc hopen
  | expire hx =>
    obtain ⟨_, -, -, rfl⟩ := takeExpired_some hx
    exact ⟨h, rfl, idleCount_put_lent, Nat.le_refl _, .inl ⟨rfl, rfl, rfl, .inl⟩⟩
  | vacate waits id =>
    rcases l.vacate_cases limit serves waits id with
      ⟨-, hnot, hv⟩ | ⟨hc, -⟩ | ⟨hc, -⟩ | ⟨-, hcount, hd, hv⟩
    · rw [hv]
      refine ⟨h, rfl, fun hi => idleCount_strike hi id, Nat.sub_le _ _, .inl ⟨rfl, rfl, rfl, fun hz => ?_⟩⟩
      cases hd : l.drained with
      | true => exact .inr rfl
      | false => exact absurd ⟨h, hz, hd⟩ hnot
    · exact absurd hc hopen
    · exact absurd hc hopen
    · rw [hv]
      exact ⟨h, rfl, fun hi => idleCount_strike hi id, Nat.sub_le _ _, .inr ⟨hd, rfl, hcount, rfl⟩⟩
  | close _ hb => exact absurd (beginClose_some hb).1 hopen

/-- Only a close closes an open pool; with nothing left it drains at once. -/
theorem open_turn (ht : Turn limit serves closes l l' calls) (h : l.closing = false) :
    (l'.closing = false ∧ l'.drained = l.drained ∧ calls = []) ∨
    ∃ onDrained, closes onDrained ∧ l'.closing = true ∧ l'.waiters = [] ∧ l'.idleCount = 0 ∧
      ((l'.onDrained = onDrained ∧ l'.drained = l.drained ∧ calls = [] ∧ (l'.count = 0 → l.drained = true)) ∨
        (l'.drained = true ∧ l'.count = 0 ∧ calls = Service.told (some onDrained))) := by
  cases ht with
  | none => exact .inl ⟨h, rfl, rfl⟩
  | acquire caller =>
    rcases l.acquire_cases limit caller with ⟨-, ha⟩ | ⟨-, c, l', htake, ha⟩ | ⟨-, -, -, ha⟩ | ⟨-, -, -, ha⟩
    · rw [ha]; exact .inl ⟨h, rfl, rfl⟩
    · obtain ⟨_, _, _, _, -, rfl⟩ := takeIdle_some htake
      rw [ha]
      exact .inl ⟨h, rfl, rfl⟩
    · rw [ha]; exact .inl ⟨h, rfl, rfl⟩
    · rw [ha]; exact .inl ⟨h, rfl, rfl⟩
  | reserve =>
    rcases l.reserveReplacement_cases with ⟨-, hr⟩ | ⟨-, hr⟩ <;> rw [hr] <;> exact .inl ⟨h, rfl, rfl⟩
  | enter id => exact .inl ⟨h, rfl, rfl⟩
  | accept keepAlive waits deadline c =>
    rcases l.accept_cases keepAlive waits deadline c with
      ⟨-, ha⟩ | ⟨-, gone, t, rest, -, -, -, ha⟩ | ⟨-, -, ha⟩ <;> rw [ha] <;> exact .inl ⟨h, rfl, rfl⟩
  | expire hx =>
    obtain ⟨_, -, -, rfl⟩ := takeExpired_some hx
    exact .inl ⟨h, rfl, rfl⟩
  | vacate waits id =>
    rcases l.vacate_cases limit serves waits id with
      ⟨-, -, hv⟩ | ⟨-, -, hv⟩ | ⟨-, -, gone, t, rest, -, -, -, hv⟩ | ⟨hc, -⟩
    · rw [hv]; exact .inl ⟨h, rfl, rfl⟩
    · rw [hv]; exact .inl ⟨h, rfl, rfl⟩
    · rw [hv]; exact .inl ⟨h, rfl, rfl⟩
    · exact absurd (h.symm.trans hc) Bool.false_ne_true
  | @close onDrained _ _ hc hb =>
    right
    refine ⟨onDrained, hc, ?_⟩
    obtain ⟨-, -, -, ⟨⟨hcount, -⟩, hd, rfl⟩ | ⟨hnot, hd, rfl⟩⟩ := beginClose_some hb
    · exact ⟨rfl, rfl, idleCount_closed l onDrained, .inr ⟨rfl, hcount, by rw [hd]⟩⟩
    · refine ⟨rfl, rfl, idleCount_closed l onDrained, .inl ⟨rfl, rfl, by rw [hd]; rfl, fun hz => ?_⟩⟩
      cases hd' : l.drained with
      | true => rfl
      | false => exact absurd ⟨hz, hd'⟩ hnot

theorem Shut.turn (h : l.Shut) (ht : Turn limit serves closes l l' calls) : l'.Shut := by
  intro hc'
  cases hc : l.closing with
  | true =>
    have hs := closing_turn ht hc
    exact ⟨hs.waiters.trans (h hc).1, hs.idle (h hc).2⟩
  | false =>
    rcases open_turn ht hc with ⟨ho, -⟩ | ⟨_, -, -, hw, hi, -⟩
    · exact absurd (ho.symm.trans hc') Bool.false_ne_true
    · exact ⟨hw, hi⟩

theorem Emptied.turn (h : l.Emptied) (ht : Turn limit serves closes l l' calls) : l'.Emptied := by
  have hs := closing_turn ht h.1
  exact ⟨hs.closing, Nat.eq_zero_of_le_zero (h.2 ▸ hs.count)⟩

/-- **One drain.** The turn that leaves nothing in a closing pool tells the
outside, and no other turn does. -/
theorem Settled.turn (h : l.Settled) (ht : Turn limit serves closes l l' calls) :
    l'.Settled ∧
    ((¬ l.Emptied ∧ l'.Emptied ∧ ∃ onDrained, calls = Service.told (some onDrained) ∧
        ((l.closing = true ∧ onDrained = l.onDrained) ∨ (l.closing = false ∧ closes onDrained))) ∨
      ((l.Emptied ∨ ¬ l'.Emptied) ∧ calls = [])) := by
  cases hc : l.closing with
  | true =>
    have hs := closing_turn ht hc
    rcases hs.drain with ⟨-, hd, hcalls, hz⟩ | ⟨hd, hd', hz, hcalls⟩
    · -- No slot is lost, or not the last one.
      have hback : l'.Emptied → l.Emptied := fun he => by
        rcases hz he.2 with hz | hd
        · exact ⟨hc, hz⟩
        · exact h.1 hd
      refine ⟨⟨fun hd' => (h.1 (hd ▸ hd')).turn ht, fun he => hd.trans (h.2 (hback he))⟩, .inr ⟨?_, hcalls⟩⟩
      by_cases he : l.Emptied
      · exact .inl he
      · exact .inr fun he' => he (hback he')
    · have hnot : ¬ l.Emptied := fun he => absurd (hd.symm.trans (h.2 he)) Bool.false_ne_true
      exact ⟨⟨fun _ => ⟨hs.closing, hz⟩, fun _ => hd'⟩,
        .inl ⟨hnot, ⟨hs.closing, hz⟩, l.onDrained, hcalls, .inl ⟨rfl, rfl⟩⟩⟩
  | false =>
    have hnot : ¬ l.Emptied := not_emptied hc
    have hd : l.drained = false := by simpa using fun hd => hnot (h.1 hd)
    rcases open_turn ht hc with ⟨ho, hd', hcalls⟩ | ⟨d, hclose, hc', -, -, ⟨-, hd', hcalls, hz⟩ | ⟨hd', hz, hcalls⟩⟩
    · have hnot' : ¬ l'.Emptied := not_emptied ho
      exact ⟨⟨fun ht => absurd (hd.symm.trans (hd'.symm.trans ht)) Bool.false_ne_true, fun he => absurd he hnot'⟩,
        .inr ⟨.inr hnot', hcalls⟩⟩
    · have hnot' : ¬ l'.Emptied := fun he => absurd (hd.symm.trans (hz he.2)) Bool.false_ne_true
      exact ⟨⟨fun ht => absurd (hd.symm.trans (hd'.symm.trans ht)) Bool.false_ne_true, fun he => absurd he hnot'⟩,
        .inr ⟨.inr hnot', hcalls⟩⟩
    · exact ⟨⟨fun _ => ⟨hc', hz⟩, fun _ => hd'⟩, .inl ⟨hnot, ⟨hc', hz⟩, d, hcalls, .inr ⟨rfl, hclose⟩⟩⟩

end Ledger

theorem Work.holdsPool_of_reserves {work : Work} (h : work.reserves = true) : work.holdsPool = true := by
  cases work with
  | acquire | serve => rfl
  | _ => cases h

namespace Service

variable {w : Service} {s : Step} {l l' : Ledger} {t : Ticket} {owner : String}

/-! ## A pool that is gone -/

/-- While somebody can use the pool it is there. -/
def Kept (w : Service) : Prop :=
  w.ledger = none → w.handle = false ∧ ∀ t work, w.work? t = some work → work.holdsPool = false

theorem Kept.ledger (h : w.Kept) {work : Work} (ht : w.work? t = some work) (hh : work.holdsPool = true) :
    ∃ l, w.ledger = some l :=
  Option.ne_none_iff_exists'.1 fun hnone =>
    Bool.false_ne_true (((h hnone).2 t work ht).symm.trans hh)

theorem reap_handle (w : Service) : w.reap.handle = w.handle := by
  unfold reap
  split <;> rfl

theorem step_handle (h : (w.step s).handle = true) : w.handle = true := by
  refine (step_turned w s).handle ?_
  rcases step_act w s with hw | hw
  · exact hw ▸ h
  · rw [hw, reap_handle] at h
    exact h

theorem step_outcalls (w : Service) (s : Step) : (w.step s).outcalls = (w.act s).outcalls := by
  rcases step_act w s with he | he
  · rw [he]
  · rw [he]
    unfold reap
    split <;> rfl

/-- Nobody gets at a pool that is gone. -/
theorem Comes.holdsPool {x : Ticket} {work : Work} (h : Comes w s x work) (hl : w.ledger = none)
    (hh : w.handle = false) (ht : ∀ t work, w.work? t = some work → work.holdsPool = false) :
    work.holdsPool = false := by
  have hgone : ∀ {l}, w.ledger ≠ some l := fun he => by cases hl.symm.trans he
  have hnot : ¬ w.handle = true := by simp [hh]
  have hclose : ∀ {onDrained}, ¬ Closes w s onDrained := by
    intro onDrained hc
    cases hc with
    | request hh => exact hnot hh
    | shutdown hs => cases ht _ _ hs
  cases h with
  | starts _ hs =>
    cases hs with
    | acquire hh => exact absurd hh hnot
    | shutdown hh => exact absurd hh hnot
    | serve hq => simp [queue, hl] at hq
    | giveUp hd =>
      rcases hd with hr | ⟨_, hc, -⟩
      · cases hr with
        | request hh => exact absurd hh hnot
        | giveBack hb => cases ht _ _ hb
      · exact absurd hc hclose
    | _ => rfl
  | goes hw hg =>
    have hold := ht _ _ hw
    cases hg with
    | begin | exchange => rfl
    | quit | quitting => exact hold
    | expire hl' => exact absurd hl' hgone
    | _ => cases hold
  | handed hw => cases ht _ _ hw
  | drained hw => cases ht _ _ hw

theorem Kept.step (h : w.Kept) (s : Step) : (w.step s).Kept := by
  intro hl'
  cases hl : w.ledger with
  | none =>
    obtain ⟨hh, ht⟩ := h hl
    have hh' : ¬ (w.step s).handle = true := fun hh' =>
      absurd (hh.symm.trans (step_handle hh')) Bool.false_ne_true
    refine ⟨by simpa using hh', fun x work hw => ?_⟩
    rcases step_work hw with hw | hc
    · exact ht x work hw
    · exact hc.holdsPool hl hh ht
  | some l =>
    obtain ⟨l₁, hl₁⟩ := act_ledger hl s
    rcases step_act w s with hw | hw
    · rw [hw, hl₁] at hl'
      cases hl'
    · rcases reap_eq (w.act s) with he | ⟨he, hh, ht⟩
      · rw [hw, he, hl₁] at hl'
        cases hl'
      · rw [hw, he]
        refine ⟨hh, fun x work hx => ?_⟩
        obtain ⟨task, hmem, -, rfl⟩ := work?_some hx
        exact ht task hmem

theorem Kept.steps (h : w.Kept) (run : List Step) : (w.steps run).Kept := by
  induction run generalizing w with
  | nil => exact h
  | cons s run ih => exact ih (h.step s)

theorem kept_new (config : Config) (spawns : Bool) (peers : List Peer) : (new config spawns peers).Kept :=
  fun h => by cases h

/-! ## Runs -/

/-- Something happened in a run, in a state and a step like these. -/
def Happened (w : Service) (run : List Step) (p : Service → Step → Prop) : Prop :=
  ∃ before s later, run = before ++ s :: later ∧ p (w.steps before) s

theorem happened_last {p : Service → Step → Prop} {run : List Step} (h : p (w.steps run) s) :
    w.Happened (run ++ [s]) p :=
  ⟨run, s, [], rfl, h⟩

theorem Happened.mono {p : Service → Step → Prop} {run : List Step} (h : w.Happened run p) (s : Step) :
    w.Happened (run ++ [s]) p := by
  obtain ⟨before, s', later, rfl, hp⟩ := h
  exact ⟨before, s', later ++ [s], by simp, hp⟩

/-- A call in this run closed the pool, and wants this one told of the drain. -/
def ClosedFor (w : Service) (run : List Step) (onDrained : Option DrainCall) : Prop :=
  w.Happened run fun w s => (∃ l, w.ledger = some l ∧ l.closing = false) ∧ w.Closes s onDrained

/-- The pool is closing and nothing is left in it. -/
def Emptied (w : Service) : Prop :=
  ∃ l, w.ledger = some l ∧ l.Emptied

/-- What a run of closes and drains has come to. -/
structure Draining (w : Service) (run : List Step) : Prop where
  shut : ∀ l, (w.steps run).ledger = some l → l.Shut
  settled : ∀ l, (w.steps run).ledger = some l → l.Settled
  closed : ∀ l, (w.steps run).ledger = some l → l.closing = true →
    ∃ onDrained, w.ClosedFor run onDrained ∧ (l.Emptied ∨ l.onDrained = onDrained)
  told : ∀ l, (w.steps run).ledger = some l → ¬ l.Emptied → (w.steps run).outcalls = []

namespace Draining

variable {run : List Step} {config : Config} {spawns : Bool} {peers : List Peer}

theorem new : Draining (Service.new config spawns peers) [] := by
  have hopen : ∀ {l : Ledger}, (Service.new config spawns peers).ledger = some l → l.closing = false :=
    fun hl => by cases hl; rfl
  refine ⟨fun l hl hc => ?_, fun l hl => ?_, fun l hl hc => ?_, fun l hl _ => rfl⟩
  · exact absurd ((hopen hl).symm.trans hc) Bool.false_ne_true
  · cases hl
    exact ⟨fun hd => (Bool.false_ne_true hd).elim, fun he => absurd he (Ledger.not_emptied rfl)⟩
  · exact absurd ((hopen hl).symm.trans hc) Bool.false_ne_true

theorem step (h : Draining w run) (s : Step) : Draining w (run ++ [s]) := by
  have hturn : ∀ {l'}, (w.steps (run ++ [s])).ledger = some l' → ∃ l calls, (w.steps run).ledger = some l ∧
      Turn (w.steps run).limit (w.steps run).spawns ((w.steps run).Closes s) l l' calls ∧
      (w.steps (run ++ [s])).outcalls = (w.steps run).outcalls ++ calls := by
    intro l' hl'
    rw [steps_snoc] at hl' ⊢
    exact step_ledger hl'
  refine ⟨fun l' hl' => ?_, fun l' hl' => ?_, fun l' hl' hc' => ?_, fun l' hl' hnot => ?_⟩ <;>
    obtain ⟨l, calls, hl, ht, hcalls⟩ := hturn hl'
  · exact (h.shut l hl).turn ht
  · exact ((h.settled l hl).turn ht).1
  · cases hc : l.closing with
    | true =>
      obtain ⟨d, hd, hl₀⟩ := h.closed l hl hc
      refine ⟨d, hd.mono s, ?_⟩
      rcases hl₀ with he | rfl
      · exact .inl (he.turn ht)
      · rcases (Ledger.closing_turn ht hc).drain with ⟨hd', -⟩ | ⟨-, -, hz, -⟩
        · exact .inr hd'
        · exact .inl ⟨hc', hz⟩
    | false =>
      rcases Ledger.open_turn ht hc with ⟨ho, -⟩ | ⟨d, hclose, -, -, -, hd⟩
      · exact absurd (ho.symm.trans hc') Bool.false_ne_true
      · refine ⟨d, happened_last ⟨⟨l, hl, hc⟩, hclose⟩, ?_⟩
        rcases hd with ⟨hd, -⟩ | ⟨-, hz, -⟩
        · exact .inr hd
        · exact .inl ⟨hc', hz⟩
  · have hnot' : ¬ l.Emptied := fun he => hnot (he.turn ht)
    rcases ((h.settled l hl).turn ht).2 with ⟨-, he, -⟩ | ⟨-, hnone⟩
    · exact absurd he hnot
    · rw [hcalls, hnone, h.told l hl hnot', List.append_nil]

theorem steps (run : List Step) : Draining (Service.new config spawns peers) run := by
  induction run using List.reverseRecOn with
  | nil => exact .new
  | append_singleton run s ih => exact ih.step s

/-- The step that leaves nothing in a closing pool shuts the connector down
and then tells whom the close named; no other step does either. -/
theorem step_told (h : Draining w run) (s : Step) :
    (¬ (w.steps run).Emptied ∧ ((w.steps run).act s).Emptied ∧ (w.steps run).outcalls = [] ∧
      ∃ onDrained, w.ClosedFor (run ++ [s]) onDrained ∧
        ((w.steps run).step s).outcalls = Service.told (some onDrained)) ∨
    (((w.steps run).Emptied ∨ ¬ ((w.steps run).act s).Emptied) ∧
      ((w.steps run).step s).outcalls = (w.steps run).outcalls) := by
  generalize hw : w.steps run = w₁
  rw [step_outcalls]
  rcases (step_turned w₁ s).turn with ⟨-, hnone, hcalls⟩ | ⟨l, l', calls, hl, hl', ht, hcalls⟩
  · refine .inr ⟨.inr ?_, hcalls⟩
    rintro ⟨_, hl', -⟩
    cases hnone.symm.trans hl'
  have hbefore : w₁.Emptied → l.Emptied := by
    rintro ⟨_, hl₁, he⟩
    cases hl.symm.trans hl₁
    exact he
  have hafter : (w₁.act s).Emptied → l'.Emptied := by
    rintro ⟨_, hl₁, he⟩
    cases hl'.symm.trans hl₁
    exact he
  rcases ((h.settled l (hw ▸ hl)).turn ht).2 with ⟨hnot, he, d, rfl, hd⟩ | ⟨hno, rfl⟩
  · left
    have hnone : w₁.outcalls = [] := hw ▸ h.told l (hw ▸ hl) hnot
    refine ⟨fun he => hnot (hbefore he), ⟨l', hl', he⟩, hnone, d, ?_, by rw [hcalls, hnone, List.nil_append]⟩
    rcases hd with ⟨hc, rfl⟩ | ⟨hc, hclose⟩
    · obtain ⟨d, hd, he | rfl⟩ := h.closed l (hw ▸ hl) hc
      · exact absurd he hnot
      · exact hd.mono s
    · exact happened_last ⟨⟨l, hw ▸ hl, hc⟩, hw ▸ hclose⟩
  · refine .inr ⟨?_, by rw [hcalls, List.append_nil]⟩
    rcases hno with he | hno
    · exact .inl ⟨l, hl, he⟩
    · exact .inr fun he => hno (hafter he)

/-- Whoever was told is told of a pool that is gone or has nothing left. -/
theorem emptied (h : Draining w run) (ho : (w.steps run).outcalls ≠ []) (hl : (w.steps run).ledger = some l) :
    l.Emptied := by
  by_contra hnot
  exact ho (h.told l hl hnot)

end Draining

/-! ## After the drain -/

/-- The pool is gone or has nothing left. -/
def Over (w : Service) : Prop :=
  ∀ l, w.ledger = some l → l.Emptied

theorem Over.step (h : w.Over) (s : Step) : (w.step s).Over := by
  intro l' hl'
  obtain ⟨l, _, hl, ht, -⟩ := step_ledger hl'
  exact (h l hl).turn ht

/-- No attempt is under way then. -/
theorem Over.attempts (h : w.Over) (hk : w.Kept) (ha : Accounts [] w none 0) : w.attempts = 0 := by
  cases hl : w.ledger with
  | none =>
    refine List.countP_eq_zero.2 fun task hmem hr => ?_
    have hold := (hk hl).2 _ _ (work?_eq ha.tickets hmem)
    exact absurd (hold.symm.trans (Work.holdsPool_of_reserves hr)) Bool.false_ne_true
  | some l =>
    have hcount := (ha.booked hl).count_attempts
    rw [(h l hl).2] at hcount
    omega

theorem Over.live (h : w.Over) (ha : Accounts [] w none 0) (hl : w.ledger = some l) : l.live = [] := by
  have hcount := (ha.booked hl).count_attempts
  rw [(h l hl).2] at hcount
  exact List.length_eq_zero_iff.1 (by omega)

theorem Connects.attempts (h : w.Connects s) : w.attempts ≠ 0 := by
  have hsome : ∀ {t work}, w.work? t = some work → work.reserves = true → w.attempts ≠ 0 := by
    intro t work hw hr hz
    obtain ⟨task, hmem, -, rfl⟩ := work?_some hw
    exact List.countP_eq_zero.1 hz task hmem hr
  cases h with
  | acquire hw => exact hsome hw rfl
  | serve hw => exact hsome hw rfl

/-- Nothing is opened and nobody is told any more. -/
theorem Over.steps (h : w.Over) (hk : w.Kept) (ha : Accounts [] w none 0)
    (hs : ∀ l, w.ledger = some l → l.Settled) (later : List Step) :
    (∀ l, (w.steps later).ledger = some l → l.live = [] ∧ l.count = 0) ∧
    (w.steps later).attempts = 0 ∧ (w.steps later).connects = w.connects ∧
    (w.steps later).outcalls = w.outcalls := by
  induction later generalizing w with
  | nil => exact ⟨fun l hl => ⟨h.live ha hl, (h l hl).2⟩, h.attempts hk ha, rfl, rfl⟩
  | cons s later ih =>
    have hconnects : (w.step s).connects = w.connects := by
      rcases (step_effect w s).connects with ⟨he, -⟩ | ⟨hc, -⟩
      · exact he
      · exact absurd (h.attempts hk ha) hc.attempts
    have hout : (w.step s).outcalls = w.outcalls := by
      rw [step_outcalls]
      rcases (step_turned w s).turn with ⟨-, -, hcalls⟩ | ⟨l, l', calls, hl, -, ht, hcalls⟩
      · exact hcalls
      · rcases ((hs l hl).turn ht).2 with ⟨hnot, -⟩ | ⟨-, rfl⟩
        · exact absurd (h l hl) hnot
        · rw [hcalls, List.append_nil]
    have hs' : ∀ l', (w.step s).ledger = some l' → l'.Settled := fun l' hl' => by
      obtain ⟨l, _, hl, ht, -⟩ := step_ledger hl'
      exact ((hs l hl).turn ht).1
    obtain ⟨hleft, hopening, hc, ho⟩ := ih (h.step s) (hk.step s) (ha.step s) hs'
    exact ⟨hleft, hopening, hc.trans hconnects, ho.trans hout⟩

end Service

end SmtpClient.Pool
