/-
Who has a connection. Every connection that is left has one owner, also when its
pool is gone (`Tracked.unique`), and an identifier that some connection has is not
given to another one (`Taken`). With both, what becomes of a connection can be
followed through a run by its identifier.
-/
import SmtpClient.Proofs.Drain
import SmtpClient.Proofs.Statuses

namespace SmtpClient

namespace Connection

variable {c c' : Connection}

theorem id_of_begin {command : Command} {result : Except Error ReplyReader}
    (h : c.begin command = (result, c')) : c'.id = c.id := by
  rw [← c.begin_id command, h]

theorem id_of_poll {now : Nat} {reader : ReplyReader} {progress : Poll ReplyReader Reply}
    (h : c.poll now reader = (progress, c')) : c'.id = c.id := by
  rw [← c.poll_id now reader, h]

theorem id_of_judge {result : Except Error Reply} {verdict : Except Error Unit}
    (h : c.judge result = (verdict, c')) : c'.id = c.id := by
  rw [← c.judge_id result, h]

end Connection

namespace Pool.Service

variable {w w' : Service} {s : Step} {t : Ticket} {c c' : Connection} {p : Place} {id : Nat}

/-! ## Connections that are left -/

/-- All connections that are left, each with its owner. -/
def connections (w : Service) : List (Connection × Place) :=
  w.owned (w.ledger.getD {})

/-- Where a connection can be. -/
inductive Has (w : Service) : Connection → Place → Prop where
  | parked {l : Ledger} {id deadline : Nat} {c : Connection} : w.ledger = some l →
    (id, .idle c deadline) ∈ l.live → Has w c (.slot id)
  | held {owner : String} {c : Connection} : (owner, c) ∈ w.holding → Has w c (.caller owner)
  | task {task : Task} {c : Connection} {p : Place} : task ∈ w.tasks → task.owns = some (c, p) → Has w c p

theorem mem_connections : (c, p) ∈ w.connections ↔ w.Has c p := by
  simp only [connections, owned, List.mem_append, List.mem_filterMap, List.mem_map]
  constructor
  · rintro (⟨⟨id, slot⟩, hmem, hslot⟩ | ⟨⟨owner, c⟩, hmem, he⟩ | ⟨task, hmem, howns⟩)
    · obtain ⟨c, hc, he⟩ := Option.map_eq_some_iff.1 hslot
      cases he
      cases slot with
      | lent b => cases hc
      | idle c' deadline =>
        cases hc
        cases hl : w.ledger with
        | none => simp [hl] at hmem
        | some l => exact .parked hl (by simpa [hl] using hmem)
    · cases he
      exact .held hmem
    · exact .task hmem howns
  · rintro (⟨hl, hmem⟩ | hmem | ⟨hmem, howns⟩)
    · exact .inl ⟨_, by simpa [hl] using hmem, rfl⟩
    · exact .inr (.inl ⟨_, hmem, rfl⟩)
    · exact .inr (.inr ⟨_, hmem, howns⟩)

/-! ## A pool that is gone -/

theorem record_eq (w : Service) (o : Outbound) : ∃ written, w.record o = { w with written } := by
  unfold record
  split
  · exact ⟨w.written, rfl⟩
  · exact ⟨_, rfl⟩

theorem items_reap (w : Service) : w.reap.items none = w.items none := by
  unfold reap
  split <;> rfl

theorem vacate_gone (hl : w.ledger = none) (id : Option Nat) : w.vacate id = w := by
  simp only [vacate, hl]

theorem items_ended (hn : (w.tasks.map Task.ticket).Nodup) {work : Work} (ht : w.work? t = some work) :
    (w.endTask t).items none + work.items = w.items none := by
  obtain ⟨task, hmem, rfl, rfl⟩ := work?_some ht
  rw [items_endTask, items_none hn hmem]

theorem items_awaited (hn : (w.tasks.map Task.ticket).Nodup) {work work' : Work} (ht : w.work? t = some work)
    (hi : work'.items = work.items) (wait : Wait) : (w.await t work' wait).items none = w.items none := by
  obtain ⟨task, hmem, rfl, rfl⟩ := work?_some ht
  have hme : (none : Option Ticket) ≠ some task.ticket := by simp
  have h := items_await hn hmem hme work' wait
  rw [hi] at h
  exact add_right_cancel h

/-- An exchange gives its caller the connection back. -/
theorem items_settled (hn : (w.tasks.map Task.ticket).Nodup) {owner : String} {purpose : Purpose}
    {reader : Option ReplyReader} (ht : w.work? t = some (.exchange owner purpose c reader)) (hid : c'.id = c.id)
    (result : Except Error Reply) : (w.settleExchange t owner c' purpose result).items none = w.items none := by
  have hback : ∀ {d : Connection} {e : Event}, d.id = c.id →
      (((w.endTask t).hold owner d).tell owner e).items none = w.items none := by
    intro d e hd
    show ((w.endTask t).hold owner d).items none = _
    rw [items_hold, hd]
    exact items_ended hn ht
  unfold settleExchange
  cases purpose with
  | command command => cases result <;> exact hback hid
  | probe =>
    have hj : (c'.judge result).2.id = c.id := (c'.judge_id result).trans hid
    dsimp only
    split <;> next he => rw [he] at hj; exact hback hj

/-- A task that still runs when the pool is gone keeps its connection or gives it up. -/
theorem gone_runWork (hn : (w.tasks.map Task.ticket).Nodup) (hl : w.ledger = none) {work : Work}
    (ht : w.work? t = some work) (hfree : work.holdsPool = false) :
    (w.runWork t work).items none ≤ w.items none := by
  have hstays : ∀ {work' : Work} {wait : Wait} {o : Outbound}, work'.items = work.items →
      ((w.record o).await t work' wait).items none = w.items none := by
    intro work' wait o hi
    obtain ⟨written, he⟩ := record_eq w o
    rw [he]
    exact items_awaited (w := { w with written }) hn ht hi wait
  have hover : ∀ {w₁ : Service}, (∃ written, w₁ = { w with written }) → ∀ owner c,
      (w₁.concludeClose t owner c).items none ≤ w.items none := by
    rintro _ ⟨written, rfl⟩ owner c
    have hended := items_ended hn ht
    have hsame : (Service.endTask { w with written } t).discard c = Service.endTask { w with written } t :=
      vacate_gone (w := Service.endTask { w with written } t) hl _
    unfold concludeClose
    rw [hsame, ← hended]
    cases owner <;> exact Multiset.le_add_right _ _
  cases work with
  | exchange owner purpose c reader =>
    cases reader with
    | none =>
      simp only [runWork, runExchange]
      split
      · next hb =>
        exact (hstays (by simp only [Work.items, Connection.id_of_begin hb])).le
      · next c' hb =>
        obtain ⟨written, he⟩ := record_eq w c'.written
        rw [he]
        exact (items_settled (w := { w with written }) hn ht (Connection.id_of_begin hb) _).le
    | some reader =>
      simp only [runWork, runExchange]
      split
      · next hp =>
        exact (items_awaited hn ht (by simp only [Work.items, Connection.id_of_poll hp]) _).le
      · next hp =>
        exact (items_settled hn ht (Connection.id_of_poll hp) _).le
  | close owner holdsPool c quit =>
    cases quit with
    | none =>
      simp only [runWork, runClose]
      split
      · exact hover ⟨_, rfl⟩ owner c
      split
      · next hb =>
        exact (hstays (by simp only [Work.items, Connection.id_of_begin hb])).le
      · exact hover (record_eq w _) owner _
    | some q =>
      simp only [runWork, runClose]
      split
      · exact hover ⟨_, rfl⟩ owner _
      split
      · exact hover ⟨_, rfl⟩ owner _
      · next hp _ =>
        exact (items_awaited hn ht (by simp only [Work.items, Connection.id_of_poll hp]) _).le
  | expiry id deadline =>
    simp only [runWork, runExpiry, hl]
    split
    · exact (items_awaited hn ht rfl _).le
    · exact items_ended hn ht ▸ Multiset.le_add_right _ _
  | _ => cases hfree

/-- Whatever is left when the pool is gone stays, goes to another place or ends. -/
theorem gone_act (hn : (w.tasks.map Task.ticket).Nodup) (hk : w.Kept) (hl : w.ledger = none) (s : Step) :
    (w.act s).items none ≤ w.items none := by
  obtain ⟨hhandle, hfree⟩ := hk hl
  have hpool : ∀ {f : Service → Service}, w.withPool f = .error .noPool := by
    intro f
    simp only [withPool, hhandle, Bool.false_eq_true, if_false]
  have hmoved : ∀ {owner : String} {c : Connection} {work : Work}, w.held? owner = some c →
      work.items = {.connection c.id} → ((w.unhold owner).spawn work).items none = w.items none := by
    intro owner c work hc hi
    rw [items_spawn _ _ (by simp), hi, ← items_unhold hc none]
  have hended : ∀ {task : Task}, task ∈ w.tasks →
      (w.endTask task.ticket).items none + task.work.items = w.items none :=
    fun hmem => items_ended hn (work?_eq hn hmem)
  cases s with
  | tick ms => exact le_rfl
  | run t =>
    simp only [act]
    split
    · exact le_rfl
    · next ht => exact gone_runWork hn hl ht (hfree t _ ht)
  | request q =>
    cases q with
    | cancel owner =>
      simp only [act]
      split
      swap
      · exact le_rfl
      next w₁ hd =>
      obtain ⟨task, htask, hd⟩ := Option.bind_eq_some_iff.1 hd
      have hgone : (w.endTask task.ticket).items none ≤ w.items none :=
        hended (List.mem_of_find?_eq_some htask) ▸ Multiset.le_add_right _ _
      have hsame : ∀ id, (w.endTask task.ticket).vacate id = w.endTask task.ticket :=
        vacate_gone (w := w.endTask task.ticket) hl
      unfold dropTask at hd
      simp only [discard, hsame] at hd
      split at hd <;> cases hd <;> exact hgone
    | abandon owner =>
      show (w.abandon owner).items none ≤ w.items none
      unfold abandon
      split
      swap
      · exact le_rfl
      next htask =>
      rw [items_hold, ← hended (List.mem_of_find?_eq_some htask)]
      exact le_rfl
    | dropPool => exact le_rfl
    | closePool callback =>
      simp only [act, ask, hhandle, Bool.false_eq_true, if_false]
      exact le_rfl
    | acquire owner =>
      simp only [act, ask, hpool]
      exact le_rfl
    | shutdown owner =>
      simp only [act, ask, hpool]
      exact le_rfl
    | exchange owner purpose =>
      simp only [act, ask, withHeld]
      split
      · next c hc => exact (hmoved hc rfl).le
      · exact le_rfl
    | closeConnection owner =>
      simp only [act, ask, withHeld]
      split
      · next c hc => exact (hmoved hc rfl).le
      · exact le_rfl
    | release owner =>
      simp only [act, ask, withHeld, hpool]
      split <;> exact le_rfl
    | drop owner =>
      simp only [act, ask, withHeld]
      split
      · next c hc =>
        show ((w.unhold owner).discard c).items none ≤ _
        rw [discard, vacate_gone (w := w.unhold owner) hl, items_unhold hc none]
        exact Multiset.le_add_right _ _
      · exact le_rfl
    | setBroken owner =>
      simp only [act, ask, withHeld]
      split
      · next c hc =>
        show ((w.unhold owner).hold owner c.setBroken).items none ≤ _
        rw [items_hold, c.setBroken_id, ← items_unhold hc none]
      · exact le_rfl

/-! ## Owners and identifiers -/

/-- A connection that is not recorded yet has this identifier. -/
def Named (w : Service) (id : Nat) : Prop :=
  ∃ t work, w.work? t = some work ∧ work.named? = some id

/-- This identifier was given, and no connection that is still to be recorded has it. -/
structure Taken (w : Service) (id : Nat) : Prop where
  given : id < w.nextId
  recorded : ¬ w.Named id

/-- An identifier is not given again. -/
theorem Taken.step (h : w.Taken id) (s : Step) : (w.step s).Taken id := by
  refine ⟨h.given.trans_le (step_effect w s).named, ?_⟩
  rintro ⟨t, work, hw, hn⟩
  rcases step_work hw with hw | hc
  · exact h.recorded ⟨t, work, hw, hn⟩
  cases hc with
  | starts _ hs => cases hs <;> cases hn
  | goes ht hg =>
    cases hg with
    | opening hr =>
      cases runOpening_goesOn hr with
      | opens => cases hn; exact Nat.lt_irrefl _ h.given
      | _ => cases hn
    | serve hr =>
      cases runOpening_goesOn hr with
      | opens => cases hn; exact Nat.lt_irrefl _ h.given
      | _ => cases hn
    | _ => cases hn
  | handed => cases hn
  | drained => cases hn

theorem taken_reap (h : w.Taken id) : w.reap.Taken id := by
  refine ⟨?_, fun ⟨t, work, hw, hn⟩ => h.recorded ⟨t, work, work?_reap w t ▸ hw, hn⟩⟩
  have hid : w.reap.nextId = w.nextId := by
    unfold reap
    split <;> rfl
  exact hid ▸ h.given

/-- Whatever is recorded has its identifier for itself. -/
theorem taken_of_lists {l : Ledger} (hb : Books [] l w.nextId (w.items none)) (hlists : l.lists id = 1) :
    w.Taken id := by
  have hf := hb.fresh id
  rw [hlists, count_named] at hf
  split at hf
  swap
  · omega
  next hid =>
  refine ⟨hid.1, fun ⟨t, work, hw, hn⟩ => ?_⟩
  obtain ⟨task, htask, -, rfl⟩ := work?_some hw
  have hmem : id ∈ w.tasks.filterMap fun task => task.work.named? :=
    List.mem_filterMap.2 ⟨task, htask, hn⟩
  have hpos := List.count_pos_iff.2 hmem
  omega

theorem lists_of_item {l : Ledger} (hb : Books [] l w.nextId (w.items none)) (hmem : .connection id ∈ w.items none) :
    l.lists id = 1 := by
  obtain ⟨b, hs⟩ := hb.slot?_of_mem hmem
  rw [Ledger.lists, hs]
  rfl

/-- What is known of every connection between two steps: it has one owner, the
status that belongs to its place, and its identifier for itself. -/
structure Tracked (w : Service) : Prop where
  accounts : Accounts [] w none 0
  kept : w.Kept
  fitted : w.Fitted
  once : ∀ id, (w.items none).count (.connection id) ≤ 1
  taken : ∀ id, .connection id ∈ w.items none → w.Taken id

namespace Tracked

theorem new (config : Config) (spawns : Bool) (peers : List Peer) : (Service.new config spawns peers).Tracked where
  accounts := Accounts.new config spawns peers
  kept := kept_new config spawns peers
  fitted := Fitted.new config spawns peers
  once := fun _ => Nat.zero_le 1
  taken := fun _ hmem => absurd hmem (Multiset.notMem_zero _)

theorem step (h : w.Tracked) (s : Step) : (w.step s).Tracked := by
  have hitems : (w.step s).items none = (w.act s).items none := by
    rcases step_act w s with he | he
    · rw [he]
    · rw [he, items_reap]
  have ha := h.accounts.act s
  cases hl : w.ledger with
  | none =>
    have hle := gone_act h.accounts.tickets h.kept hl s
    rw [← hitems] at hle
    refine ⟨h.accounts.step s, h.kept.step s, h.fitted.step h.accounts.tickets s, fun id => ?_, fun id hmem => ?_⟩
    · exact (Multiset.count_le_of_le _ hle).trans (h.once id)
    · exact (h.taken id (Multiset.mem_of_le hle hmem)).step s
  | some l =>
    -- The ledger is still there where the pool is let go.
    obtain ⟨l', hl'⟩ := act_ledger hl s
    have hb := ha.booked hl'
    refine ⟨h.accounts.step s, h.kept.step s, h.fitted.step h.accounts.tickets s, fun id => ?_, fun id hmem => ?_⟩
    · rw [hitems, hb.lent]
      unfold Ledger.lends
      split <;> omega
    · have htaken := taken_of_lists hb (lists_of_item hb (hitems ▸ hmem))
      rcases step_act w s with he | he
      · exact he ▸ htaken
      · exact he ▸ taken_reap htaken

theorem steps (h : w.Tracked) (run : List Step) : (w.steps run).Tracked := by
  induction run generalizing w with
  | nil => exact h
  | cons s run ih => exact ih (h.step s)

theorem count_gone (hl : w.ledger = none) (id : Nat) :
    (w.connections.countP fun q => q.1.id = id) = (w.items none).count (.connection id) := by
  rw [count_connection, connections, hl]
  rfl

theorem count_lists (h : w.Tracked) {l : Ledger} (hl : w.ledger = some l) (id : Nat) :
    (w.connections.countP fun q => q.1.id = id) = l.lists id := by
  rw [connections, hl]
  exact (h.accounts.booked hl).count_owned id

/-- A connection has one owner. -/
theorem count (h : w.Tracked) (id : Nat) : (w.connections.countP fun q => q.1.id = id) ≤ 1 := by
  cases hl : w.ledger with
  | none => exact (count_gone hl id).trans_le (h.once id)
  | some l =>
    rw [h.count_lists hl]
    unfold Ledger.lists
    split <;> omega

theorem unique (h : w.Tracked) (hc : w.Has c p) {p' : Place} (hc' : w.Has c' p') (hid : c'.id = c.id) :
    c' = c ∧ p' = p := by
  have hone := h.count c.id
  have he := eq_of_countP_le_one hone (mem_connections.2 hc') (mem_connections.2 hc) (by simpa using hid) (by simp)
  exact ⟨congrArg Prod.fst he, congrArg Prod.snd he⟩

theorem taken_of_has (h : w.Tracked) (hc : w.Has c p) : w.Taken c.id := by
  have hpos : 0 < w.connections.countP fun q => q.1.id = c.id :=
    List.countP_pos_iff.2 ⟨(c, p), mem_connections.2 hc, by simp⟩
  cases hl : w.ledger with
  | none =>
    rw [count_gone hl] at hpos
    exact h.taken c.id (Multiset.count_pos.1 hpos)
  | some l =>
    have hone := h.count c.id
    rw [h.count_lists hl] at hpos hone
    exact taken_of_lists (h.accounts.booked hl) (Nat.le_antisymm hone hpos)

end Tracked

end Pool.Service

end SmtpClient
