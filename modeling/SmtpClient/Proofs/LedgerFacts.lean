/-
Facts about the pool's ledger: what a slot is after each operation, and for
each operation the ways it can end. Later modules take an operation apart by
these lemmas and never open its definition.
-/
import Mathlib.Data.List.TakeWhile
import Mathlib.Tactic.Tauto
import SmtpClient.Pool.Ledger

namespace SmtpClient.Pool

/-! ## Lists of slots -/

/-- The identifiers ascend, so that none occurs twice. -/
def Ascending (live : List (Nat × Slot)) : Prop :=
  live.Pairwise fun a b => a.1 < b.1

namespace Ledger

theorem lookup_cons (other : Nat) (s : Slot) (rest : List (Nat × Slot)) (x : Nat) :
    ((other, s) :: rest).lookup x = if x = other then some s else rest.lookup x := by
  rw [List.lookup_cons]
  by_cases hx : x = other
  · simp [hx]
  · have hb : (x == other) = false := by simpa using hx
    simp [hb, hx]

theorem lookup_putSlot (id : Nat) (slot : Slot) (live : List (Nat × Slot)) (x : Nat) :
    (putSlot id slot live).lookup x = if x = id then some slot else live.lookup x := by
  induction live with
  | nil =>
    by_cases hx : x = id <;> simp [putSlot, lookup_cons, hx]
  | cons p rest ih =>
    obtain ⟨other, s⟩ := p
    simp only [putSlot]
    split
    · by_cases hx : x = id <;> simp [lookup_cons, hx]
    split
    · next h =>
      subst h
      by_cases hx : x = id <;> simp [lookup_cons, hx]
    · next hne =>
      by_cases hx : x = other
      · subst hx
        simp [Ne.symm hne]
      · rw [lookup_cons, lookup_cons, if_neg hx, if_neg hx, ih]

theorem mem_putSlot {id : Nat} {slot : Slot} {live : List (Nat × Slot)} {p : Nat × Slot}
    (h : p ∈ putSlot id slot live) : p = (id, slot) ∨ p ∈ live := by
  induction live with
  | nil => simpa [putSlot] using h
  | cons q rest ih =>
    obtain ⟨other, s⟩ := q
    simp only [putSlot] at h
    split at h
    · simpa using h
    split at h
    · simp only [List.mem_cons] at h ⊢
      tauto
    · simp only [List.mem_cons] at h ⊢
      rcases h with h | h
      · exact .inr (.inl h)
      · rcases ih h with h | h
        · exact .inl h
        · exact .inr (.inr h)

theorem ascending_putSlot {id : Nat} {slot : Slot} {live : List (Nat × Slot)} (h : Ascending live) :
    Ascending (putSlot id slot live) := by
  induction live with
  | nil => simp [putSlot, Ascending]
  | cons q rest ih =>
    obtain ⟨other, s⟩ := q
    have hq := List.pairwise_cons.1 h
    simp only [putSlot]
    split
    · next hlt =>
      refine List.pairwise_cons.2 ⟨fun p hp => ?_, h⟩
      rcases List.mem_cons.1 hp with rfl | hp
      · exact hlt
      · exact Nat.lt_trans hlt (hq.1 p hp)
    split
    · next heq =>
      subst heq
      exact List.pairwise_cons.2 ⟨hq.1, hq.2⟩
    · next hnlt hne =>
      refine List.pairwise_cons.2 ⟨fun p hp => ?_, ih hq.2⟩
      rcases mem_putSlot hp with rfl | hp
      · exact Nat.lt_of_le_of_ne (Nat.le_of_not_lt hnlt) (Ne.symm hne)
      · exact hq.1 p hp

/-- In an ascending list a slot is found exactly where it stands. -/
theorem lookup_eq_some {live : List (Nat × Slot)} (h : Ascending live) {id : Nat} {slot : Slot} :
    live.lookup id = some slot ↔ (id, slot) ∈ live := by
  induction live with
  | nil => simp
  | cons q rest ih =>
    obtain ⟨other, s⟩ := q
    have hq := List.pairwise_cons.1 h
    by_cases hx : id = other
    · subst hx
      simp only [lookup_cons, if_true, Option.some.injEq, List.mem_cons, Prod.mk.injEq, true_and]
      refine ⟨fun e => .inl e.symm, fun e => ?_⟩
      rcases e with e | e
      · exact e.symm
      · exact absurd (hq.1 _ e) (Nat.lt_irrefl _)
    · simp [lookup_cons, hx, ih hq.2]

theorem length_putSlot {id : Nat} {slot : Slot} {live : List (Nat × Slot)} (h : Ascending live) :
    (putSlot id slot live).length = live.length + if (live.lookup id).isSome then 0 else 1 := by
  induction live with
  | nil => simp [putSlot]
  | cons q rest ih =>
    obtain ⟨other, s⟩ := q
    have hq := List.pairwise_cons.1 h
    simp only [putSlot]
    split
    · next hlt =>
      have hnone : rest.lookup id = none := by
        cases hl : rest.lookup id with
        | none => rfl
        | some slot' =>
          have := hq.1 _ ((lookup_eq_some hq.2).1 hl)
          simp only at this
          omega
      simp [lookup_cons, Nat.ne_of_lt hlt, hnone]
    split
    · next heq => simp [heq]
    · next hne =>
      rw [List.length_cons, ih hq.2, lookup_cons, if_neg hne, List.length_cons]
      omega

theorem lookup_strike (live : List (Nat × Slot)) (id x : Nat) :
    (live.filter fun p => p.1 ≠ id).lookup x = if x = id then none else live.lookup x := by
  induction live with
  | nil => simp
  | cons q rest ih =>
    obtain ⟨other, s⟩ := q
    by_cases ho : other = id
    · subst ho
      by_cases hx : x = other
      · simpa [hx] using ih
      · simpa [List.filter_cons, lookup_cons, hx] using ih
    · by_cases hx : x = other
      · subst hx
        simp [ho]
      · simpa [lookup_cons, ho, hx] using ih

theorem length_strike {live : List (Nat × Slot)} (h : Ascending live) (id : Nat) :
    (live.filter fun p => p.1 ≠ id).length + (if (live.lookup id).isSome then 1 else 0) =
      live.length := by
  induction live with
  | nil => simp
  | cons q rest ih =>
    obtain ⟨other, s⟩ := q
    have hq := List.pairwise_cons.1 h
    rw [lookup_cons]
    by_cases ho : id = other
    · subst ho
      have hself : rest.filter (fun p => p.1 ≠ id) = rest :=
        List.filter_eq_self.2 fun p hp => by simpa using Nat.ne_of_gt (hq.1 p hp)
      rw [List.filter_cons_of_neg (by simp), hself, if_pos rfl]
      simp
    · rw [List.filter_cons_of_pos (by simpa using Ne.symm ho), if_neg ho, List.length_cons,
        List.length_cons]
      have := ih hq.2
      omega

/-! ## Slots -/

variable {l l' : Ledger}

@[simp] theorem slot?_put (l : Ledger) (id : Nat) (slot : Slot) (x : Nat) :
    (l.put id slot).slot? x = if x = id then some slot else l.slot? x :=
  lookup_putSlot id slot l.live x

@[simp] theorem put_count (l : Ledger) (id : Nat) (slot : Slot) : (l.put id slot).count = l.count := rfl

@[simp] theorem put_waiters (l : Ledger) (id : Nat) (slot : Slot) :
    (l.put id slot).waiters = l.waiters := rfl

@[simp] theorem put_closing (l : Ledger) (id : Nat) (slot : Slot) :
    (l.put id slot).closing = l.closing := rfl

@[simp] theorem put_drained (l : Ledger) (id : Nat) (slot : Slot) :
    (l.put id slot).drained = l.drained := rfl

@[simp] theorem put_onDrained (l : Ledger) (id : Nat) (slot : Slot) :
    (l.put id slot).onDrained = l.onDrained := rfl

theorem idleCount_eq_zero : l.idleCount = 0 ↔ ∀ p ∈ l.live, p.2.isIdle = false := by
  simp only [idleCount, List.countP_eq_zero, Bool.not_eq_true]

theorem idleCount_put_lent {id : Nat} {b : Bool} (h : l.idleCount = 0) :
    (l.put id (.lent b)).idleCount = 0 := by
  rw [idleCount_eq_zero] at h ⊢
  intro p hp
  rcases mem_putSlot hp with rfl | hp
  · rfl
  · exact h p hp

theorem idleCount_strike (h : l.idleCount = 0) (id : Option Nat) : (l.strike id).idleCount = 0 := by
  rw [idleCount_eq_zero] at h ⊢
  cases id with
  | none => exact h
  | some id => exact fun p hp => h p (List.mem_filter.1 hp).1

/-- A connection that is idle is lent. -/
theorem takeIdle_some {c : Connection} (h : l.takeIdle = some (c, l')) :
    ∃ id c₀ deadline, (id, .idle c₀ deadline) ∈ l.live ∧ c = { c₀ with status := .inUse } ∧
      l' = l.put id (.lent false) := by
  obtain ⟨⟨id, slot⟩, hmem, hf⟩ := List.exists_of_findSome?_eq_some h
  cases slot with
  | idle c₀ deadline =>
    simp only [Option.some.injEq, Prod.mk.injEq] at hf
    exact ⟨id, c₀, deadline, hmem, hf.1.symm, hf.2.symm⟩
  | lent b => simp at hf

theorem takeIdle_none (h : l.takeIdle = none) : l.idleCount = 0 := by
  rw [idleCount_eq_zero]
  rintro ⟨id, slot⟩ hmem
  have hf := List.findSome?_eq_none_iff.1 h _ hmem
  cases slot with
  | idle c deadline => simp at hf
  | lent b => rfl

theorem takeExpired_some {c : Connection} {id now : Nat} (h : l.takeExpired id now = some (c, l')) :
    ∃ deadline, deadline ≤ now ∧ l.slot? id = some (.idle c deadline) ∧ l' = l.put id (.lent true) := by
  simp only [takeExpired] at h
  split at h
  · next c₀ deadline hs =>
    split at h
    · next hle =>
      simp only [Option.some.injEq, Prod.mk.injEq] at h
      obtain ⟨rfl, rfl⟩ := h
      exact ⟨deadline, hle, hs, rfl⟩
    · simp at h
  · simp at h

/-- What is idle past its deadline is taken. -/
theorem takeExpired_due {c : Connection} {id now deadline : Nat} (hs : l.slot? id = some (.idle c deadline))
    (hdue : deadline ≤ now) : l.takeExpired id now = some (c, l.put id (.lent true)) := by
  simp only [takeExpired, hs, hdue, if_true]

/-! ## Waiters -/

/-- Either nobody in the queue waits any more, and it is emptied; or those in
front of the first who waits have gone, and he leaves it with them. -/
theorem nextWaiter_cases (l : Ledger) (waits : Ticket → Bool) :
    ((∀ t ∈ l.waiters, waits t = false) ∧ l.nextWaiter waits = (none, { l with waiters := [] })) ∨
    ∃ gone t rest, l.waiters = gone ++ t :: rest ∧ (∀ x ∈ gone, waits x = false) ∧ waits t = true ∧
      l.nextWaiter waits = (some t, { l with waiters := rest }) := by
  have hsplit := List.takeWhile_append_dropWhile (p := fun t => !waits t) (l := l.waiters)
  have hgone : ∀ x ∈ l.waiters.takeWhile (fun t => !waits t), waits x = false := fun x hx => by
    simpa using List.mem_takeWhile_imp hx
  unfold nextWaiter
  generalize hrest : l.waiters.dropWhile (fun t => !waits t) = rest at hsplit ⊢
  cases rest with
  | nil =>
    left
    rw [List.append_nil] at hsplit
    exact ⟨fun t ht => hgone t (hsplit.symm ▸ ht), rfl⟩
  | cons t rest =>
    right
    have ht : waits t = true := by
      have := List.head?_dropWhile_not (fun t => !waits t) l.waiters
      rw [hrest] at this
      simpa using this
    exact ⟨_, t, rest, hsplit.symm, hgone, ht, rfl⟩

/-- The drain is reported where a closing ledger counts nothing, once. -/
theorem checkDrained_cases (l : Ledger) :
    ((l.closing = true ∧ l.count = 0 ∧ l.drained = false) ∧
      l.checkDrained = (some l.onDrained, { l with drained := true, onDrained := none })) ∨
    (¬ (l.closing = true ∧ l.count = 0 ∧ l.drained = false) ∧ l.checkDrained = (none, l)) := by
  unfold checkDrained
  split
  · next h =>
    left
    simp only [Bool.and_eq_true, decide_eq_true_eq, Bool.not_eq_true'] at h
    exact ⟨⟨h.1.1, h.1.2, h.2⟩, rfl⟩
  · next h =>
    right
    simp only [Bool.and_eq_true, decide_eq_true_eq, Bool.not_eq_true'] at h
    exact ⟨fun h' => h ⟨⟨h'.1, h'.2.1⟩, h'.2.2⟩, rfl⟩

theorem checkDrained_open (h : l.closing = false) : l.checkDrained = (none, l) := by
  rcases l.checkDrained_cases with ⟨⟨hc, -⟩, -⟩ | ⟨-, hcd⟩
  · exact absurd (h.symm.trans hc) Bool.false_ne_true
  · exact hcd

/-! ## What each operation comes to -/

theorem acquire_cases (l : Ledger) (limit : Nat) (caller : Ticket) :
    (l.closing = true ∧ l.acquire limit caller = (.refused, l)) ∨
    (l.closing = false ∧ ∃ c l', l.takeIdle = some (c, l') ∧ l.acquire limit caller = (.reuse c, l')) ∨
    (l.closing = false ∧ l.idleCount = 0 ∧ l.count < limit ∧
      l.acquire limit caller = (.create, { l with count := l.count + 1 })) ∨
    (l.closing = false ∧ l.idleCount = 0 ∧ limit ≤ l.count ∧
      l.acquire limit caller = (.wait, { l with waiters := l.waiters ++ [caller] })) := by
  unfold acquire
  cases hc : l.closing with
  | true => exact .inl ⟨rfl, rfl⟩
  | false =>
    right
    simp only [Bool.false_eq_true, if_false, true_and]
    cases ht : l.takeIdle with
    | some r => exact .inl ⟨r.1, r.2, rfl, rfl⟩
    | none =>
      right
      have hi := takeIdle_none ht
      by_cases hlt : l.count < limit
      · exact .inl ⟨hi, hlt, by simp [hlt]⟩
      · exact .inr ⟨hi, Nat.le_of_not_lt hlt, by simp [hlt]⟩

theorem reserveReplacement_cases (l : Ledger) :
    (l.closing = true ∧ l.reserveReplacement = (false, l)) ∨
    (l.closing = false ∧ l.reserveReplacement = (true, { l with count := l.count + 1 })) := by
  unfold reserveReplacement
  cases hc : l.closing with
  | true => exact .inl ⟨rfl, rfl⟩
  | false => exact .inr ⟨rfl, rfl⟩

theorem accept_cases (l : Ledger) (keepAlive : Bool) (waits : Ticket → Bool) (deadline : Nat)
    (c : Connection) :
    ((keepAlive = false ∨ l.closing = true ∨ l.isClosePending c.id = true) ∧
      l.accept keepAlive waits deadline c = (.close, l)) ∨
    (l.closing = false ∧ ∃ gone t rest, l.waiters = gone ++ t :: rest ∧ (∀ x ∈ gone, waits x = false) ∧
      waits t = true ∧
      l.accept keepAlive waits deadline c = (.handOver t, { l with waiters := rest })) ∨
    (l.closing = false ∧ (∀ t ∈ l.waiters, waits t = false) ∧
      l.accept keepAlive waits deadline c = (.parked, ({ l with waiters := [] } : Ledger).park c deadline)) := by
  unfold accept
  by_cases hclose : (!keepAlive || l.closing || l.isClosePending c.id) = true
  · left
    refine ⟨?_, if_pos hclose⟩
    simpa [or_assoc] using hclose
  · right
    have hopen : l.closing = false := by
      cases hc : l.closing with
      | true => simp [hc] at hclose
      | false => rfl
    rw [if_neg hclose]
    rcases l.nextWaiter_cases waits with ⟨hall, hn⟩ | ⟨gone, t, rest, hw, hgone, ht, hn⟩
    · exact .inr ⟨hopen, hall, by rw [hn]⟩
    · exact .inl ⟨hopen, gone, t, rest, hw, hgone, ht, by rw [hn]⟩

theorem reassign_cases (l : Ledger) (limit : Nat) (serves : Bool) (waits : Ticket → Bool) :
    ((l.closing = true ∨ limit ≤ l.count ∨ serves = false) ∧
      l.reassign limit serves waits = (none, l)) ∨
    (l.closing = false ∧ (∀ t ∈ l.waiters, waits t = false) ∧
      l.reassign limit serves waits = (none, { l with waiters := [] })) ∨
    (l.closing = false ∧ serves = true ∧ ∃ gone t rest, l.waiters = gone ++ t :: rest ∧
      (∀ x ∈ gone, waits x = false) ∧ waits t = true ∧
      l.reassign limit serves waits = (some t, { l with waiters := rest, count := l.count + 1 })) := by
  unfold reassign
  by_cases hroom : (!l.closing && decide (l.count < limit) && serves) = true
  · right
    rw [if_pos hroom]
    simp only [Bool.and_eq_true, Bool.not_eq_true', decide_eq_true_eq] at hroom
    obtain ⟨⟨hopen, -⟩, hs⟩ := hroom
    rcases l.nextWaiter_cases waits with ⟨hall, hn⟩ | ⟨gone, t, rest, hw, hgone, ht, hn⟩
    · exact .inl ⟨hopen, hall, by rw [hn]⟩
    · exact .inr ⟨hopen, hs, gone, t, rest, hw, hgone, ht, by rw [hn]⟩
  · left
    refine ⟨?_, if_neg hroom⟩
    cases hc : l.closing with
    | true => exact .inl rfl
    | false =>
      cases hs : serves with
      | false => exact .inr (.inr rfl)
      | true =>
        right; left
        simp only [hc, hs, Bool.not_false, Bool.true_and, Bool.and_true, decide_eq_true_eq] at hroom
        exact Nat.le_of_not_lt hroom

/-- A slot that is vacated stays free, goes to a waiter, or was the last one
of a closing pool. -/
theorem vacate_cases (l : Ledger) (limit : Nat) (serves : Bool) (waits : Ticket → Bool) (id : Option Nat) :
    ((l.closing = true ∨ limit ≤ l.count - 1 ∨ serves = false) ∧
      ¬ (l.closing = true ∧ l.count - 1 = 0 ∧ l.drained = false) ∧
      l.vacate limit serves waits id = (⟨none, none⟩, l.strike id)) ∨
    (l.closing = false ∧ (∀ t ∈ l.waiters, waits t = false) ∧
      l.vacate limit serves waits id = (⟨none, none⟩, { l.strike id with waiters := [] })) ∨
    (l.closing = false ∧ serves = true ∧ ∃ gone t rest, l.waiters = gone ++ t :: rest ∧
      (∀ x ∈ gone, waits x = false) ∧ waits t = true ∧
      l.vacate limit serves waits id =
        (⟨some t, none⟩, { l.strike id with waiters := rest, count := l.count - 1 + 1 })) ∨
    (l.closing = true ∧ l.count - 1 = 0 ∧ l.drained = false ∧
      l.vacate limit serves waits id =
        (⟨none, some l.onDrained⟩, { l.strike id with drained := true, onDrained := none })) := by
  -- One shape for all four ways, so that each of them is a rewrite.
  have hv : ∀ {waiter l₁}, (l.strike id).reassign limit serves waits = (waiter, l₁) →
      l.vacate limit serves waits id = (⟨waiter, l₁.checkDrained.1⟩, l₁.checkDrained.2) := by
    intro waiter l₁ h
    simp only [vacate, h]
  rcases (l.strike id).reassign_cases limit serves waits with
    ⟨hno, hr⟩ | ⟨hopen, hall, hr⟩ | ⟨hopen, hs, gone, t, rest, hw, hgone, ht, hr⟩
  · rw [hv hr]
    rcases (l.strike id).checkDrained_cases with ⟨⟨hc, hcount, hd⟩, hcd⟩ | ⟨hnot, hcd⟩
    · exact .inr (.inr (.inr ⟨hc, hcount, hd, by rw [hcd]; rfl⟩))
    · exact .inl ⟨hno, hnot, by rw [hcd]⟩
  · rw [hv hr]
    right; left
    refine ⟨hopen, hall, ?_⟩
    have hcd := checkDrained_open (l := { l.strike id with waiters := [] }) hopen
    rw [hcd]
  · rw [hv hr]
    right; right; left
    refine ⟨hopen, hs, gone, t, rest, hw, hgone, ht, ?_⟩
    have hcd := checkDrained_open
      (l := { l.strike id with waiters := rest, count := (l.strike id).count + 1 }) hopen
    rw [hcd]; rfl

/-- Who gets the free slot stood in the queue and still waits. -/
theorem vacate_waiter {limit : Nat} {serves : Bool} {waits : Ticket → Bool} {id : Option Nat} {t : Ticket}
    (h : (l.vacate limit serves waits id).1.waiter = some t) : t ∈ l.waiters ∧ waits t = true := by
  rcases l.vacate_cases limit serves waits id with
    ⟨-, -, hv⟩ | ⟨-, -, hv⟩ | ⟨-, -, gone, t', rest, hw, -, ht, hv⟩ | ⟨-, -, -, hv⟩ <;> rw [hv] at h <;> cases h
  exact ⟨hw ▸ List.mem_append_right _ List.mem_cons_self, ht⟩

theorem beginClose_closing (h : l.closing = true) (onDrained : Option DrainCall) :
    l.beginClose onDrained = none := by
  simp [beginClose, h]

/-- A ledger that begins to close: nobody waits in it, and every slot that is
left is to be closed. -/
def closed (l : Ledger) (onDrained : Option DrainCall) : Ledger :=
  { l with
    closing := true
    onDrained
    waiters := []
    live := l.live.map fun p => (p.1, .lent true) }

theorem beginClose_open (h : l.closing = false) (onDrained : Option DrainCall) :
    ((l.count = 0 ∧ l.drained = false) ∧ l.beginClose onDrained =
      some (⟨l.waiters, l.live.filterMap fun p => p.2.parked?, some onDrained⟩,
        { l.closed onDrained with drained := true, onDrained := none })) ∨
    (¬ (l.count = 0 ∧ l.drained = false) ∧ l.beginClose onDrained =
      some (⟨l.waiters, l.live.filterMap fun p => p.2.parked?, none⟩, l.closed onDrained)) := by
  have hb : l.beginClose onDrained = some (⟨l.waiters, l.live.filterMap fun p => p.2.parked?,
      (l.closed onDrained).checkDrained.1⟩, (l.closed onDrained).checkDrained.2) := by
    unfold beginClose
    rw [h, if_neg Bool.false_ne_true]
    rfl
  rcases (l.closed onDrained).checkDrained_cases with ⟨⟨-, hcount, hd⟩, hcd⟩ | ⟨hnot, hcd⟩
  · exact .inl ⟨⟨hcount, hd⟩, by rw [hb, hcd]; rfl⟩
  · exact .inr ⟨fun h' => hnot ⟨rfl, h'.1, h'.2⟩, by rw [hb, hcd]⟩

/-- What the first close takes out of a ledger, and whether it drains at once. -/
theorem beginClose_some {onDrained : Option DrainCall} {closing : Closing}
    (h : l.beginClose onDrained = some (closing, l')) :
    l.closing = false ∧ closing.waiters = l.waiters ∧
      closing.idle = (l.live.filterMap fun p => p.2.parked?) ∧
      (((l.count = 0 ∧ l.drained = false) ∧ closing.drained = some onDrained ∧
          l' = { l.closed onDrained with drained := true, onDrained := none }) ∨
        (¬ (l.count = 0 ∧ l.drained = false) ∧ closing.drained = none ∧ l' = l.closed onDrained)) := by
  have hopen : l.closing = false := by
    cases hc : l.closing with
    | true => rw [beginClose_closing hc] at h; cases h
    | false => rfl
  rcases beginClose_open hopen onDrained with ⟨hempty, hb⟩ | ⟨hnot, hb⟩
  · rw [hb] at h
    cases h
    exact ⟨hopen, rfl, rfl, .inl ⟨hempty, rfl, rfl⟩⟩
  · rw [hb] at h
    cases h
    exact ⟨hopen, rfl, rfl, .inr ⟨hnot, rfl, rfl⟩⟩

end Ledger

end SmtpClient.Pool
