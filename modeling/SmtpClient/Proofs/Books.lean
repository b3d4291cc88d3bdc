/-
The ledger's books. Everything the ledger accounts for is an item: a
connection that is somewhere outside, a slot that is counted for an attempt, an
identifier that is taken but not recorded. `Books` says that the ledger agrees
with a multiset of items; each turn at the ledger moves items in or out of it.
-/
import Mathlib.Algebra.Order.Group.Multiset
import Mathlib.Data.Multiset.Count
import SmtpClient.Proofs.LedgerFacts

namespace SmtpClient.Pool

/-- What the ledger accounts for. -/
inductive Item where
  /-- A recorded connection that is not parked. -/
  | connection (id : Nat)
  /-- A connection with an identifier that is not recorded yet. -/
  | named (id : Nat)
  /-- A slot counted for a connection that is not recorded yet. -/
  | slot
  /-- A caller who left the queue for a slot of his own. -/
  | waiter (t : Ticket)
  deriving DecidableEq

/-- What ends when the ledger is told of an end. -/
def vacated : Option Nat → Item
  | none => .slot
  | some id => .connection id

namespace Ledger

/-- How often a connection is recorded as lent: once or not at all. -/
def lends (l : Ledger) (id : Nat) : Nat :=
  match l.slot? id with
  | some (.lent _) => 1
  | _ => 0

/-- How often an identifier is recorded: once or not at all. -/
def lists (l : Ledger) (id : Nat) : Nat :=
  if (l.slot? id).isSome then 1 else 0

end Ledger

/-- The ledger agrees with the items outside, and none of the identifiers that
are retired is in use. -/
structure Books (retired : List Nat) (l : Ledger) (nextId : Nat) (items : Multiset Item) : Prop where
  ascending : Ascending l.live
  /-- A parked connection stands under its own identifier. -/
  idle : ∀ id c deadline, l.slot? id = some (.idle c deadline) → c.id = id ∧ c.status = .idle
  /-- A lent connection is outside, once. -/
  lent : ∀ id, items.count (.connection id) = l.lends id
  /-- An identifier is given once. -/
  fresh : ∀ id, items.count (.named id) + l.lists id ≤ if id < nextId ∧ id ∉ retired then 1 else 0
  given : ∀ id ∈ retired, id < nextId
  count : l.count = l.live.length + items.count .slot

namespace Books

variable {r : List Nat} {l l' : Ledger} {n : Nat} {m : Multiset Item} {c : Connection}

theorem new : Books [] {} 1 0 where
  ascending := List.Pairwise.nil
  idle := by simp [Ledger.slot?]
  lent := by simp [Ledger.lends, Ledger.slot?]
  fresh := by simp [Ledger.lists, Ledger.slot?]
  given := by simp
  count := by simp

/-- The books are about the slots and their number only. -/
theorem congr (h : Books r l n m) (hlive : l'.live = l.live) (hcount : l'.count = l.count) :
    Books r l' n m := by
  have hs : l'.slot? = l.slot? := by
    funext id
    simp only [Ledger.slot?, hlive]
  refine ⟨hlive ▸ h.ascending, hs ▸ h.idle, ?_, ?_, h.given, ?_⟩
  · simpa only [Ledger.lends, hs] using h.lent
  · simpa only [Ledger.lists, hs] using h.fresh
  · rw [hcount, hlive]; exact h.count

/-- Who left the queue does not matter for the slots. -/
theorem congr_items {m' : Multiset Item} (h : Books r l n m)
    (hm : ∀ x, (∀ t, x ≠ .waiter t) → m'.count x = m.count x) : Books r l n m' := by
  refine ⟨h.ascending, h.idle, fun id => ?_, fun id => ?_, h.given, ?_⟩
  · rw [hm _ (by simp)]; exact h.lent id
  · rw [hm _ (by simp)]; exact h.fresh id
  · rw [hm _ (by simp)]; exact h.count

/-- A slot is changed for an identifier that is recorded; what it holds comes
out of the books or goes into them. -/
theorem put {m' : Multiset Item} {id : Nat} {slot : Slot} (h : Books r l n m)
    (hrec : (l.slot? id).isSome)
    (hidle : ∀ c deadline, slot = .idle c deadline → c.id = id ∧ c.status = .idle)
    (hself : m'.count (.connection id) = (l.put id slot).lends id)
    (hother : ∀ x, x ≠ .connection id → m'.count x = m.count x) : Books r (l.put id slot) n m' := by
  refine ⟨Ledger.ascending_putSlot h.ascending, ?_, ?_, ?_, h.given, ?_⟩
  · intro x c deadline hx
    rw [Ledger.slot?_put] at hx
    split at hx
    · next he =>
      simp only [Option.some.injEq] at hx
      exact he ▸ hidle c deadline hx
    · exact h.idle x c deadline hx
  · intro x
    by_cases hx : x = id
    · rw [hx]; exact hself
    · rw [hother _ (by simpa using hx), h.lent x]
      simp only [Ledger.lends, Ledger.slot?_put, hx, if_false]
  · intro x
    rw [hother _ (by simp)]
    refine le_trans (Nat.le_of_eq ?_) (h.fresh x)
    simp only [Ledger.lists, Ledger.slot?_put]
    by_cases hx : x = id
    · simp [hx, hrec]
    · simp [hx]
  · show l.count = (Ledger.putSlot id slot l.live).length + _
    have hrec' : (l.live.lookup id).isSome := hrec
    rw [Ledger.length_putSlot h.ascending, if_pos hrec', hother _ (by simp)]
    exact h.count

/-- A parked connection is taken out, to be used or to be closed. -/
theorem takeOut {id deadline : Nat} {b : Bool} (h : Books r l n m)
    (hs : l.slot? id = some (.idle c deadline)) :
    Books r (l.put id (.lent b)) n (m + {.connection c.id}) := by
  obtain ⟨rfl, -⟩ := h.idle id c deadline hs
  refine h.put (by simp [hs]) (by simp) ?_ ?_
  · have hl := h.lent c.id
    simp only [Ledger.lends, hs] at hl
    simp [Ledger.lends, hl]
  · intro x hx
    simp [hx]

theorem takeIdle (h : Books r l n m) (ht : l.takeIdle = some (c, l')) :
    Books r l' n (m + {.connection c.id}) := by
  obtain ⟨id, c₀, deadline, hmem, rfl, rfl⟩ := Ledger.takeIdle_some ht
  show Books r _ n (m + {.connection c₀.id})
  exact h.takeOut ((Ledger.lookup_eq_some h.ascending).2 hmem)

theorem takeExpired {id now : Nat} (h : Books r l n m) (ht : l.takeExpired id now = some (c, l')) :
    Books r l' n (m + {.connection c.id}) := by
  obtain ⟨deadline, -, hs, rfl⟩ := Ledger.takeExpired_some ht
  exact h.takeOut hs

/-- A connection that is outside is recorded as lent. -/
theorem slot?_of_mem {id : Nat} (h : Books r l n m) (hm : .connection id ∈ m) :
    ∃ b, l.slot? id = some (.lent b) := by
  have hpos : 0 < l.lends id := h.lent id ▸ Multiset.count_pos.2 hm
  unfold Ledger.lends at hpos
  split at hpos
  · next b hs => exact ⟨b, hs⟩
  · exact absurd hpos (Nat.lt_irrefl 0)

theorem park {deadline : Nat} (h : Books r l n (m + {.connection c.id})) : Books r (l.park c deadline) n m := by
  obtain ⟨b, hs⟩ : ∃ b, l.slot? c.id = some (.lent b) := h.slot?_of_mem (by simp)
  refine h.put (by simp [hs]) ?_ ?_ ?_
  · intro c' deadline' he
    cases he
    exact ⟨rfl, rfl⟩
  · have hl := h.lent c.id
    simp only [Ledger.lends, hs, Multiset.count_add, Multiset.count_singleton_self] at hl
    simp only [Ledger.lends, Ledger.slot?_put, if_true]
    omega
  · intro x hx
    simp [hx]

/-- A slot is counted. -/
theorem reserve (h : Books r l n m) : Books r { l with count := l.count + 1 } n (m + {.slot}) := by
  refine ⟨h.ascending, h.idle, ?_, ?_, h.given, ?_⟩
  · intro id
    show _ = l.lends id
    simpa using h.lent id
  · intro id
    show _ + l.lists id ≤ _
    simpa using h.fresh id
  · simp only [Multiset.count_add, Multiset.count_singleton_self, h.count]
    omega

/-- The next identifier is given. -/
theorem name (h : Books r l n m) : Books r l (n + 1) (m + {.named n}) := by
  refine ⟨h.ascending, h.idle, ?_, ?_, fun id hid => Nat.lt_succ_of_lt (h.given id hid), ?_⟩
  · intro id
    simpa using h.lent id
  · intro id
    have hf := h.fresh id
    have hn : n ∉ r := fun hmem => Nat.lt_irrefl n (h.given n hmem)
    simp only [Multiset.count_add, Multiset.count_singleton, Item.named.injEq]
    by_cases hx : id = n
    · subst hx
      simp only [Nat.lt_irrefl, false_and, if_false] at hf
      simp only [hn, not_false_eq_true, Nat.lt_succ_self, and_self, if_true]
      omega
    · have hlt : id < n + 1 ↔ id < n := by omega
      simpa only [hx, if_false, Nat.add_zero, hlt] using hf
  · simpa using h.count

/-- An identifier that is not in use is retired. -/
theorem retire {id : Nat} (h : Books r l n m) (hlt : id < n) (hnamed : .named id ∉ m)
    (hslot : l.slot? id = none) : Books (id :: r) l n m := by
  refine ⟨h.ascending, h.idle, h.lent, ?_, ?_, h.count⟩
  · intro x
    by_cases hx : x = id
    · subst hx
      simp [Multiset.count_eq_zero_of_notMem hnamed, Ledger.lists, hslot]
    · simpa [hx] using h.fresh x
  · intro x hx
    rcases List.mem_cons.1 hx with rfl | hx
    · exact hlt
    · exact h.given x hx

/-- A named connection is recorded in the slot that is counted for it. -/
theorem enter {id : Nat} (h : Books r l n (m + {.slot, .named id})) :
    Books r (l.enter id) n (m + {.connection id}) := by
  have hf := h.fresh id
  simp only [Multiset.insert_eq_cons, Multiset.count_add, Multiset.count_cons,
    Multiset.count_singleton, reduceCtorEq, if_false, if_true, Nat.add_zero] at hf
  have hnone : l.slot? id = none := by
    cases hs : l.slot? id with
    | none => rfl
    | some slot =>
      simp only [Ledger.lists, hs, Option.isSome_some, if_true] at hf
      split_ifs at hf <;> omega
  refine ⟨Ledger.ascending_putSlot h.ascending, ?_, ?_, ?_, h.given, ?_⟩
  · intro x c deadline hx
    rw [Ledger.enter, Ledger.slot?_put] at hx
    split at hx
    · simp at hx
    · exact h.idle x c deadline hx
  · intro x
    have hl := h.lent x
    simp only [Multiset.insert_eq_cons, Multiset.count_add, Multiset.count_cons,
      Multiset.count_singleton, reduceCtorEq, if_false, Nat.add_zero] at hl
    simp only [Multiset.count_add, Multiset.count_singleton, Item.connection.injEq, hl, Ledger.lends,
      Ledger.enter, Ledger.slot?_put]
    by_cases hx : x = id
    · simp [hx, hnone]
    · simp [hx]
  · intro x
    have hf' := h.fresh x
    simp only [Multiset.insert_eq_cons, Multiset.count_add, Multiset.count_cons,
      Multiset.count_singleton, reduceCtorEq, if_false, Nat.add_zero, Item.named.injEq] at hf'
    simp only [Multiset.count_add, Multiset.count_singleton, reduceCtorEq, if_false, Nat.add_zero,
      Ledger.lists, Ledger.enter, Ledger.slot?_put] at hf' ⊢
    by_cases hx : x = id
    · subst hx
      simp only [hnone, if_true, Option.isSome_none, Option.isSome_some, Bool.false_eq_true, if_false] at hf' ⊢
      omega
    · simp only [hx, if_false] at hf' ⊢
      omega
  · show l.count = (Ledger.putSlot id _ l.live).length + _
    have hnone' : l.live.lookup id = none := hnone
    have hc := h.count
    simp only [Multiset.insert_eq_cons, Multiset.count_add, Multiset.count_cons,
      Multiset.count_singleton, reduceCtorEq, if_false, if_true] at hc
    rw [Ledger.length_putSlot h.ascending, hnone']
    simp only [Multiset.count_add, Multiset.count_singleton, reduceCtorEq, if_false, Option.isSome_none,
      Bool.false_eq_true, hc]
    omega

/-- An attempt gives its slot back. -/
theorem strikeSlot (h : Books r l n (m + {.slot})) : Books r (l.strike none) n m := by
  have hc := h.count
  simp only [Multiset.count_add, Multiset.count_singleton_self] at hc
  refine ⟨h.ascending, h.idle, ?_, ?_, h.given, ?_⟩
  · intro id
    show _ = l.lends id
    simpa using h.lent id
  · intro id
    show _ + l.lists id ≤ _
    simpa using h.fresh id
  · show l.count - 1 = l.live.length + _
    omega

/-- A connection that has ended is taken off the ledger. -/
theorem strikeConnection {id : Nat} (h : Books r l n (m + {.connection id})) :
    Books r (l.strike (some id)) n m := by
  obtain ⟨b, hs⟩ : ∃ b, l.slot? id = some (.lent b) := h.slot?_of_mem (by simp)
  have hslot : ∀ x, (l.strike (some id)).slot? x = if x = id then none else l.slot? x :=
    fun x => Ledger.lookup_strike l.live id x
  refine ⟨h.ascending.filter _, ?_, ?_, ?_, h.given, ?_⟩
  · intro x c deadline hx
    rw [hslot] at hx
    split at hx
    · cases hx
    · exact h.idle x c deadline hx
  · intro x
    have hl := h.lent x
    simp only [Multiset.count_add, Multiset.count_singleton, Item.connection.injEq] at hl
    simp only [Ledger.lends, hslot]
    by_cases hx : x = id
    · subst hx
      simp only [Ledger.lends, hs, if_true] at hl ⊢
      omega
    · simpa [Ledger.lends, hx] using hl
  · intro x
    have hf := h.fresh x
    simp only [Multiset.count_add, Multiset.count_singleton, reduceCtorEq, if_false, Nat.add_zero] at hf
    refine le_trans (Nat.add_le_add_left ?_ _) hf
    simp only [Ledger.lists, hslot]
    split_ifs <;> simp_all
  · have hc := h.count
    have hlen := Ledger.length_strike h.ascending id
    have hrec : (l.live.lookup id).isSome := by
      rw [show l.live.lookup id = _ from hs]; rfl
    rw [if_pos hrec] at hlen
    simp only [Multiset.count_add, Multiset.count_singleton, reduceCtorEq, if_false, Nat.add_zero] at hc
    show l.count - 1 = (l.live.filter fun p => p.1 ≠ id).length + _
    omega

/-- Whatever leaves the ledger leaves the books. -/
theorem strike {id : Option Nat} (h : Books r l n (m + {vacated id})) : Books r (l.strike id) n m := by
  cases id with
  | none => exact h.strikeSlot
  | some id => exact h.strikeConnection

/-- The connections that are parked in a list of slots. -/
def parked (live : List (Nat × Slot)) : List Connection :=
  live.filterMap fun p => p.2.parked?

theorem parked_idle (id : Nat) (c : Connection) (deadline : Nat) (rest : List (Nat × Slot)) :
    parked ((id, .idle c deadline) :: rest) = c :: parked rest := rfl

theorem parked_lent (id : Nat) (b : Bool) (rest : List (Nat × Slot)) :
    parked ((id, .lent b) :: rest) = parked rest := rfl

theorem count_parked {live : List (Nat × Slot)} (ha : Ascending live)
    (hidle : ∀ id c deadline, live.lookup id = some (.idle c deadline) → c.id = id) (id : Nat) :
    ((parked live).map Connection.id).count id = if ((live.lookup id).any Slot.isIdle) then 1 else 0 := by
  induction live with
  | nil => simp [parked]
  | cons p rest ih =>
    obtain ⟨other, slot⟩ := p
    have hq := List.pairwise_cons.1 ha
    have hrest : ∀ {x}, x ≠ other → ((other, slot) :: rest).lookup x = rest.lookup x := fun hx => by
      rw [Ledger.lookup_cons, if_neg hx]
    have hout : rest.lookup other = none := by
      cases hl : rest.lookup other with
      | none => rfl
      | some s => exact absurd (hq.1 _ ((Ledger.lookup_eq_some hq.2).1 hl)) (Nat.lt_irrefl _)
    have ih := ih hq.2 fun x c d hx => hidle x c d (by
      by_cases hxo : x = other
      · subst hxo; rw [hout] at hx; cases hx
      · rw [hrest hxo]; exact hx)
    cases slot with
    | idle c deadline =>
      have hc : c.id = other := hidle other c deadline (by rw [Ledger.lookup_cons, if_pos rfl])
      subst hc
      rw [parked_idle, List.map_cons, List.count_cons, ih, Ledger.lookup_cons]
      by_cases hx : id = c.id
      · subst hx; simp [hout, Slot.isIdle]
      · simp [hx, Ne.symm hx]
    | lent b =>
      rw [parked_lent, ih, Ledger.lookup_cons]
      by_cases hx : id = other
      · subst hx; simp [hout, Slot.isIdle]
      · simp [hx]

/-- A ledger that begins to close gives all its parked connections out. -/
theorem closed (h : Books r l n m) (onDrained : Option DrainCall) :
    Books r (l.closed onDrained) n (m + ((parked l.live).map (Item.connection ·.id) : List Item)) := by
  have hslot : ∀ x, (l.closed onDrained).slot? x = (l.slot? x).map fun _ => .lent true := by
    intro x
    simp only [Ledger.slot?, Ledger.closed]
    induction l.live with
    | nil => rfl
    | cons p rest ih =>
      rw [List.map_cons, Ledger.lookup_cons, Ledger.lookup_cons, ih]
      split <;> rfl
  have hcount : ∀ x, Multiset.count (Item.connection x) ((parked l.live).map (Item.connection ·.id) : List Item) =
      ((parked l.live).map Connection.id).count x := by
    intro x
    rw [Multiset.coe_count, ← List.count_map_of_injective _ Item.connection (fun _ _ h => by cases h; rfl),
      List.map_map]
    rfl
  have hnone : ∀ i : Item, (∀ x, i ≠ .connection x) →
      Multiset.count i ((parked l.live).map (Item.connection ·.id) : List Item) = 0 := by
    intro i hi
    rw [Multiset.coe_count, List.count_eq_zero, List.mem_map]
    rintro ⟨c, -, rfl⟩
    exact hi c.id rfl
  refine ⟨?_, ?_, ?_, ?_, h.given, ?_⟩
  · exact List.pairwise_map.2 h.ascending
  · intro x c deadline hx
    rw [hslot] at hx
    cases hs : l.slot? x <;> simp [hs] at hx
  · intro x
    rw [Multiset.count_add, hcount, h.lent x,
      count_parked h.ascending (fun id c d hs => (h.idle id c d hs).1)]
    show _ + (if (l.slot? x).any Slot.isIdle then 1 else 0) = _
    simp only [Ledger.lends, hslot]
    cases hs : l.slot? x with
    | none => rfl
    | some slot => cases slot <;> rfl
  · intro x
    rw [Multiset.count_add, hnone _ (by simp)]
    simpa only [Nat.add_zero, Ledger.lists, hslot, Option.isSome_map] using h.fresh x
  · rw [Multiset.count_add, hnone _ (by simp), Nat.add_zero]
    show l.count = (l.live.map _).length + _
    rw [List.length_map]
    exact h.count

end Books

end SmtpClient.Pool
