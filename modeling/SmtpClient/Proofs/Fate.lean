/-
What a dialogue comes to. It depends on what is delivered and on how many
writes succeed, but neither on how the input is cut and when it comes nor on
when the dialogue is polled (`Dialogue.follow_settled`).
-/
import SmtpClient.Proofs.Transcript

namespace SmtpClient

variable {σ β : Type}

/-- No later poll changes how far it came. -/
def Poll.settled : Poll σ β → Bool
  | .ready _ => true
  | .pending wake _ => wake.isNone

/-- The result, if there is one yet. -/
def Poll.result? : Poll σ β → Option (Except Error β)
  | .ready result => some result
  | .pending .. => none

namespace Outbound

/-- How many more writes succeed, if not all do. -/
def room (o : Outbound) : Option Nat :=
  o.failsFrom.map fun n => n - 1 - o.attempted.length

/-- Streams with the same room take a next line alike, whatever it says. -/
theorem write_room {o o' : Outbound} (h : o.room = o'.room) (command command' : Command) :
    ∃ wrote o₁ o₁', o.write command = (wrote, o₁) ∧ o'.write command' = (wrote, o₁') ∧ o₁.room = o₁'.room := by
  obtain ⟨number, attempted, fails⟩ := o
  obtain ⟨number', attempted', fails'⟩ := o'
  cases fails with
  | none =>
    obtain rfl : fails' = none := by simpa [room] using h.symm
    exact ⟨_, _, _, rfl, rfl, rfl⟩
  | some n =>
    cases fails' with
    | none => simp [room] at h
    | some n' =>
      have hroom : n - 1 - attempted.length = n' - 1 - attempted'.length := by simpa [room] using h
      have hfails : n ≤ attempted.length + 1 ↔ n' ≤ attempted'.length + 1 := by omega
      refine ⟨_, _, _, rfl, Prod.ext ?_ rfl, ?_⟩
      · simp only [write, List.length_append, List.length_singleton, hfails]
      · simp only [write, room, List.length_append, List.length_singleton, Option.map_some]
        congr 1
        omega

end Outbound

/-! ## Given all that is delivered -/

namespace Conversation

/-- What a conversation comes to, given all that is delivered. -/
def fate (k : Conversation σ β) (s : σ) (out : Outbound) (met : List UInt8 × Ending) : Poll σ β :=
  match (k.consume s out met.1).1 with
  | .done result _ => .ready result
  | .hungry s =>
    match k.halt s met.2 with
    | some e => .ready (.error e)
    | none => .pending none s

variable {k : Conversation σ β} {s s' : σ} {out out' : Outbound} {xs : List UInt8}

theorem consume_append_done {result : Except Error β} (h : k.consume s out xs = (.done result [], out'))
    (ys : List UInt8) : k.consume s out (xs ++ ys) = (.done result ys, out') := by
  induction xs generalizing s out with
  | nil => cases h
  | cons byte xs ih =>
    simp only [List.cons_append, consume] at h ⊢
    split at h
    · exact ih h
    · split at h
      · exact ih h
      · cases h; rfl
    · cases h; rfl

end Conversation

namespace Dialogue

variable {d : Dialogue σ β} {st st' : σ × ReplyReader} {out out' : Outbound} {xs : List UInt8}
  {met : List UInt8 × Ending}

/-- More bytes add what is heard and said where the first ones end; nothing if
the dialogue is over there. -/
theorem events_append (d : Dialogue σ β) (st : σ × ReplyReader) (out : Outbound) (xs ys : List UInt8) :
    d.events st out (xs ++ ys) = d.events st out xs ++
      match d.conversation.consume st out xs with
      | (.hungry st', out') => d.events st' out' ys
      | (.done _ _, _) => [] := by
  induction xs generalizing st out with
  | nil => rfl
  | cons byte xs ih =>
    rw [List.cons_append, consume_cons, events, events]
    rcases d.step st out byte with ⟨new, st' | result, out'⟩
    · simp only [ih, List.append_assoc]
    · exact (List.append_nil new).symm

/-- Streams with the same room take a step alike. -/
theorem step_room (d : Dialogue σ β) (st : σ × ReplyReader) (h : out.room = out'.room) (byte : UInt8) :
    ∃ new next out₁ out₁', d.step st out byte = (new, next, out₁) ∧ d.step st out' byte = (new, next, out₁') ∧
      out₁.room = out₁'.room := by
  unfold step
  split
  · exact ⟨_, _, _, _, rfl, rfl, h⟩
  · exact ⟨_, _, _, _, rfl, rfl, h⟩
  split
  · exact ⟨_, _, _, _, rfl, rfl, h⟩
  · exact ⟨_, _, _, _, rfl, rfl, h⟩
  · next command s _ =>
    obtain ⟨wrote, out₁, out₁', hw, hw', hroom⟩ := Outbound.write_room h command command
    rw [hw, hw']
    cases wrote <;> exact ⟨_, _, _, _, rfl, rfl, hroom⟩

/-- Streams with the same room hear and say the same. -/
theorem events_room (d : Dialogue σ β) (st : σ × ReplyReader) (h : out.room = out'.room) (xs : List UInt8) :
    d.events st out xs = d.events st out' xs ∧
      (d.conversation.consume st out xs).1 = (d.conversation.consume st out' xs).1 := by
  induction xs generalizing st out out' with
  | nil => exact ⟨rfl, rfl⟩
  | cons byte xs ih =>
    obtain ⟨new, next, out₁, out₁', hs, hs', hroom⟩ := d.step_room st h byte
    rw [consume_cons, consume_cons, events, events, hs, hs']
    rcases next with st' | result
    · obtain ⟨hevents, hconsume⟩ := ih st' hroom
      exact ⟨congrArg (new ++ ·) hevents, hconsume⟩
    · exact ⟨rfl, rfl⟩

/-- What is heard and said in a dialogue, and what it comes to, given all that
is delivered. -/
def fate (d : Dialogue σ β) (st : σ × ReplyReader) (out : Outbound) (met : List UInt8 × Ending) :
    List Event × Poll (σ × ReplyReader) β :=
  (d.events st out met.1, d.conversation.fate st out met)

theorem fate_room (d : Dialogue σ β) (st : σ × ReplyReader) (h : out.room = out'.room) (met : List UInt8 × Ending) :
    d.fate st out met = d.fate st out' met := by
  obtain ⟨hevents, hconsume⟩ := events_room d st h met.1
  simp only [fate, Conversation.fate, hevents, hconsume]

theorem fate_hungry (h : d.conversation.consume st out xs = (.hungry st', out')) (met : List UInt8 × Ending) :
    d.fate st out (xs ++ met.1, met.2) =
      (d.events st out xs ++ (d.fate st' out' met).1, (d.fate st' out' met).2) := by
  simp only [fate, Conversation.fate, events_append, h, Conversation.consume_hungry h]

theorem fate_done {result : Except Error β} {ys : List UInt8} (hmet : met.1 = xs ++ ys)
    (h : d.conversation.consume st out xs = (.done result [], out')) :
    d.fate st out met = (d.events st out xs, .ready result) := by
  simp only [fate, Conversation.fate, hmet, events_append, h, Conversation.consume_append_done h, List.append_nil]

/-- Byte by byte. -/
theorem fate_cons (d : Dialogue σ β) (st : σ × ReplyReader) (out : Outbound) (byte : UInt8) (bytes : List UInt8)
    (ending : Ending) : d.fate st out (byte :: bytes, ending) =
      match d.step st out byte with
      | (new, .inl st, out) => (new ++ (d.fate st out (bytes, ending)).1, (d.fate st out (bytes, ending)).2)
      | (new, .inr result, _) => (new, .ready result) := by
  simp only [fate, Conversation.fate, consume_cons, events]
  rcases d.step st out byte with ⟨new, st | result, out⟩ <;> rfl

theorem fate_came {P : σ → List Event → Prop} {s : σ} {es : List Event} (hb : d.Bears P) (hp : P s es)
    (out : Outbound) (met : List UInt8 × Ending) :
    Came d P (es ++ (d.fate (s, {}) out met).1) (d.fate (s, {}) out met).2 := by
  have hcame := consume_came hb hp {} out met.1
  simp only [fate, Conversation.fate]
  cases hc : (d.conversation.consume (s, {}) out met.1).1 with
  | done result unread =>
    rw [hc] at hcame
    exact hcame
  | hungry st =>
    rw [hc] at hcame
    simp only
    cases hh : d.conversation.halt st met.2 with
    | none => exact .waits hcame
    | some e => exact .broke hcame (halt_isWire hh)

theorem fate_cut {e : Error} (h : d.conversation.consume st out met.1 = (.hungry st', out'))
    (hh : d.conversation.halt st' met.2 = some e) :
    d.fate st out met = (d.events st out met.1, .ready (.error e)) := by
  simp only [fate, Conversation.fate, h, hh]

/-! ## Whenever it is polled -/

variable {t t' : Transport} {now : Nat} {run : List Event × Poll (σ × ReplyReader) β × Transport}
  {first : Except Error (Move σ β)} {later : List Nat}

/-- What a run comes to, given all that is delivered. -/
def bound (d : Dialogue σ β) :
    List Event × Poll (σ × ReplyReader) β × Transport → List Event × Poll (σ × ReplyReader) β
  | (es, .ready result, _) => (es, .ready result)
  | (es, .pending _ st, t) =>
    (es ++ (d.fate st t.stream.outbound t.delivery).1, (d.fate st t.stream.outbound t.delivery).2)

theorem bound_append (d : Dialogue σ β) (es new : List Event) (r : Poll (σ × ReplyReader) β × Transport) :
    d.bound (es ++ new, r) = (es ++ (d.bound (new, r)).1, (d.bound (new, r)).2) := by
  obtain ⟨result | ⟨wake, st⟩, t⟩ := r
  · rfl
  · simp only [bound, List.append_assoc]

theorem poll_bound (d : Dialogue σ β) (now : Nat) (st : σ × ReplyReader) (t : Transport) :
    d.bound (d.overheard now st t, t.poll d.conversation now st) = d.fate st t.stream.outbound t.delivery := by
  obtain ⟨used, he, hm⟩ := d.poll_overheard now st t
  rw [he]
  generalize t.poll d.conversation now st = r at hm ⊢
  obtain ⟨p, t'⟩ := r
  cases hm with
  | waits hc hmet => rw [hmet, fate_hungry hc]; rfl
  | done hc hmet => exact (fate_done hmet hc).symm
  | cut hc hmet hh => subst hmet; exact (fate_cut hc hh).symm

/-- A poll leaves what a run comes to. -/
theorem resume_bound (d : Dialogue σ β) (now : Nat) (run : List Event × Poll (σ × ReplyReader) β × Transport) :
    d.bound (d.resume now run) = d.bound run := by
  obtain ⟨es, result | ⟨wake, st⟩, t⟩ := run
  · rfl
  · rw [resume, bound_append, poll_bound]
    rfl

/-- What a dialogue comes to from its first move on. -/
def outset (d : Dialogue σ β) (first : Except Error (Move σ β)) (out : Outbound) (met : List UInt8 × Ending) :
    List Event × Poll (σ × ReplyReader) β :=
  match first with
  | .error e => ([], .ready (.error e))
  | .ok (.finish b) => ([], .ready (.ok b))
  | .ok (.send command s) =>
    match out.write command with
    | (.ok (), out) => (.said command :: (d.fate (s, {}) out met).1, (d.fate (s, {}) out met).2)
    | (.error e, _) => ([.said command], .ready (.error e))

theorem outset_room (d : Dialogue σ β) (first : Except Error (Move σ β)) (h : out.room = out'.room)
    (met : List UInt8 × Ending) : d.outset first out met = d.outset first out' met := by
  rcases first with e | (⟨command, s⟩ | b)
  · rfl
  · obtain ⟨wrote, out₁, out₁', hw, hw', hroom⟩ := Outbound.write_room h command command
    simp only [outset, hw, hw']
    cases wrote with
    | error e => rfl
    | ok u => simp only [fate_room d (s, {}) hroom met]
  · rfl

theorem outset_came {P : σ → List Event → Prop} {s : σ} {es : List Event} {command : Command} (hb : d.Bears P)
    (hp : P s (es ++ [.said command])) (out : Outbound) (met : List UInt8 × Ending) :
    Came d P (es ++ (d.outset (.ok (.send command s)) out met).1) (d.outset (.ok (.send command s)) out met).2 := by
  simp only [outset]
  rcases hw : out.write command with ⟨e | u, out'⟩
  · exact .broke hp (Outbound.write_error hw)
  · simpa using fate_came hb hp out' met

theorem begin_bound (d : Dialogue σ β) (first : Except Error (Move σ β)) (now : Nat) (t : Transport) :
    d.bound (d.begun first now t, d.begin first now t) = d.outset first t.stream.outbound t.delivery := by
  rcases first with e | (⟨command, s⟩ | b)
  · rfl
  · simp only [begun, Dialogue.begin, outset, Transport.write]
    rcases t.stream.outbound.write command with ⟨e | u, out⟩
    · rfl
    · have hpoll := d.poll_bound now (s, {}) { t with stream := { t.stream with outbound := out } }
      simp only
      rw [← List.singleton_append, bound_append, hpoll]
      rfl
  · rfl

/-- Where a run waits without end, nothing is delivered any more. -/
def Stuck (run : List Event × Poll (σ × ReplyReader) β × Transport) : Prop :=
  ∀ st, run.2.1 = .pending none st → run.2.2.delivery = ([], .stall)

theorem poll_stuck (d : Dialogue σ β) (es : List Event) (now : Nat) (st : σ × ReplyReader) (t : Transport) :
    Stuck (es, t.poll d.conversation now st) := by
  obtain ⟨used, -, hm⟩ := d.poll_overheard now st t
  generalize t.poll d.conversation now st = r at hm ⊢
  obtain ⟨p, t'⟩ := r
  intro st' hp
  cases hm with
  | waits _ _ hw => cases hp; exact hw rfl
  | done | cut => cases hp

theorem goOn_stuck (h : Stuck run) (later : List Nat) : Stuck (d.goOn run later) := by
  refine goOn_induct (I := Stuck) h ?_ later
  rintro now ⟨es, result | ⟨wake, st⟩, t⟩ h
  · exact h
  · exact poll_stuck d _ now st t

theorem begin_stuck (d : Dialogue σ β) (first : Except Error (Move σ β)) (es : List Event) (now : Nat) (t : Transport) :
    Stuck (es, d.begin first now t) := by
  rcases first with e | (⟨command, s⟩ | b)
  · intro st hp; cases hp
  · simp only [Dialogue.begin]
    rcases t.write command with ⟨e | u, t'⟩
    · intro st hp; cases hp
    · exact poll_stuck d _ now (s, {}) t'
  · intro st hp; cases hp

/-- A settled run has come to what it was bound for all along. -/
theorem goOn_settled (hstuck : Stuck run) (h : (d.goOn run later).2.1.settled = true) :
    ((d.goOn run later).1, (d.goOn run later).2.1) = d.bound run := by
  have hbound : d.bound (d.goOn run later) = d.bound run :=
    goOn_induct (I := fun run' => d.bound run' = d.bound run) rfl
      (fun now run' hr => (resume_bound d now run').trans hr) later
  rw [← hbound]
  have hstuck := goOn_stuck (d := d) hstuck later
  generalize d.goOn run later = run at h hstuck ⊢
  obtain ⟨es, result | ⟨wake, st⟩, t'⟩ := run
  · rfl
  · obtain rfl : wake = none := by simpa [Poll.settled] using h
    have hdelivery : t'.delivery = ([], .stall) := hstuck st rfl
    simp only [bound, hdelivery, fate, events, List.append_nil]
    rfl

/-- **What a settled run came to** is what all that is delivered makes of it. -/
theorem follow_settled (h : (d.follow first t now later).2.1.settled = true) :
    ((d.follow first t now later).1, (d.follow first t now later).2.1) =
      d.outset first t.stream.outbound t.delivery :=
  (goOn_settled (begin_stuck d first _ now t) h).trans (begin_bound d first now t)

theorem listen_settled {s : σ} (h : (d.listen s t now later).2.1.settled = true) :
    ((d.listen s t now later).1, (d.listen s t now later).2.1) = d.fate (s, {}) t.stream.outbound t.delivery :=
  (goOn_settled (poll_stuck d _ now (s, {}) t) h).trans (poll_bound d now (s, {}) t)

end Dialogue

end SmtpClient
