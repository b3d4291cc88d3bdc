/-
How handshakes end. Nothing bounds the rounds of a login or the empty lines in front of a reply, but
each round takes a reply, each reply a complete line and each line a byte at least
(`Dialogue.overheard_replies`), and a poll that waits leaves less to arrive than there was
(`Transport.poll_late`). So on a stream that ends or fails every handshake is over some time
(`Attempt.follow_ends`).
-/
import Mathlib.Data.Prod.Lex
import Mathlib.Order.WellFounded
import SmtpClient.Proofs.Lines
import SmtpClient.Proofs.Sealing

namespace SmtpClient

variable {σ β : Type}

/-! ## The ends of lines -/

theorem ReplyReader.feed_ok {r : ReplyReader} {byte : UInt8} {reply : Reply} (h : r.feed byte = .done (.ok reply)) :
    byte = lineFeed := by
  simp only [feed] at h
  split at h
  · cases h
  · cases h
  · next hl => exact LineReader.feed_ok hl

/-- What this conversation comes to without an error, it comes to at the end of a line. -/
def Conversation.EndsLines (k : Conversation σ β) : Prop :=
  ∀ s byte b, k.feed s byte = .done (.ok b) → byte = lineFeed

theorem Conversation.EndsLines.consume {k : Conversation σ β} (hk : k.EndsLines) {s : σ} {out out' : Outbound}
    {xs us : List UInt8} {b : β} (h : k.consume s out xs = (.done (.ok b) us, out')) : lineFeed ∈ xs := by
  induction xs generalizing s out with
  | nil => cases h
  | cons byte xs ih =>
    simp only [Conversation.consume] at h
    split at h
    · exact List.mem_cons_of_mem _ (ih h)
    · split at h
      · exact List.mem_cons_of_mem _ (ih h)
      · cases h
    · next hf =>
      cases h
      rw [hk _ _ _ hf]
      exact List.mem_cons_self

namespace Transport

variable {t t' : Transport} {k : Conversation σ β} {now : Nat} {later : List Nat} {s : σ} {b : β}

theorem line_endsLines : line.EndsLines := by
  intro r byte text h
  simp only [line] at h
  split at h <;> cases h
  next hf => exact LineReader.feed_ok hf

theorem reply_endsLines : reply.EndsLines := by
  intro r byte got h
  simp only [reply] at h
  split at h <;> cases h
  next hf => exact ReplyReader.feed_ok hf

theorem polls_lineFeed (hk : k.EndsLines) (h : t.polls k s now later = (.ready (.ok b), t')) :
    lineFeed ∈ t.used t' := by
  obtain ⟨used, he, hu⟩ := polls_used h
  rw [used_eq he]
  cases hu with
  | ok hc => exact hk.consume hc

theorem poll_unread (t : Transport) (k : Conversation σ β) (now : Nat) (s : σ) :
    t.unread = t.used (t.poll k now s).2 ++ (t.poll k now s).2.unread := by
  cases hp : t.poll k now s with
  | mk p t' =>
    obtain ⟨used, he, -⟩ := poll_met hp
    rw [used_eq he, he]

/-- The same input, and this record of writes. -/
def recording (t : Transport) (out : Outbound) : Transport :=
  { t with stream := { t.stream with outbound := out } }

end Transport

namespace Dialogue

variable {d : Dialogue σ β} {t : Transport} {run : List Event × Poll (σ × ReplyReader) β × Transport} {now : Nat}
  {later : List Nat}

/-! ## What replies take -/

/-- A reply is heard at the end of a line. -/
theorem step_replies (d : Dialogue σ β) (st : σ × ReplyReader) (out : Outbound) (byte : UInt8) :
    (Event.replies (d.step st out byte).1).length ≤ [byte].count lineFeed := by
  unfold step
  split
  · exact Nat.zero_le _
  · exact Nat.zero_le _
  next reply hf =>
  obtain rfl := ReplyReader.feed_ok hf
  split
  · exact Nat.le_refl 1
  · exact Nat.le_refl 1
  · split <;> exact Nat.le_refl 1

theorem events_replies (d : Dialogue σ β) (st : σ × ReplyReader) (out : Outbound) (xs : List UInt8) :
    (Event.replies (d.events st out xs)).length ≤ xs.count lineFeed := by
  induction xs generalizing st out with
  | nil => exact Nat.zero_le _
  | cons byte xs ih =>
    have hstep := d.step_replies st out byte
    rw [events, ← List.singleton_append, List.count_append]
    generalize d.step st out byte = r at hstep ⊢
    obtain ⟨new, st' | result, out'⟩ := r
    · rw [Event.replies_append, List.length_append]
      exact Nat.add_le_add hstep (ih st' out')
    · exact hstep.trans (Nat.le_add_right _ _)

/-- **Each reply takes a complete line.** -/
theorem overheard_replies (d : Dialogue σ β) (now : Nat) (st : σ × ReplyReader) (t : Transport) :
    (Event.replies (d.overheard now st t)).length ≤ (t.used (t.poll d.conversation now st).2).count lineFeed :=
  d.events_replies st _ _

/-- A dialogue is over with its first move, or goes on with a poll of the same input. -/
theorem begin_cases (d : Dialogue σ β) (first : Except Error (Move σ β)) (now : Nat) (t : Transport) :
    (∃ result out, d.begin first now t = (.ready result, t.recording out) ∧
      Event.replies (d.begun first now t) = []) ∨
    ∃ s out, d.begin first now t = (t.recording out).poll d.conversation now (s, {}) ∧
      Event.replies (d.begun first now t) = Event.replies (d.overheard now (s, {}) (t.recording out)) := by
  rcases first with e | (⟨command, s⟩ | b)
  · exact .inl ⟨_, t.stream.outbound, rfl, rfl⟩
  · simp only [Dialogue.begin, begun, Transport.write]
    rcases t.stream.outbound.write command with ⟨e | u, out⟩
    · exact .inl ⟨_, out, rfl, rfl⟩
    · exact .inr ⟨s, out, rfl, rfl⟩
  · exact .inl ⟨_, t.stream.outbound, rfl, rfl⟩

/-- The replies of a run that began here took a complete line each. -/
structure Paid (t : Transport) (run : List Event × Poll (σ × ReplyReader) β × Transport) : Prop where
  unread : t.unread = t.used run.2.2 ++ run.2.2.unread
  replies : (Event.replies run.1).length ≤ (t.used run.2.2).count lineFeed

theorem begin_paid (d : Dialogue σ β) (first : Except Error (Move σ β)) (now : Nat) (t : Transport) :
    Paid t (d.begun first now t, d.begin first now t) := by
  rcases d.begin_cases first now t with ⟨result, out, hb, he⟩ | ⟨s, out, hb, he⟩
  · have hused : t.used (t.recording out) = [] := Transport.used_eq (List.nil_append _).symm
    constructor
    · rw [hb, hused]
      rfl
    · rw [he]
      exact Nat.zero_le _
  · constructor
    · rw [hb]
      exact Transport.poll_unread (t.recording out) ..
    · rw [hb, he]
      exact d.overheard_replies now (s, {}) (t.recording out)

theorem Paid.resume (h : Paid t run) (now : Nat) : Paid t (d.resume now run) := by
  obtain ⟨es, result | ⟨wake, st⟩, t'⟩ := run
  · exact h
  obtain ⟨hunread, hreplies⟩ := h
  have hnext := t'.poll_unread d.conversation now st
  have hnew := d.overheard_replies now st t'
  simp only [Dialogue.resume] at hunread hreplies ⊢
  generalize t'.poll d.conversation now st = r at hnext hnew ⊢
  have hall : t.unread = (t.used t' ++ t'.used r.2) ++ r.2.unread := by
    rw [List.append_assoc, ← hnext, ← hunread]
  have hused := Transport.used_eq hall
  constructor
  · rw [hused]
    exact hall
  · rw [hused, Event.replies_append, List.length_append, List.count_append]
    exact Nat.add_le_add hreplies hnew

theorem follow_paid (d : Dialogue σ β) (first : Except Error (Move σ β)) (t : Transport) (now : Nat)
    (later : List Nat) : Paid t (d.follow first t now later) :=
  goOn_induct (d.begin_paid first now t) (fun now _ hr => hr.resume now) later

theorem Came.counts {es : List Event} {p : Poll (σ × ReplyReader) β}
    (h : Came d (fun _ es => (Event.lines es).length = (Event.replies es).length + 1) es p) :
    (Event.lines es).length ≤ (Event.replies es).length + 1 := by
  cases h with
  | waits hp => exact hp.le
  | broke hp => exact hp.le
  | finished hp | refused hp => simp [hp]

/-- A dialogue says a line first, and one behind each reply at most. -/
theorem follow_counts (d : Dialogue σ β) (first : Except Error (Move σ β)) (t : Transport) (now : Nat)
    (later : List Nat) : (Event.lines (d.follow first t now later).1).length ≤
      (Event.replies (d.follow first t now later).1).length + 1 := by
  have hb : d.Bears fun _ es => (Event.lines es).length = (Event.replies es).length + 1 := by
    intro s es reply command s' hp _
    simpa using hp
  have hnone : ∀ {result}, d.begin first now t = (.ready result, t) → d.begun first now t = [] →
      (Event.lines (d.follow first t now later).1).length ≤
        (Event.replies (d.follow first t now later).1).length + 1 := by
    intro result hf hs
    rw [follow_ready hf hs]
    exact Nat.zero_le _
  rcases first with e | (⟨command, s⟩ | b)
  · exact hnone rfl rfl
  · exact (follow_came hb [] rfl).counts
  · exact hnone rfl rfl

end Dialogue

/-! ## As time goes on -/

/-- Time goes on: there is a poll after any number of polls and any time. -/
def GoesOn (times : Nat → Nat) : Prop :=
  ∀ n now, ∃ m, n ≤ m ∧ now ≤ times m

section Polled

variable {α ρ : Type} {resume : Nat → α → α} {times : Nat → Nat} {x : α}

/-- What something is after so many polls, at these times. -/
def polled (resume : Nat → α → α) (times : Nat → Nat) (x : α) (n : Nat) : α :=
  ((List.range n).map times).foldl (fun x now => resume now x) x

theorem polled_succ (n : Nat) : polled resume times x (n + 1) = resume (times n) (polled resume times x n) := by
  simp only [polled, List.range_succ, List.map_append, List.map_singleton, List.foldl_append, List.foldl_cons,
    List.foldl_nil]

theorem polled_stays {done : α → Prop} (hdone : ∀ now x, done x → done (resume now x)) {n m : Nat} (hm : n ≤ m)
    (h : done (polled resume times x n)) : done (polled resume times x m) := by
  induction m, hm using Nat.le_induction with
  | base => exact h
  | succ m _ ih => exact (polled_succ m).symm ▸ hdone _ _ ih

/-- Polls that are too early change nothing, so at the first one that is late enough there is still what
there was. -/
theorem GoesOn.late (hon : GoesOn times) (n wake : Nat)
    (hearly : ∀ now, now < wake → resume now (polled resume times x n) = polled resume times x n) :
    ∃ m now, wake ≤ now ∧ polled resume times x m = resume now (polled resume times x n) := by
  have hsame : ∀ m, n ≤ m →
      (∃ j now, wake ≤ now ∧ polled resume times x j = resume now (polled resume times x n)) ∨
        polled resume times x m = polled resume times x n := by
    intro m hm
    induction m, hm using Nat.le_induction with
    | base => exact .inr rfl
    | succ m _ ih =>
      rcases ih with hlate | ih
      · exact .inl hlate
      · have hnext : polled resume times x (m + 1) = resume (times m) (polled resume times x n) := by
          rw [polled_succ, ih]
        rcases Nat.lt_or_ge (times m) wake with hlt | hge
        · exact .inr (hnext.trans (hearly _ hlt))
        · exact .inl ⟨m + 1, times m, hge, hnext⟩
  obtain ⟨m, hm, hlate⟩ := hon n wake
  rcases hsame m hm with hdone | hm
  · exact hdone
  · exact ⟨m + 1, times m, hlate, by rw [polled_succ, hm]⟩

/-- Something that is polled: before some time nothing happens, and from then on a poll makes what is left
less, or ends it. As time goes on it ends. -/
theorem GoesOn.ends [Preorder ρ] [WellFoundedLT ρ] (hon : GoesOn times) (resume : Nat → α → α)
    (done I : α → Prop) (rank : α → ρ) (hdone : ∀ now x, done x → done (resume now x))
    (hstep : ∀ x, I x → ∃ wake, ∀ now, (now < wake → resume now x = x) ∧
      (wake ≤ now → done (resume now x) ∨ (I (resume now x) ∧ rank (resume now x) < rank x)))
    (hx : done x ∨ I x) :
    ∃ n, ∀ m, n ≤ m → done (((List.range m).map times).foldl (fun x now => resume now x) x) := by
  have hsome : ∀ r n, rank (polled resume times x n) = r → I (polled resume times x n) →
      ∃ m, done (polled resume times x m) := by
    intro r
    induction r using WellFoundedLT.induction with
    | ind r ih =>
      intro n hr hn
      obtain ⟨wake, hwake⟩ := hstep _ hn
      obtain ⟨m, now, hlate, hm⟩ := hon.late n wake fun now => (hwake now).1
      rcases (hwake now).2 hlate with hd | ⟨hi, hlt⟩
      · exact ⟨m, hm ▸ hd⟩
      · exact ih _ (hr ▸ hlt) m (by rw [hm]) (hm ▸ hi)
  obtain ⟨n, hn⟩ : ∃ n, done (polled resume times x n) := hx.elim (fun h => ⟨0, h⟩) (hsome _ 0 rfl)
  exact ⟨n, fun m hm => polled_stays hdone hm hn⟩

end Polled

namespace Transport

/-- Nothing comes before this time, and what comes then ends or fails. -/
def Due (t : Transport) (wake : Nat) : Prop :=
  t.buffered = [] ∧ ∃ rest, t.stream.arrivals = .due wake :: rest ∧ (Arrival.delivery rest).2 ≠ .stall

/-- How far a poll comes on a stream that ends or fails: to a result, or to a wait that leaves so many
arrivals at most. -/
inductive Nears (left : Nat) : Poll σ β × Transport → Prop where
  | ready {result : Except Error β} {t : Transport} : Nears left (.ready result, t)
  | waits {wake : Nat} {s : σ} {t : Transport} : t.Due wake → t.stream.arrivals.length ≤ left →
    Nears left (.pending (some wake) s, t)

theorem Nears.mono {left left' : Nat} {r : Poll σ β × Transport} (h : Nears left r) (hle : left ≤ left') :
    Nears left' r := by
  cases h with
  | ready => exact .ready
  | waits hd hl => exact .waits hd (hl.trans hle)

end Transport

theorem Conversation.receive_nears {k : Conversation σ β} {arrivals : List Arrival}
    (h : (Arrival.delivery arrivals).2 ≠ .stall) (now : Nat) (s : σ) (out : Outbound) :
    Transport.Nears arrivals.length (k.receive now s out arrivals) := by
  induction arrivals generalizing s out with
  | nil => exact .ready
  | cons arrival rest ih =>
    have hmore := Nat.le_succ rest.length
    cases arrival with
    | data bytes =>
      simp only [receive]
      split
      · exact (ih h _ _).mono hmore
      · exact .ready
    | delay ms =>
      simp only [receive]
      split
      · exact (ih h _ _).mono hmore
      · exact .waits ⟨rfl, rest, rfl, h⟩ (Nat.le_refl _)
    | due time =>
      simp only [receive]
      split
      · exact (ih h _ _).mono hmore
      · exact .waits ⟨rfl, rest, rfl, h⟩ (Nat.le_refl _)
    | fault text => exact .ready
    | stall => exact absurd rfl h

namespace Transport

variable {t : Transport} {k : Conversation σ β} {now wake : Nat}

theorem poll_nears (h : t.delivery.2 ≠ .stall) (k : Conversation σ β) (now : Nat) (s : σ) :
    Nears t.stream.arrivals.length (t.poll k now s) := by
  simp only [poll]
  split
  · exact Conversation.receive_nears h now _ _
  · exact .ready

/-- A poll that comes too early changes nothing. -/
theorem poll_early (h : t.Due wake) (hnow : now < wake) (s : σ) : t.poll k now s = (.pending (some wake) s, t) := by
  obtain ⟨buffered, ⟨arrivals, out⟩⟩ := t
  obtain ⟨rfl, rest, rfl, -⟩ := h
  simp only [poll, Conversation.consume, Conversation.receive, if_neg (Nat.not_le.2 hnow)]

/-- A poll that is late enough is over or leaves less to arrive. -/
theorem poll_late (h : t.Due wake) (hnow : wake ≤ now) (s : σ) :
    ∃ left, left < t.stream.arrivals.length ∧ Nears left (t.poll k now s) := by
  obtain ⟨buffered, ⟨arrivals, out⟩⟩ := t
  obtain ⟨rfl, rest, rfl, hrest⟩ := h
  refine ⟨rest.length, Nat.lt_succ_self _, ?_⟩
  simp only [poll, Conversation.consume, Conversation.receive, if_pos hnow]
  exact Conversation.receive_nears hrest now s out

end Transport

namespace Dialogue

variable {d : Dialogue σ β} {t : Transport} {now wake : Nat} {times : Nat → Nat}

theorem overheard_early (h : t.Due wake) (hnow : now < wake) (st : σ × ReplyReader) : d.overheard now st t = [] := by
  rw [overheard, Transport.poll_early h hnow, Transport.used_eq (List.nil_append _).symm]
  rfl

theorem begin_nears (d : Dialogue σ β) (h : t.delivery.2 ≠ .stall) (first : Except Error (Move σ β)) (now : Nat) :
    Transport.Nears t.stream.arrivals.length (d.begin first now t) := by
  rcases d.begin_cases first now t with ⟨result, out, hb, -⟩ | ⟨s, out, hb, -⟩ <;> rw [hb]
  · exact .ready
  · exact Transport.poll_nears (t := t.recording out) h d.conversation now (s, {})

/-- A dialogue on a stream that ends or fails is over some time. -/
theorem follow_over (d : Dialogue σ β) (first : Except Error (Move σ β)) (h : t.delivery.2 ≠ .stall) (now : Nat)
    (hon : GoesOn times) :
    ∃ n, ∀ m, n ≤ m → (d.follow first t now ((List.range m).map times)).2.1.result?.isSome = true := by
  refine hon.ends d.resume (fun run => run.2.1.result?.isSome = true)
    (fun run => ∃ wake st, run.2.1 = .pending (some wake) st ∧ run.2.2.Due wake)
    (fun run => run.2.2.stream.arrivals.length) ?_ ?_ ?_
  · rintro now ⟨es, result | ⟨wake, st⟩, t⟩ hover
    · exact hover
    · cases hover
  · rintro ⟨es, p, t⟩ ⟨wake, st, rfl, hd⟩
    refine ⟨wake, fun now => ⟨fun hnow => ?_, fun hnow => ?_⟩⟩
    · simp only [resume, overheard_early hd hnow, Transport.poll_early hd hnow, List.append_nil]
    · obtain ⟨left, hleft, hnears⟩ := Transport.poll_late (k := d.conversation) hd hnow st
      simp only [resume]
      generalize t.poll d.conversation now st = r at hnears ⊢
      cases hnears with
      | ready => exact .inl rfl
      | waits hd' hl => exact .inr ⟨⟨_, _, rfl, hd'⟩, hl.trans_lt hleft⟩
  · have hnears := d.begin_nears h first now
    generalize d.begin first now t = r at hnears ⊢
    cases hnears with
    | ready => exact .inl rfl
    | waits hd => exact .inr ⟨_, _, rfl, hd⟩

end Dialogue

/-- Whatever streams a peer gives, they end or fail. -/
structure Peer.Finite (peer : Peer) : Prop where
  clear : ∀ stream, peer.connect = .ok stream → (Arrival.delivery stream.arrivals).2 ≠ .stall
  secured : ∀ rest arrivals, peer.upgrade rest = .ok arrivals → (Arrival.delivery arrivals).2 ≠ .stall

namespace Attempt

open Handshake

variable {config : Config} {peer : Peer} {now wake left : Nat} {times : Nat → Nat}

/-! ## Attempts -/

/-- What is taken from the secured channel after a poll in clear that leads there. -/
def takenBeyond (config : Config) (now : Nat) (peer : Peer) :
    Poll (Phase .clear × ReplyReader) (Outcome .clear) × Transport → List UInt8
  | (.ready (.ok (.upgrade hostname)), t) =>
    match peer.upgrade t.stream.arrivals with
    | .error _ => []
    | .ok arrivals =>
      let secured := Transport.new { t.stream with arrivals }
      secured.used (overSecured config t arrivals hostname now []).2.2
  | _ => []

/-- What is taken from a poll in clear on. -/
def takenClear (config : Config) (now : Nat) (peer : Peer) (t : Transport) (state : Phase .clear × ReplyReader) :
    List UInt8 :=
  let polled := t.poll (Dialogue.conversation (advance config)) now state
  t.used polled.2 ++ takenBeyond config now peer polled

/-- The bytes that are taken when an attempt is polled. -/
def taken (config : Config) (now : Nat) : Attempt → List UInt8
  | connecting ready peer =>
    if now < ready then []
    else
      match peer.connect with
      | .error _ => []
      | .ok stream => takenClear config now peer (Transport.new stream) (.greeting, {})
  | clear peer t state => takenClear config now peer t state
  | secured t state => t.used (t.poll (Dialogue.conversation (advance config)) now state).2

/-- The bytes that are taken when an attempt is polled at these times. -/
def takes (config : Config) : List Nat → Progress → List UInt8
  | now :: later, .pending _ attempt => attempt.taken config now ++ takes config later (attempt.poll config now)
  | _, _ => []

theorem overheardClear_replies (config : Config) (now : Nat) (peer : Peer) (t : Transport)
    (state : Phase .clear × ReplyReader) : (Event.replies (overheardClear config now peer t state)).length ≤
      (takenClear config now peer t state).count lineFeed := by
  have hclear := Dialogue.overheard_replies (advance config) now state t
  rw [overheardClear, takenClear, Event.replies_append, List.length_append, List.count_append]
  generalize t.poll (Dialogue.conversation (advance config)) now state = r at hclear ⊢
  refine Nat.add_le_add hclear ?_
  obtain ⟨(e | session | hostname) | ⟨wake, state⟩, t'⟩ := r
  · exact Nat.zero_le _
  · exact Nat.zero_le _
  · simp only [beyond, takenBeyond, Event.replies_upgrade]
    cases peer.upgrade t'.stream.arrivals with
    | error e => exact Nat.zero_le _
    | ok arrivals => exact (Dialogue.follow_paid ..).replies
  · exact Nat.zero_le _

/-- **Each reply takes a complete line**, on either channel. -/
theorem overheard_replies (config : Config) (now : Nat) (attempt : Attempt) :
    (Event.replies (attempt.overheard config now)).length ≤ (attempt.taken config now).count lineFeed := by
  cases attempt with
  | connecting ready peer =>
    simp only [overheard, taken]
    split
    · exact Nat.zero_le _
    cases peer.connect with
    | error e => exact Nat.zero_le _
    | ok stream => exact overheardClear_replies ..
  | clear peer t state => exact overheardClear_replies ..
  | secured t state => exact Dialogue.overheard_replies ..

theorem foldl_replies (config : Config) (polls : List Nat) (run : List Event × Progress) :
    (Event.replies (polls.foldl (fun run now => resume config now run) run).1).length ≤
      (Event.replies run.1).length + (takes config polls run.2).count lineFeed := by
  induction polls generalizing run with
  | nil => exact Nat.le_add_right _ _
  | cons now later ih =>
    obtain ⟨es, ⟨wake, attempt⟩ | ⟨session, t⟩ | ⟨e, written⟩⟩ := run
    · refine (ih _).trans ?_
      simp only [resume, takes, Event.replies_append, List.length_append, List.count_append, Nat.add_assoc]
      exact Nat.add_le_add_left (Nat.add_le_add_right (overheard_replies config now attempt) _) _
    · exact (ih _).trans (by cases later <;> exact Nat.le_refl _)
    · exact (ih _).trans (by cases later <;> exact Nat.le_refl _)

theorem Along.counts {es : List Event} (h : Along config es) :
    (Event.lines es).length ≤ (Event.replies es).length := by
  cases h with
  | unheard => exact Nat.le_refl _
  | asked hc => exact hc.counts.ge
  | heard hc | upgraded hc => simp [hc.counts]

/-! ### Waits -/

/-- An attempt that waits until this time, when it is to go on. -/
inductive Awaiting (peer : Peer) (wake : Nat) : Progress → Prop where
  | connecting : Awaiting peer wake (.pending (some wake) (.connecting wake peer))
  | clear {t : Transport} {state : Phase .clear × ReplyReader} : t.Due wake →
    Awaiting peer wake (.pending (some wake) (.clear peer t state))
  | secured {t : Transport} {state : Phase .secured × ReplyReader} : t.Due wake →
    Awaiting peer wake (.pending (some wake) (.secured t state))

/-- What is left to an attempt: its stages, and what is still to arrive in the one it is in. -/
def Progress.rank : Progress → ℕ ×ₗ ℕ
  | .pending _ (.connecting ..) => toLex (2, 0)
  | .pending _ (.clear _ t _) => toLex (1, t.stream.arrivals.length)
  | .pending _ (.secured t _) => toLex (0, t.stream.arrivals.length)
  | .opened .. | .failed .. => toLex (0, 0)

/-- How far a poll comes: the attempt is over, or waits with so much left at most. -/
def Nears (peer : Peer) (left : ℕ ×ₗ ℕ) (p : Progress) : Prop :=
  p.result?.isSome = true ∨ ∃ wake, Awaiting peer wake p ∧ p.rank ≤ left

theorem onSecured_nears {r : Poll (Phase .secured × ReplyReader) (Outcome .secured) × Transport}
    (h : Transport.Nears left r) : Nears peer (toLex (0, left)) (onSecured r) := by
  cases h with
  | @ready result t =>
    rcases result with e | ⟨⟨session⟩⟩ <;> exact .inl rfl
  | waits hd hl => exact .inr ⟨_, .secured hd, Prod.Lex.toLex_mono ⟨Nat.le_refl 0, hl⟩⟩

/-- Behind the upgrade there may be more to come than before it. -/
theorem onClear_nears (hp : peer.Finite) {r : Poll (Phase .clear × ReplyReader) (Outcome .clear) × Transport}
    (h : Transport.Nears left r) : Nears peer (toLex (1, left)) (onClear config now peer r) := by
  cases h with
  | @ready result t =>
    rcases result with e | (session | hostname)
    · exact .inl rfl
    · exact .inl rfl
    simp only [onClear, secure]
    cases hu : peer.upgrade t.stream.arrivals with
    | error e => exact .inl rfl
    | ok arrivals =>
      have hbegin := (advance config).begin_nears (t := Transport.new { t.stream with arrivals }) (hp.secured _ _ hu)
        (.ok (sayEhlo config .secured hostname)) now
      have hsecured : Nears peer _ _ := onSecured_nears hbegin
      rcases hsecured with hover | ⟨wake, hw, hrank⟩
      · exact .inl hover
      · exact .inr ⟨wake, hw, hrank.trans (Prod.Lex.toLex_le_toLex.2 (.inl Nat.zero_lt_one))⟩
  | waits hd hl => exact .inr ⟨_, .clear hd, Prod.Lex.toLex_mono ⟨Nat.le_refl 1, hl⟩⟩

theorem Awaiting.early {p : Progress} (h : Awaiting peer wake p) (hnow : now < wake) (es : List Event) :
    resume config now (es, p) = (es, p) := by
  cases h with
  | connecting => simp only [resume, overheard, poll, if_pos hnow, List.append_nil]
  | clear hd =>
    simp only [resume, overheard, poll, overheardClear, Dialogue.overheard_early hd hnow,
      Transport.poll_early hd hnow, beyond, onClear, List.append_nil]
  | secured hd =>
    simp only [resume, overheard, poll, Dialogue.overheard_early hd hnow, Transport.poll_early hd hnow, onSecured,
      List.append_nil]

theorem Awaiting.late {p : Progress} (h : Awaiting peer wake p) (hp : peer.Finite) (hnow : wake ≤ now)
    (es : List Event) : ∃ left, left < p.rank ∧ Nears peer left (resume config now (es, p)).2 := by
  cases h with
  | connecting =>
    simp only [resume, poll, if_neg (Nat.not_lt.2 hnow)]
    cases hc : peer.connect with
    | error e => exact ⟨toLex (0, 0), Prod.Lex.toLex_lt_toLex.2 (.inl Nat.zero_lt_two), .inl rfl⟩
    | ok stream =>
      exact ⟨_, Prod.Lex.toLex_lt_toLex.2 (.inl Nat.one_lt_two),
        onClear_nears hp (Transport.poll_nears (t := Transport.new stream) (hp.clear stream hc) _ now _)⟩
  | clear hd =>
    obtain ⟨left, hleft, hnears⟩ := Transport.poll_late hd hnow _
    exact ⟨toLex (1, left), Prod.Lex.toLex_lt_toLex.2 (.inr ⟨rfl, hleft⟩), onClear_nears hp hnears⟩
  | secured hd =>
    obtain ⟨left, hleft, hnears⟩ := Transport.poll_late hd hnow _
    exact ⟨toLex (0, left), Prod.Lex.toLex_lt_toLex.2 (.inr ⟨rfl, hleft⟩), onSecured_nears hnears⟩

/-- An attempt with a peer whose streams end or fail is over some time. -/
theorem follow_over (config : Config) (hp : peer.Finite) (begun : Nat) (hon : GoesOn times) :
    ∃ n, ∀ m, n ≤ m → (follow config peer begun ((List.range m).map times)).2.result?.isSome = true := by
  refine hon.ends (resume config) (fun run => run.2.result?.isSome = true)
    (fun run => ∃ wake, Awaiting peer wake run.2) (fun run => run.2.rank) ?_ ?_ (.inr ⟨_, .connecting⟩)
  · rintro now ⟨es, ⟨wake, attempt⟩ | ⟨session, t⟩ | ⟨e, written⟩⟩ hover
    · cases hover
    · exact hover
    · exact hover
  · rintro ⟨es, p⟩ ⟨wake, hw⟩
    refine ⟨wake, fun now => ⟨fun hnow => hw.early hnow es, fun hnow => ?_⟩⟩
    obtain ⟨left, hleft, hnears⟩ : ∃ left, left < p.rank ∧ Nears peer left (resume config now (es, p)).2 :=
      hw.late hp hnow es
    rcases hnears with hover | ⟨wake', hw', hrank⟩
    · exact .inl hover
    · exact .inr ⟨⟨wake', hw'⟩, hrank.trans_lt hleft⟩

/-- **A handshake ends.** However a login or an attempt is polled, it has said one line more than it heard
replies at most, where the greeting, which an attempt hears first, does not count; and its replies took a
complete line each. For each line that is read, and each reply, takes at least the byte that ends it. So
on streams that end or fail every login and every attempt is over some time, if it is polled as time
goes on. -/
theorem follow_ends (config : Config) :
    (∀ (t : Transport) advertised now later,
      let run := t.login config advertised now later
      (Event.lines run.1).length ≤ (Event.replies run.1).length + 1 ∧
      (Event.replies run.1).length ≤ (t.used run.2.2).count lineFeed) ∧
    (∀ peer begun polls,
      let run := follow config peer begun polls
      (Event.lines run.1).length ≤ (Event.replies run.1).tail.length + 1 ∧
      (Event.replies run.1).length ≤
        (takes config polls (.pending (some (begun + peer.delay)) (start peer begun))).count lineFeed) ∧
    (∀ (t : Transport) now later t',
      (∀ text, t.polls Transport.line {} now later = (.ready (.ok text), t') → lineFeed ∈ t.used t') ∧
      ∀ reply, t.polls Transport.reply {} now later = (.ready (.ok reply), t') → lineFeed ∈ t.used t') ∧
    ∀ times, GoesOn times →
      (∀ (t : Transport) advertised now, t.delivery.2 ≠ .stall →
        ∃ n, ∀ m, n ≤ m → (t.login config advertised now ((List.range m).map times)).2.1.result?.isSome = true) ∧
      ∀ (peer : Peer) begun, peer.Finite →
        ∃ n, ∀ m, n ≤ m → (follow config peer begun ((List.range m).map times)).2.result?.isSome = true := by
  refine ⟨fun t advertised now later => ⟨Dialogue.follow_counts .., (Dialogue.follow_paid ..).replies⟩,
    fun peer begun polls => ⟨?_, ?_⟩, fun t now later t' =>
      ⟨fun text h => Transport.polls_lineFeed Transport.line_endsLines h,
        fun reply h => Transport.polls_lineFeed Transport.reply_endsLines h⟩,
    fun times hon => ⟨fun t advertised now h => Dialogue.follow_over _ _ h now hon,
      fun peer begun hp => follow_over config hp begun hon⟩⟩
  · have hcounts := (follow_stage config peer begun polls).along.counts
    rw [List.length_tail]
    omega
  · have hreplies := foldl_replies config polls ([], .pending (some (begun + peer.delay)) (start peer begun))
    exact hreplies.trans_eq (Nat.zero_add _)

/-- A server that takes its time, with empty lines in front of a reply. -/
def unhurried : Peer where
  delay := 2
  connect := .ok
    { arrivals := [.data "220 mx\r\n".toUTF8.toList, .delay 5, .data "\r\n\r\n250 mx\r\n".toUTF8.toList] }
  upgrade := fun _ => .error (.notSupported "STARTTLS")

theorem follow_ends_unhurried :
    let config := { traveller with security := .none, login := .disabled }
    let run := fun n => follow config unhurried 0 ((List.range n).map id)
    unhurried.Finite ∧ GoesOn id ∧ Event.lines (run 7).1 = [.ehlo "localhost"] ∧ (run 7).2.result?.isSome = false ∧
      ∃ n, ∀ m, n ≤ m → (run m).2.result?.isSome = true := by
  intro config run
  have hfinite : unhurried.Finite := by
    refine ⟨fun stream hc => ?_, fun rest arrivals hu => ?_⟩
    · cases hc
      decide
    · cases hu
  have hon : GoesOn id := fun n now => ⟨max n now, Nat.le_max_left .., Nat.le_max_right ..⟩
  exact ⟨hfinite, hon, by decide +kernel, by decide +kernel,
    ((follow_ends config).2.2.2 id hon).2 unhurried 0 hfinite⟩

end Attempt

end SmtpClient
