/-
What is heard and said in a dialogue, in order. The lines of a transcript are
the ones that the stream records (`Dialogue.overheard_outbound`), and what
holds at the first move and is kept by each reply and the line after it holds
wherever a poll stops (`Dialogue.overheard_came`).
-/
import Mathlib.Data.List.Basic
import SmtpClient.Proofs.Faults
import SmtpClient.Proofs.Input

namespace SmtpClient

variable {σ β : Type}

/-- What happens between a client, its server and its connector. -/
inductive Event where
  /-- A reply was read to its end. -/
  | heard (reply : Reply)
  /-- The writing of a line was attempted. -/
  | said (command : Command)
  /-- The connector was asked for a secured channel, and this is its answer. -/
  | upgrade (answer : Except Error (List Arrival))
  deriving DecidableEq

namespace Event

def line? : Event → Option Command
  | said command => some command
  | _ => none

def reply? : Event → Option Reply
  | heard reply => some reply
  | _ => none

/-- The lines among events. -/
def lines (events : List Event) : List Command :=
  events.filterMap line?

/-- The replies among events. -/
def replies (events : List Event) : List Reply :=
  events.filterMap reply?

@[simp] theorem lines_nil : lines [] = [] := rfl

@[simp] theorem lines_heard (reply : Reply) (events : List Event) : lines (.heard reply :: events) = lines events :=
  rfl

@[simp] theorem lines_said (command : Command) (events : List Event) :
    lines (.said command :: events) = command :: lines events :=
  rfl

@[simp] theorem lines_upgrade (answer : Except Error (List Arrival)) (events : List Event) :
    lines (.upgrade answer :: events) = lines events :=
  rfl

@[simp] theorem lines_append (events later : List Event) : lines (events ++ later) = lines events ++ lines later :=
  List.filterMap_append

@[simp] theorem replies_nil : replies [] = [] := rfl

@[simp] theorem replies_heard (reply : Reply) (events : List Event) :
    replies (.heard reply :: events) = reply :: replies events :=
  rfl

@[simp] theorem replies_said (command : Command) (events : List Event) :
    replies (.said command :: events) = replies events :=
  rfl

@[simp] theorem replies_upgrade (answer : Except Error (List Arrival)) (events : List Event) :
    replies (.upgrade answer :: events) = replies events :=
  rfl

@[simp] theorem replies_append (events later : List Event) :
    replies (events ++ later) = replies events ++ replies later :=
  List.filterMap_append

end Event

/-! ## Records of writes -/

namespace Outbound

/-- The record after these lines. -/
def adding (o : Outbound) (commands : List Command) : Outbound :=
  { o with attempted := o.attempted ++ commands }

@[simp] theorem adding_nil (o : Outbound) : o.adding [] = o := by
  simp [adding]

@[simp] theorem adding_adding (o : Outbound) (commands later : List Command) :
    (o.adding commands).adding later = o.adding (commands ++ later) := by
  simp [adding]

/-- Also a line whose writing fails is recorded. -/
theorem write_snd (o : Outbound) (command : Command) : (o.write command).2 = o.adding [command] := by
  simp only [write, adding]
  split <;> rfl

theorem write_error {o o' : Outbound} {command : Command} {e : Error} (h : o.write command = (.error e, o')) :
    e.isWire = true := by
  simp only [write] at h
  split at h
  · simp only [Prod.mk.injEq] at h
    obtain ⟨he, -⟩ := h
    split at he <;> cases he
    rfl
  · simp at h

end Outbound

/-! ## Transcripts -/

namespace Dialogue

variable {d : Dialogue σ β} {st st' : σ × ReplyReader} {out out' : Outbound} {xs : List UInt8}

/-- What one byte does: what is heard and said, the state in which the dialogue
goes on or else its result, and the record of writes after it. -/
def step (d : Dialogue σ β) (st : σ × ReplyReader) (out : Outbound) (byte : UInt8) :
    List Event × ((σ × ReplyReader) ⊕ Except Error β) × Outbound :=
  match st.2.feed byte with
  | .more reader => ([], .inl (st.1, reader), out)
  | .done (.error e) => ([], .inr (.error e), out)
  | .done (.ok reply) =>
    match d st.1 reply with
    | .error e => ([.heard reply], .inr (.error e), out)
    | .ok (.finish b) => ([.heard reply], .inr (.ok b), out)
    | .ok (.send command s) =>
      match out.write command with
      | (.ok (), out) => ([.heard reply, .said command], .inl (s, {}), out)
      | (.error e, out) => ([.heard reply, .said command], .inr (.error e), out)

/-- What is heard and said while a dialogue uses these bytes. -/
def events (d : Dialogue σ β) (st : σ × ReplyReader) (out : Outbound) : List UInt8 → List Event
  | [] => []
  | byte :: bytes =>
    match d.step st out byte with
    | (new, .inl st, out) => new ++ d.events st out bytes
    | (new, .inr _, _) => new

/-- A dialogue over bytes goes step by step. -/
theorem consume_cons (d : Dialogue σ β) (st : σ × ReplyReader) (out : Outbound) (byte : UInt8) (bytes : List UInt8) :
    d.conversation.consume st out (byte :: bytes) =
      match d.step st out byte with
      | (_, .inl st, out) => d.conversation.consume st out bytes
      | (_, .inr result, out) => (.done result bytes, out) := by
  obtain ⟨s, reader⟩ := st
  simp only [Conversation.consume, conversation, step]
  rcases reader.feed byte with reader' | (e | reply)
  · rfl
  · rfl
  · simp only
    rcases d s reply with e | (⟨command, s'⟩ | b)
    · rfl
    · simp only
      rcases out.write command with ⟨e | u, out'⟩ <;> rfl
    · rfl

theorem step_outbound (d : Dialogue σ β) (st : σ × ReplyReader) (out : Outbound) (byte : UInt8) :
    (d.step st out byte).2.2 = out.adding (Event.lines (d.step st out byte).1) := by
  unfold step
  split
  · exact (out.adding_nil).symm
  · exact (out.adding_nil).symm
  split
  · exact (out.adding_nil).symm
  · exact (out.adding_nil).symm
  · next command s _ =>
    have hrecord := out.write_snd command
    split <;> next hw => rw [hw] at hrecord; exact hrecord

/-- The lines of a transcript are the lines on record. -/
theorem consume_outbound (d : Dialogue σ β) (st : σ × ReplyReader) (out : Outbound) (xs : List UInt8) :
    (d.conversation.consume st out xs).2 = out.adding (Event.lines (d.events st out xs)) := by
  induction xs generalizing st out with
  | nil => exact (out.adding_nil).symm
  | cons byte xs ih =>
    have hstep := d.step_outbound st out byte
    rw [consume_cons, events]
    generalize d.step st out byte = r at hstep ⊢
    obtain ⟨new, st' | result, out'⟩ := r
    · obtain rfl : out' = out.adding (Event.lines new) := hstep
      simp only [ih, Outbound.adding_adding, Event.lines_append]
    · exact hstep

/-- Kept by a reply and the line that follows it. -/
def Bears (d : Dialogue σ β) (P : σ → List Event → Prop) : Prop :=
  ∀ s es reply command s', P s es → d s reply = .ok (.send command s') → P s' (es ++ [.heard reply, .said command])

/-- How far a dialogue came with these events, of which something is kept. -/
inductive Came (d : Dialogue σ β) (P : σ → List Event → Prop) : List Event → Poll (σ × ReplyReader) β → Prop where
  | waits {s : σ} {reader : ReplyReader} {wake : Option Nat} {es : List Event} :
    P s es → Came d P es (.pending wake (s, reader))
  | finished {s : σ} {es : List Event} {reply : Reply} {b : β} :
    P s es → d s reply = .ok (.finish b) → Came d P (es ++ [.heard reply]) (.ready (.ok b))
  | refused {s : σ} {es : List Event} {reply : Reply} {e : Error} :
    P s es → d s reply = .error e → Came d P (es ++ [.heard reply]) (.ready (.error e))
  /-- A line could not be written, or its reply not be read. -/
  | broke {s : σ} {es : List Event} {e : Error} : P s es → e.isWire = true → Came d P es (.ready (.error e))

variable {P : σ → List Event → Prop} {es : List Event} {s : σ} {reader : ReplyReader}

theorem step_came (hb : d.Bears P) (hp : P s es) (reader : ReplyReader) (out : Outbound) (byte : UInt8) :
    match d.step (s, reader) out byte with
    | (new, .inl st, _) => P st.1 (es ++ new)
    | (new, .inr result, _) => Came d P (es ++ new) (.ready result) := by
  simp only [step]
  cases hf : reader.feed byte with
  | more reader' => simpa only [List.append_nil] using hp
  | done result =>
    cases result with
    | error e =>
      simp only [List.append_nil]
      exact .broke hp (ReplyReader.feed_error hf)
    | ok reply =>
      simp only
      rcases hm : d s reply with e | (⟨command, s'⟩ | b)
      · exact .refused hp hm
      · have hnext : P s' (es ++ [.heard reply, .said command]) := hb _ _ _ _ _ hp hm
        simp only
        rcases hw : out.write command with ⟨e | u, out'⟩
        · exact .broke hnext (Outbound.write_error hw)
        · exact hnext
      · exact .finished hp hm

theorem consume_came (hb : d.Bears P) (hp : P s es) (reader : ReplyReader) (out : Outbound) (xs : List UInt8) :
    match (d.conversation.consume (s, reader) out xs).1 with
    | .hungry st => P st.1 (es ++ d.events (s, reader) out xs)
    | .done result _ => Came d P (es ++ d.events (s, reader) out xs) (.ready result) := by
  induction xs generalizing s reader out es with
  | nil => simpa only [Conversation.consume, events, List.append_nil] using hp
  | cons byte xs ih =>
    have hstep := step_came hb hp reader out byte
    rw [consume_cons, events]
    generalize d.step (s, reader) out byte = r at hstep ⊢
    obtain ⟨new, st' | result, out'⟩ := r
    · simp only [← List.append_assoc]
      exact ih hstep st'.2 out'
    · exact hstep

end Dialogue

/-! ## Polls -/

namespace Transport

variable {t t' : Transport}

/-- The bytes that were used from one time to another. -/
def used (t t' : Transport) : List UInt8 :=
  t.unread.take (t.unread.length - t'.unread.length)

theorem used_eq {used : List UInt8} (h : t.unread = used ++ t'.unread) : t.used t' = used := by
  rw [Transport.used, h, List.length_append, Nat.add_sub_cancel, List.take_left]

end Transport

namespace Dialogue

variable {d : Dialogue σ β} {P : σ → List Event → Prop} {es : List Event} {s : σ} {reader : ReplyReader}
  {t : Transport} {now : Nat}

/-- What is heard and said in one poll. -/
def overheard (d : Dialogue σ β) (now : Nat) (st : σ × ReplyReader) (t : Transport) : List Event :=
  d.events st t.stream.outbound (t.used (t.poll d.conversation now st).2)

/-- A poll, with the bytes that it used. -/
theorem poll_overheard (d : Dialogue σ β) (now : Nat) (st : σ × ReplyReader) (t : Transport) :
    ∃ used, d.overheard now st t = d.events st t.stream.outbound used ∧
      d.conversation.Met st t.stream.outbound used t.delivery (t.poll d.conversation now st).1
        (t.poll d.conversation now st).2 := by
  cases hp : t.poll d.conversation now st with
  | mk p t' =>
    obtain ⟨used, he, hm⟩ := Transport.poll_met hp
    exact ⟨used, by rw [overheard, hp, Transport.used_eq he], hm⟩

theorem overheard_outbound (d : Dialogue σ β) (now : Nat) (st : σ × ReplyReader) (t : Transport) :
    (t.poll d.conversation now st).2.stream.outbound =
      t.stream.outbound.adding (Event.lines (d.overheard now st t)) := by
  obtain ⟨used, he, hm⟩ := d.poll_overheard now st t
  rw [he, ← d.consume_outbound]
  generalize t.poll d.conversation now st = r at hm
  obtain ⟨p, t'⟩ := r
  cases hm with
  | waits hc | done hc | cut hc => rw [hc]

theorem halt_isWire {st : σ × ReplyReader} {ending : Ending} {e : Error} (h : d.conversation.halt st ending = some e) :
    e.isWire = true := by
  cases ending <;> cases h
  · exact ReplyReader.finish_error _
  · rfl

theorem overheard_came (hb : d.Bears P) (hp : P s es) (reader : ReplyReader) (now : Nat) (t : Transport) :
    Came d P (es ++ d.overheard now (s, reader) t) (t.poll d.conversation now (s, reader)).1 := by
  obtain ⟨used, he, hm⟩ := d.poll_overheard now (s, reader) t
  have hcame := consume_came hb hp reader t.stream.outbound used
  rw [he]
  generalize t.poll d.conversation now (s, reader) = r at hm ⊢
  obtain ⟨p, t'⟩ := r
  cases hm with
  | waits hc => rw [hc] at hcame; exact .waits hcame
  | done hc => rw [hc] at hcame; exact hcame
  | @cut st' e _ hc _ hh =>
    rw [hc] at hcame
    exact .broke hcame (halt_isWire hh)

/-- What is heard and said from the first move on, in one poll. -/
def begun (d : Dialogue σ β) (first : Except Error (Move σ β)) (now : Nat) (t : Transport) : List Event :=
  match first with
  | .ok (.send command s) =>
    .said command ::
      match t.write command with
      | (.ok (), t) => d.overheard now (s, {}) t
      | (.error _, _) => []
  | _ => []

theorem begun_outbound (d : Dialogue σ β) (first : Except Error (Move σ β)) (now : Nat) (t : Transport) :
    (d.begin first now t).2.stream.outbound = t.stream.outbound.adding (Event.lines (d.begun first now t)) := by
  cases first with
  | error e => exact (Outbound.adding_nil _).symm
  | ok move =>
    cases move with
    | finish b => exact (Outbound.adding_nil _).symm
    | send command s =>
      have hrecord := t.stream.outbound.write_snd command
      simp only [Dialogue.begin, begun]
      cases hw : t.write command with
      | mk wrote t₁ =>
        have ht : t₁.stream.outbound = t.stream.outbound.adding [command] := by
          rw [← hrecord]
          exact (congrArg (fun r => r.2.stream.outbound) hw).symm
        cases wrote with
        | error e => exact ht
        | ok u => rw [overheard_outbound, ht, Outbound.adding_adding]; rfl

theorem begun_came {command : Command} (hb : d.Bears P) (hp : P s (es ++ [.said command])) :
    Came d P (es ++ d.begun (.ok (.send command s)) now t) (d.begin (.ok (.send command s)) now t).1 := by
  simp only [Dialogue.begin, begun]
  cases hw : t.write command with
  | mk wrote t₁ =>
    cases wrote with
    | error e =>
      have hfst : (t.stream.outbound.write command).1 = .error e := congrArg Prod.fst hw
      exact .broke hp (Outbound.write_error (Prod.ext hfst rfl))
    | ok u => simpa using overheard_came hb hp {} now t₁

/-! ## Runs -/

/-- Polls a dialogue once more, unless it is over. -/
def resume (d : Dialogue σ β) (now : Nat) :
    List Event × Poll (σ × ReplyReader) β × Transport → List Event × Poll (σ × ReplyReader) β × Transport
  | (es, .pending _ st, t) => (es ++ d.overheard now st t, t.poll d.conversation now st)
  | ended => ended

/-- A run that is polled again at each of these times. -/
def goOn (d : Dialogue σ β) (run : List Event × Poll (σ × ReplyReader) β × Transport) (later : List Nat) :
    List Event × Poll (σ × ReplyReader) β × Transport :=
  later.foldl (fun run now => d.resume now run) run

/-- A dialogue from its first move on: what was heard and said, how far it
came, and the transport after it. -/
def follow (d : Dialogue σ β) (first : Except Error (Move σ β)) (t : Transport) (now : Nat) (later : List Nat) :
    List Event × Poll (σ × ReplyReader) β × Transport :=
  d.goOn (d.begun first now t, d.begin first now t) later

/-- A dialogue that begins with a reply. -/
def listen (d : Dialogue σ β) (s : σ) (t : Transport) (now : Nat) (later : List Nat) :
    List Event × Poll (σ × ReplyReader) β × Transport :=
  d.goOn (d.overheard now (s, {}) t, t.poll d.conversation now (s, {})) later

variable {first : Except Error (Move σ β)} {later : List Nat} {result : Except Error β}
  {run : List Event × Poll (σ × ReplyReader) β × Transport}

theorem goOn_concat (d : Dialogue σ β) (run : List Event × Poll (σ × ReplyReader) β × Transport) (later : List Nat)
    (now : Nat) : d.goOn run (later ++ [now]) = d.resume now (d.goOn run later) :=
  List.foldl_append

/-- What a poll leaves holds of a whole run. -/
theorem goOn_induct {I : List Event × Poll (σ × ReplyReader) β × Transport → Prop} (h : I run)
    (hresume : ∀ now run, I run → I (d.resume now run)) (later : List Nat) : I (d.goOn run later) := by
  unfold goOn
  induction later generalizing run with
  | nil => exact h
  | cons now later ih => exact ih (hresume now run h)

/-- A dialogue that needs no reply is over at once. -/
theorem follow_ready (hf : d.begin first now t = (.ready result, t)) (hs : d.begun first now t = []) :
    d.follow first t now later = ([], .ready result, t) := by
  refine goOn_induct (I := (· = ([], .ready result, t))) ?_ (fun now run hr => ?_) later
  · rw [hf, hs]
  · rw [hr]
    rfl

theorem goOn_outbound {o : Outbound} (h : run.2.2.stream.outbound = o.adding (Event.lines run.1))
    (later : List Nat) :
    (d.goOn run later).2.2.stream.outbound = o.adding (Event.lines (d.goOn run later).1) := by
  refine goOn_induct (I := fun run => run.2.2.stream.outbound = o.adding (Event.lines run.1)) h ?_ later
  rintro now ⟨es, p, t⟩ hr
  cases p with
  | pending wake st =>
    simp only [resume] at hr ⊢
    rw [overheard_outbound, hr, Outbound.adding_adding, Event.lines_append]
  | ready result => exact hr

theorem follow_outbound (d : Dialogue σ β) (first : Except Error (Move σ β)) (t : Transport) (now : Nat)
    (later : List Nat) : (d.follow first t now later).2.2.stream.outbound =
      t.stream.outbound.adding (Event.lines (d.follow first t now later).1) :=
  goOn_outbound (begun_outbound d first now t) later

theorem listen_outbound (d : Dialogue σ β) (s : σ) (t : Transport) (now : Nat) (later : List Nat) :
    (d.listen s t now later).2.2.stream.outbound =
      t.stream.outbound.adding (Event.lines (d.listen s t now later).1) :=
  goOn_outbound (overheard_outbound d now (s, {}) t) later

theorem goOn_came (hb : d.Bears P) (es : List Event) (h : Came d P (es ++ run.1) run.2.1) (later : List Nat) :
    Came d P (es ++ (d.goOn run later).1) (d.goOn run later).2.1 := by
  refine goOn_induct (I := fun run => Came d P (es ++ run.1) run.2.1) h ?_ later
  rintro now ⟨new, p, t⟩ hr
  cases p with
  | pending wake st =>
    -- `Came` fixes how its events end, so they are one list before the cases.
    generalize hall : es ++ new = all at hr
    cases hr with
    | waits hp =>
      simp only [resume]
      rw [← List.append_assoc, hall]
      exact overheard_came hb hp _ now t
  | ready result => exact hr

theorem follow_came {command : Command} (hb : d.Bears P) (es : List Event) (hp : P s (es ++ [.said command])) :
    Came d P (es ++ (d.follow (.ok (.send command s)) t now later).1)
      (d.follow (.ok (.send command s)) t now later).2.1 :=
  goOn_came hb es (begun_came hb hp) later

theorem listen_came (hb : d.Bears P) (hp : P s []) :
    Came d P (d.listen s t now later).1 (d.listen s t now later).2.1 :=
  goOn_came hb [] (overheard_came hb hp {} now t) later

end Dialogue

end SmtpClient
