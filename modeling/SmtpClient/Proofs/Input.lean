/-
What a stream holds for its reader. Polls use it up in order, however it is
cut and whenever it comes (`Transport.poll_used`), so what an exchange reads is
said of bytes and not of chunks (`Connection.poll_pending`, `Connection.poll_ok`).
-/
import SmtpClient.Connection
import SmtpClient.Proofs.Replies

namespace SmtpClient

variable {σ β : Type}

namespace Arrival

/-- The bytes of an arrival. -/
def bytes : Arrival → List UInt8
  | data bytes => bytes
  | _ => []

/-- The bytes that arrivals bring. -/
def incoming (arrivals : List Arrival) : List UInt8 :=
  arrivals.flatMap bytes

theorem incoming_cons (arrival : Arrival) (rest : List Arrival) :
    incoming (arrival :: rest) = arrival.bytes ++ incoming rest :=
  List.flatMap_cons

end Arrival

/-- What stands behind the last byte that reads meet. -/
inductive Ending where
  | closed
  | fault (text : String)
  | stall
  deriving DecidableEq

/-- What reads meet in the end: bytes, however they are cut and whenever they
come, and what stands behind them. -/
def Arrival.delivery : List Arrival → List UInt8 × Ending
  | [] => ([], .closed)
  | .data bytes :: rest => (bytes ++ (delivery rest).1, (delivery rest).2)
  | .delay _ :: rest => delivery rest
  | .due _ :: rest => delivery rest
  | .fault text :: _ => ([], .fault text)
  | .stall :: _ => ([], .stall)

namespace Transport

/-- Everything that was not used yet. -/
def unread (t : Transport) : List UInt8 :=
  t.buffered ++ Arrival.incoming t.stream.arrivals

/-- What is delivered to a reader that goes on to read. -/
def delivery (t : Transport) : List UInt8 × Ending :=
  (t.buffered ++ (Arrival.delivery t.stream.arrivals).1, (Arrival.delivery t.stream.arrivals).2)

end Transport

/-! ## Polls -/

namespace Conversation

variable {k : Conversation σ β} {s s' : σ} {out out' : Outbound} {now : Nat} {xs us : List UInt8}

theorem consume_hungry (h : k.consume s out xs = (.hungry s', out')) (ys : List UInt8) :
    k.consume s out (xs ++ ys) = k.consume s' out' ys := by
  induction xs generalizing s out with
  | nil => cases h; rfl
  | cons byte xs ih =>
    simp only [List.cons_append, consume] at h ⊢
    split at h
    · exact ih h
    · split at h
      · exact ih h
      · cases h
    · cases h

theorem consume_done {result : Except Error β} (h : k.consume s out xs = (.done result us, out')) :
    ∃ used, xs = used ++ us ∧ k.consume s out used = (.done result [], out') := by
  induction xs generalizing s out with
  | nil => cases h
  | cons byte xs ih =>
    cases hf : k.feed s byte with
    | more s₁ =>
      simp only [consume, hf] at h
      obtain ⟨used, rfl, hused⟩ := ih h
      exact ⟨byte :: used, rfl, by simp only [consume, hf, hused]⟩
    | write command s₁ =>
      cases hw : out.write command with
      | mk wrote out₁ =>
        cases wrote with
        | ok u =>
          simp only [consume, hf, hw] at h
          obtain ⟨used, rfl, hused⟩ := ih h
          exact ⟨byte :: used, rfl, by simp only [consume, hf, hw, hused]⟩
        | error e =>
          simp only [consume, hf, hw] at h
          cases h
          exact ⟨[byte], rfl, by simp only [consume, hf, hw]⟩
    | done result =>
      simp only [consume, hf] at h
      cases h
      exact ⟨[byte], rfl, by simp only [consume, hf]⟩

/-- The error at an ending; none where reads never complete. -/
def halt (k : Conversation σ β) (s : σ) : Ending → Option Error
  | .closed => some (k.finish s)
  | .fault text => some (.stream (.other text))
  | .stall => none

/-- What a poll comes to that used these bytes of a delivery. -/
inductive Met (k : Conversation σ β) (s : σ) (out : Outbound) (used : List UInt8) (met : List UInt8 × Ending) :
    Poll σ β → Transport → Prop where
  | waits {wake : Option Nat} {s' : σ} {t : Transport} : k.consume s out used = (.hungry s', t.stream.outbound) →
    met = (used ++ t.delivery.1, t.delivery.2) → (wake = none → t.delivery = ([], .stall)) →
    Met k s out used met (.pending wake s') t
  | done {result : Except Error β} {rest : List UInt8} {t : Transport} :
    k.consume s out used = (.done result [], t.stream.outbound) → met.1 = used ++ rest →
    Met k s out used met (.ready result) t
  /-- The stream itself ended or failed. -/
  | cut {s' : σ} {e : Error} {t : Transport} : k.consume s out used = (.hungry s', t.stream.outbound) →
    met.1 = used → k.halt s' met.2 = some e → Met k s out used met (.ready (.error e)) t

variable {p : Poll σ β} {t : Transport}

theorem Met.of_hungry {met : List UInt8 × Ending} (h : k.consume s out xs = (.hungry s', out'))
    (hm : Met k s' out' us met p t) : Met k s out (xs ++ us) (xs ++ met.1, met.2) p t := by
  have happ := consume_hungry h us
  cases hm with
  | waits hc he hw => exact .waits (happ.trans hc) (by rw [he, List.append_assoc]) hw
  | done hc he => exact .done (happ.trans hc) (by rw [he, List.append_assoc])
  | cut hc he hh => exact .cut (happ.trans hc) (by rw [he]) hh

theorem receive_met {arrivals : List Arrival} (h : k.receive now s out arrivals = (p, t)) :
    ∃ used, Arrival.incoming arrivals = used ++ t.unread ∧ Met k s out used (Arrival.delivery arrivals) p t := by
  have hnone : ∀ {s out}, k.consume s out [] = (.hungry s, out) := rfl
  induction arrivals generalizing s out with
  | nil => cases h; exact ⟨[], rfl, .cut hnone rfl rfl⟩
  | cons arrival rest ih =>
    rw [Arrival.incoming_cons]
    cases arrival with
    | data bytes =>
      simp only [receive] at h
      split at h
      · next hc =>
        obtain ⟨used, he, hm⟩ := ih h
        exact ⟨bytes ++ used, by rw [he, List.append_assoc]; rfl, hm.of_hungry hc⟩
      · next hc =>
        cases h
        obtain ⟨used, rfl, hused⟩ := consume_done hc
        exact ⟨used, by rw [Transport.unread]; exact List.append_assoc .., .done hused (List.append_assoc ..)⟩
    | delay ms =>
      simp only [receive] at h
      split at h
      · exact ih h
      · cases h; exact ⟨[], rfl, .waits hnone rfl (by simp)⟩
    | due time =>
      simp only [receive] at h
      split at h
      · exact ih h
      · cases h; exact ⟨[], rfl, .waits hnone rfl (by simp)⟩
    | fault text => cases h; exact ⟨[], rfl, .cut hnone rfl rfl⟩
    | stall => cases h; exact ⟨[], rfl, .waits hnone rfl fun _ => rfl⟩

/-- What a poll comes to that used these bytes, whatever else is delivered. -/
inductive Used (k : Conversation σ β) (s : σ) (out : Outbound) (used : List UInt8) :
    Poll σ β → Outbound → Prop where
  | pending {wake : Option Nat} {s' : σ} {out' : Outbound} :
    k.consume s out used = (.hungry s', out') → Used k s out used (.pending wake s') out'
  | ok {b : β} {out' : Outbound} :
    k.consume s out used = (.done (.ok b) [], out') → Used k s out used (.ready (.ok b)) out'
  | failed {e : Error} {out' : Outbound} :
    k.consume s out used = (.done (.error e) [], out') → Used k s out used (.ready (.error e)) out'
  /-- The stream itself ended or failed. -/
  | cut {s' : σ} {e : Error} {out' : Outbound} : k.consume s out used = (.hungry s', out') →
    (e = k.finish s' ∨ ∃ text, e = .stream (.other text)) → Used k s out used (.ready (.error e)) out'

theorem Met.used {met : List UInt8 × Ending} (h : Met k s out us met p t) :
    Used k s out us p t.stream.outbound := by
  cases h with
  | waits hc => exact .pending hc
  | @done result _ _ hc =>
    cases result with
    | ok b => exact .ok hc
    | error e => exact .failed hc
  | cut hc _ hh =>
    refine .cut hc ?_
    cases hmet : met.2 <;> rw [hmet] at hh <;> cases hh
    · exact .inl rfl
    · exact .inr ⟨_, rfl⟩

end Conversation

namespace Transport

variable {k : Conversation σ β} {t t' : Transport} {now : Nat} {s : σ} {p : Poll σ β}

theorem poll_met (h : t.poll k now s = (p, t')) :
    ∃ used, t.unread = used ++ t'.unread ∧ k.Met s t.stream.outbound used t.delivery p t' := by
  simp only [poll] at h
  split at h
  · next hc =>
    obtain ⟨used, he, hm⟩ := Conversation.receive_met h
    exact ⟨t.buffered ++ used, by rw [unread, he, List.append_assoc], hm.of_hungry hc⟩
  · next hc =>
    cases h
    obtain ⟨used, he, hused⟩ := Conversation.consume_done hc
    exact ⟨used, by rw [unread, he, List.append_assoc]; rfl,
      .done hused (by rw [delivery, he]; exact List.append_assoc ..)⟩

theorem poll_used (h : t.poll k now s = (p, t')) :
    ∃ used, t.unread = used ++ t'.unread ∧ k.Used s t.stream.outbound used p t'.stream.outbound := by
  obtain ⟨used, he, hm⟩ := poll_met h
  exact ⟨used, he, hm.used⟩

end Transport

/-! ## One reply -/

theorem Transport.consume_reply (r : ReplyReader) (out : Outbound) (xs : List UInt8) :
    reply.consume r out xs = (match r.read xs with
      | .more r => .hungry r
      | .done (result, us) => .done result us, out) := by
  induction xs generalizing r with
  | nil => rfl
  | cons byte xs ih =>
    simp only [Conversation.consume, ReplyReader.read, reply]
    cases r.feed byte with
    | more r => exact ih r
    | done result => rfl

namespace Connection

variable {c c' : Connection} {now : Nat} {r r' : ReplyReader}

/-- What the connection has not read yet. -/
def unread (c : Connection) : List UInt8 :=
  c.transport.unread

theorem setBroken_transport (c : Connection) : c.setBroken.transport = c.transport := by
  unfold setBroken
  split <;> rfl

theorem setBroken_isBroken (c : Connection) : c.setBroken.isBroken = true := by
  unfold setBroken isBroken
  split
  · next h => simp [h]
  · rfl

/-- A verdict leaves the connection as it is, or broken. -/
theorem judge_cases (c : Connection) (result : Except Error Reply) :
    (c.judge result).2 = c ∨ (c.judge result).2.isBroken = true := by
  cases result with
  | error e => exact .inl rfl
  | ok reply =>
    unfold judge
    by_cases hsuccess : reply.isSuccess = true
    · simp only [hsuccess, if_true, true_or]
    · simp only [hsuccess]
      exact .inr (setBroken_isBroken c)

theorem begin_ok {command : Command} (h : c.begin command = (.ok r, c')) :
    c.isBroken = false ∧ r = {} ∧ c'.unread = c.unread ∧
      c'.written = { c.written with attempted := c.written.attempted ++ [command] } := by
  simp only [begin] at h
  split at h
  · cases h
  next hsound =>
  split at h
  · next t hw =>
    cases h
    simp only [Transport.write, Prod.mk.injEq] at hw
    obtain ⟨-, rfl⟩ := hw
    refine ⟨by simpa using hsound, rfl, rfl, ?_⟩
    simp only [written, Outbound.write]
    split <;> rfl
  · cases h

theorem begin_error {command : Command} {e : Error} (h : c.begin command = (.error e, c')) :
    c'.isBroken = true := by
  simp only [begin] at h
  split at h
  · next hb => cases h; exact hb
  split at h
  · cases h
  · cases h; exact setBroken_isBroken _

theorem poll_pending {wake : Option Nat} (h : c.poll now r = (.pending wake r', c')) :
    ∃ used, c.unread = used ++ c'.unread ∧ r.read used = .more r' ∧ c'.written = c.written := by
  simp only [poll] at h
  split at h
  · next hp =>
    cases h
    obtain ⟨used, he, hu⟩ := Transport.poll_used hp
    refine ⟨used, he, ?_⟩
    cases hu with
    | pending hc =>
      rw [Transport.consume_reply] at hc
      simp only [Prod.mk.injEq] at hc
      obtain ⟨hread, hout⟩ := hc
      split at hread
      · next hr => cases hread; exact ⟨hr, hout.symm⟩
      · cases hread
  · cases h
  · cases h

theorem poll_ok {reply : Reply} (h : c.poll now r = (.ready (.ok reply), c')) :
    ∃ used, c.unread = used ++ c'.unread ∧ r.read used = .done (.ok reply, []) ∧ c'.written = c.written := by
  simp only [poll] at h
  split at h
  · cases h
  · cases h
  · next got t hp =>
    have hc' : c'.transport = t := by
      cases h
      split
      · exact setBroken_transport _
      · rfl
    obtain rfl : got = reply := by cases h; rfl
    rw [unread, unread, written, written, hc']
    obtain ⟨used, he, hu⟩ := Transport.poll_used hp
    refine ⟨used, he, ?_⟩
    cases hu with
    | ok hc =>
      rw [Transport.consume_reply] at hc
      simp only [Prod.mk.injEq] at hc
      obtain ⟨hread, hout⟩ := hc
      split at hread
      · cases hread
      · next hr => cases hread; exact ⟨hr, hout.symm⟩

theorem poll_error {e : Error} (h : c.poll now r = (.ready (.error e), c')) : c'.isBroken = true := by
  simp only [poll] at h
  split at h
  · cases h
  · cases h; exact setBroken_isBroken _
  · cases h

end Connection

end SmtpClient
