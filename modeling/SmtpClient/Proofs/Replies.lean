/-
Replies as bytes. How bytes are cut into pieces does not matter to a reader,
and what stands behind a reply has no say in it (`Answer.read`). What was left
unread in front of it has: unless that is blank lines only, whoever reads there
does not get the reply (`read_stale`).
-/
import SmtpClient.Reply.Reader

namespace SmtpClient

/-! ## Lines -/

theorem LineReader.feed_ok {r : LineReader} {byte : UInt8} {line : String} (h : r.feed byte = .done (.ok line)) :
    byte = lineFeed := by
  simp only [feed] at h
  split at h
  · simp only [finish, Fed.done.injEq] at h
    split at h
    · cases h
    split at h
    · next hback => simpa using hback
    · split at h <;> cases h
  · cases h

/-- Bytes that stop at the end of a line, if there are any. -/
def EndsLine (bytes : List UInt8) : Prop :=
  ∀ byte, bytes.getLast? = some byte → byte = lineFeed

theorem EndsLine.of_append {xs ys : List UInt8} (h : EndsLine (xs ++ ys)) : EndsLine ys := by
  intro byte hb
  exact h byte (by rw [List.getLast?_append, hb, Option.some_or])

theorem EndsLine.tail {byte : UInt8} {bytes : List UInt8} (h : EndsLine (byte :: bytes)) : EndsLine bytes := by
  rw [← List.singleton_append] at h
  exact h.of_append

theorem EndsLine.append {xs ys : List UInt8} (h : EndsLine ys) (hne : ys ≠ []) : EndsLine (xs ++ ys) := by
  intro byte hb
  rw [List.getLast?_append, List.getLast?_eq_some_getLast hne, Option.some_or] at hb
  exact h byte (List.getLast?_eq_some_getLast hne ▸ hb)

theorem Reply.ofLines_length {lines : List String} {reply : Reply} (h : Reply.ofLines lines = .ok reply) :
    reply.message.length = lines.length := by
  have htexts : ∀ lines texts, Reply.textsOf lines = .ok texts → texts.length = lines.length := by
    intro lines
    induction lines with
    | nil => intro texts h; cases h; rfl
    | cons line lines ih =>
      intro texts h
      simp only [textsOf] at h
      split at h
      · cases hl : textsOf lines with
        | ok rest =>
          rw [hl] at h
          cases h
          rw [List.length_cons, List.length_cons, ih _ hl]
        | error e => rw [hl] at h; cases h
      · cases h
  simp only [ofLines] at h
  split at h
  · cases h
  split at h
  · cases h
  · next first rest _ code _ =>
    cases hl : textsOf (first :: rest) with
    | ok texts => rw [hl] at h; cases h; exact htexts _ _ hl
    | error e => rw [hl] at h; cases h

/-! ## Reading -/

namespace ReplyReader

variable {r r' r₀ : ReplyReader} {xs us : List UInt8} {result : Except Error Reply} {reply : Reply}

/-- Gives a reader these bytes, or as many as it takes. -/
def read (r : ReplyReader) : List UInt8 → Fed ReplyReader (Except Error Reply × List UInt8)
  | [] => .more r
  | byte :: bytes =>
    match r.feed byte with
    | .more r => r.read bytes
    | .done result => .done (result, bytes)

theorem read_more (h : r.read xs = .more r') (ys : List UInt8) : r.read (xs ++ ys) = r'.read ys := by
  induction xs generalizing r with
  | nil => cases h; rfl
  | cons byte xs ih =>
    simp only [List.cons_append, read] at h ⊢
    split at h
    · exact ih h
    · cases h

theorem read_done (h : r.read xs = .done (result, us)) (ys : List UInt8) :
    r.read (xs ++ ys) = .done (result, us ++ ys) := by
  induction xs generalizing r with
  | nil => cases h
  | cons byte xs ih =>
    simp only [List.cons_append, read] at h ⊢
    split at h
    · exact ih h
    · cases h; rfl

/-- A reply is complete only at the end of a line. -/
theorem read_ok_endsLine (h : r.read xs = .done (.ok reply, [])) : xs ≠ [] ∧ EndsLine xs := by
  induction xs generalizing r with
  | nil => cases h
  | cons byte xs ih =>
    simp only [read] at h
    split at h
    · obtain ⟨hne, he⟩ := ih h
      exact ⟨by simp, List.singleton_append ▸ he.append hne⟩
    · next hf =>
      cases h
      refine ⟨by simp, fun b hb => ?_⟩
      obtain rfl : byte = b := by simpa using hb
      simp only [feed] at hf
      split at hf
      · cases hf
      · cases hf
      · next hl => exact LineReader.feed_ok hl

theorem feed_lineFeed (h : r.feed lineFeed = .more r') : r'.line = {} := by
  simp only [feed, LineReader.feed, true_or, if_true] at h
  split at h
  · next hl => cases hl
  · cases h
  · simp only [take] at h
    split at h
    · cases h; rfl
    split at h
    · cases h
    split at h <;> cases h
    rfl

/-- At the end of a line a reader has nothing of the next one. -/
theorem read_more_line (h : r.read xs = .more r') (hne : xs ≠ []) (he : EndsLine xs) : r'.line = {} := by
  induction xs generalizing r with
  | nil => exact absurd rfl hne
  | cons byte xs ih =>
    cases hf : r.feed byte with
    | done result => simp only [read, hf] at h; cases h
    | more r₁ =>
      simp only [read, hf] at h
      cases xs with
      | nil =>
        cases h
        obtain rfl := he byte rfl
        exact feed_lineFeed hf
      | cons next rest => exact ih h (by simp) (EndsLine.tail he)

/-- Two readers in the same place of a line, of which one has more lines
behind it: both go on, or that one is done; with a reply, which has these lines
too, only where the other is done as well. -/
theorem feed_behind {before : Array String} (hline : r.line = r₀.line) (hlines : r.lines = before ++ r₀.lines)
    (byte : UInt8) :
    (∃ r₁ r₁', r₀.feed byte = .more r₁ ∧ r.feed byte = .more r₁' ∧ r₁'.line = r₁.line ∧
      r₁'.lines = before ++ r₁.lines) ∨
    ∃ result, r.feed byte = .done result ∧ ∀ reply', result = .ok reply' → ∃ result₀, r₀.feed byte = .done result₀ ∧
      ∀ reply, result₀ = .ok reply → reply'.message.length = before.size + reply.message.length := by
  simp only [feed, hline]
  split
  · exact .inl ⟨_, _, rfl, rfl, rfl, hlines⟩
  · exact .inr ⟨_, rfl, fun _ he => by cases he⟩
  next text _ =>
  have hpush : r.lines.push text = before ++ r₀.lines.push text := by rw [hlines, Array.append_push]
  simp only [take, hpush]
  split
  · exact .inl ⟨_, _, rfl, rfl, rfl, hlines⟩
  split
  · refine .inr ⟨_, rfl, fun reply' he => ⟨_, rfl, fun reply he₀ => ?_⟩⟩
    rw [Reply.ofLines_length he, Reply.ofLines_length he₀]
    simp
  -- The limit comes earlier for the one with more lines.
  by_cases hsize : Reply.maxLines ≤ (before ++ r₀.lines.push text).size
  · rw [if_pos hsize]
    exact .inr ⟨.error (.protocol .tooManyLines), rfl, fun _ he => by cases he⟩
  · have hsize₀ : ¬ Reply.maxLines ≤ (r₀.lines.push text).size := fun hle =>
      hsize (by rw [Array.size_append]; exact Nat.le_add_left_of_le hle)
    rw [if_neg hsize, if_neg hsize₀]
    exact .inl ⟨_, _, rfl, rfl, rfl, rfl⟩

theorem read_behind {before : Array String} (hline : r.line = r₀.line) (hlines : r.lines = before ++ r₀.lines)
    (h : r₀.read xs = .done (.ok reply, [])) :
    ∃ result us, r.read xs = .done (result, us) ∧ ∀ reply', result = .ok reply' →
      us = [] ∧ reply'.message.length = before.size + reply.message.length := by
  induction xs generalizing r r₀ with
  | nil => cases h
  | cons byte xs ih =>
    simp only [read] at h ⊢
    rcases feed_behind hline hlines byte with ⟨r₁, r₁', hf₀, hf, hl, hls⟩ | ⟨result, hf, hreply⟩
    · rw [hf₀] at h
      rw [hf]
      exact ih hl hls h
    · rw [hf]
      refine ⟨result, xs, rfl, fun reply' he => ?_⟩
      obtain ⟨result₀, hf₀, hlen⟩ := hreply reply' he
      rw [hf₀] at h
      simp only [Fed.done.injEq, Prod.mk.injEq] at h
      exact ⟨h.2, hlen reply h.1⟩

end ReplyReader

/-! ## Answers -/

/-- The one reply that these bytes are. -/
def spelled? (bytes : List UInt8) : Option Reply :=
  match ({} : ReplyReader).read bytes with
  | .done (.ok reply, []) => some reply
  | _ => none

/-- What a server sends to answer one line. -/
structure Answer where
  bytes : List UInt8
  reply : Reply
  spells : spelled? bytes = some reply

/-- Answers on their way, one after the other. -/
def wire (answers : List Answer) : List UInt8 :=
  answers.flatMap Answer.bytes

/-- Lines that a reader skips. -/
def Blank (bytes : List UInt8) : Prop :=
  ({} : ReplyReader).read bytes = .more {}

namespace Answer

variable {a : Answer} {stale taken unread behind : List UInt8} {r : ReplyReader}

theorem wire_cons (a : Answer) (answers : List Answer) : wire (a :: answers) = a.bytes ++ wire answers :=
  List.flatMap_cons

theorem reads (a : Answer) : ({} : ReplyReader).read a.bytes = .done (.ok a.reply, []) := by
  have hs := a.spells
  unfold spelled? at hs
  split at hs
  · next hr => cases hs; exact hr
  · cases hs

theorem bytes_ne_nil (a : Answer) : a.bytes ≠ [] := (ReplyReader.read_ok_endsLine a.reads).1

theorem endsLine (a : Answer) : EndsLine a.bytes := (ReplyReader.read_ok_endsLine a.reads).2

/-- A reply is read whatever follows it, and all of that is left. -/
theorem read (a : Answer) (behind : List UInt8) :
    ({} : ReplyReader).read (a.bytes ++ behind) = .done (.ok a.reply, behind) := by
  rw [ReplyReader.read_done a.reads, List.nil_append]

/-- **What is left unread.** Whoever reads where something was left in front of
an answer is done at the end of the answer at the latest, and gets just that
answer if only blank lines were left, and not otherwise. -/
theorem read_stale (he : EndsLine stale) (a : Answer) (behind : List UInt8) :
    ∃ result us, ({} : ReplyReader).read (stale ++ (a.bytes ++ behind)) = .done (result, us ++ behind) ∧
      ∀ reply, result = .ok reply → ((reply = a.reply ∧ us = []) ↔ Blank stale) := by
  cases hs : ({} : ReplyReader).read stale with
  | done p =>
    obtain ⟨result, us⟩ := p
    refine ⟨result, us ++ a.bytes, by rw [ReplyReader.read_done hs, List.append_assoc], fun reply _ => ?_⟩
    constructor
    · rintro ⟨-, hnil⟩
      exact absurd (List.append_eq_nil_iff.1 hnil).2 a.bytes_ne_nil
    · intro hb
      cases hs.symm.trans hb
  | more r =>
    have hline : r.line = {} := by
      cases hstale : stale with
      | nil => rw [hstale] at hs; cases hs; rfl
      | cons byte rest => exact ReplyReader.read_more_line hs (by simp [hstale]) he
    have hlines : r.lines = r.lines ++ ({} : ReplyReader).lines := Array.append_empty.symm
    obtain ⟨result, us, hr, hreply⟩ := ReplyReader.read_behind hline hlines a.reads
    refine ⟨result, us, by rw [ReplyReader.read_more hs, ReplyReader.read_done hr], fun reply hok => ?_⟩
    obtain ⟨hus, hlen⟩ := hreply reply hok
    constructor
    · rintro ⟨rfl, -⟩
      have hempty : r.lines = #[] := Array.eq_empty_of_size_eq_zero (by omega)
      have hfresh : r = {} := by
        cases r
        simp only at hline hempty
        rw [hline, hempty]
      rw [Blank, hs, hfresh]
    · intro hb
      obtain rfl : r = {} := by cases hs.symm.trans hb; rfl
      have hown := hr.symm.trans a.reads
      cases hown
      exact ⟨(Except.ok.inj hok).symm, rfl⟩

end Answer

variable {stale taken unread : List UInt8} {answers : List Answer} {reply : Reply} {r : ReplyReader}

/-- **Whose answer it is.** A reply that is read where something was left in
front of the answers to come is the first of these, with all the others left
behind it, if only blank lines were left, and not otherwise. Whatever is left
of it then stops at the end of a line. -/
theorem reads_own (he : EndsLine stale) (h : ({} : ReplyReader).read taken = .done (.ok reply, []))
    (hall : taken ++ unread = stale ++ wire answers) :
    (∃ rest, unread = rest ++ wire (answers.drop 1) ∧ EndsLine rest ∧ (stale = [] → rest = [])) ∧
    ((∃ own later, answers = own :: later ∧ reply = own.reply ∧ unread = wire later) ↔ Blank stale) := by
  have hread : ({} : ReplyReader).read (stale ++ wire answers) = .done (.ok reply, unread) := by
    rw [← hall, ReplyReader.read_done h, List.nil_append]
  cases answers with
  | nil =>
    have hstale : taken ++ unread = stale := by simpa [wire] using hall
    refine ⟨⟨unread, by simp [wire], (hstale ▸ he).of_append, fun hnil => ?_⟩, ?_⟩
    · exact (List.append_eq_nil_iff.1 (hstale.trans hnil)).2
    · constructor
      · rintro ⟨_, _, hnil, -⟩
        cases hnil
      · intro hb
        rw [wire, List.flatMap_nil, List.append_nil] at hread
        cases hb.symm.trans hread
  | cons own later =>
    rw [Answer.wire_cons] at hread hall
    obtain ⟨result, rest, hstale, hown⟩ := Answer.read_stale he own (wire later)
    have hsame := hread.symm.trans hstale
    simp only [Fed.done.injEq, Prod.mk.injEq] at hsame
    obtain ⟨rfl, rfl⟩ := hsame
    have hiff := hown reply rfl
    have hends : EndsLine (stale ++ own.bytes) := own.endsLine.append own.bytes_ne_nil
    have hcut : (taken ++ rest) ++ wire later = (stale ++ own.bytes) ++ wire later := by simpa using hall
    refine ⟨⟨rest, rfl, ((List.append_cancel_right hcut) ▸ hends).of_append, fun hnil => ?_⟩, ?_⟩
    · exact (hiff.2 (by rw [hnil]; rfl)).2
    · rw [← hiff]
      constructor
      · rintro ⟨_, _, he', hreply, hunread⟩
        cases he'
        exact ⟨hreply, by simpa using hunread⟩
      · rintro ⟨hreply, hnil⟩
        exact ⟨own, later, rfl, hreply, by rw [hnil, List.nil_append]⟩

/-- A reader that wants more has not come to the end of the first answer; and
if it has not begun to read, what is left of it is no blank line. -/
theorem left_of_more (he : EndsLine stale) (h : ({} : ReplyReader).read taken = .more r)
    (hall : taken ++ unread = stale ++ wire answers) :
    ∃ rest, unread = rest ++ wire (answers.drop 1) ∧ EndsLine rest ∧
      (answers ≠ [] → rest ≠ [] ∧ (r = {} → ¬ Blank rest)) := by
  cases answers with
  | nil =>
    have hstale : taken ++ unread = stale := by simpa [wire] using hall
    exact ⟨unread, by simp [wire], (hstale ▸ he).of_append, fun hne => absurd rfl hne⟩
  | cons own later =>
    obtain ⟨result, us, hread, -⟩ := Answer.read_stale he own []
    have hpast : ∀ more, taken ≠ stale ++ own.bytes ++ more := by
      intro more heq
      rw [heq, ReplyReader.read_done (by simpa using hread)] at h
      cases h
    rw [Answer.wire_cons, ← List.append_assoc] at hall
    rcases List.append_eq_append_iff.1 hall with ⟨rest, hrest, hunread⟩ | ⟨more, hmore, -⟩
    · have hends : EndsLine (stale ++ own.bytes) := own.endsLine.append own.bytes_ne_nil
      refine ⟨rest, hunread, (hrest ▸ hends).of_append, fun _ => ⟨?_, fun hfresh hb => ?_⟩⟩
      · rintro rfl
        exact hpast [] (by simpa using hrest.symm)
      · subst hfresh
        have hmore := (ReplyReader.read_more h rest).trans hb
        rw [← hrest] at hmore
        cases hmore.symm.trans (by simpa using hread)
    · exact absurd hmore (hpast more)

end SmtpClient
