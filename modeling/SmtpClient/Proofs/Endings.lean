/-
Where lines end, and what is left of them. The limit counts the bytes of the
ending, so a line with a bare line feed may be one byte longer than one with a
carriage return before it; and a limit that falls inside a character is found as
a fault of the encoding first (`Transport.lines_limited`). All carriage returns
before the line feed go with it, so a text that ends with one loses it
(`Transport.lines_bared`).
-/
import SmtpClient.Proofs.Grammar
import Mathlib.Data.List.DropRight
import Mathlib.Data.List.Forall2

namespace SmtpClient

open Text (splitAtByte FallsInside)
open Text.Utf8 (encode encode_append lineFeed_notMem_encode)

/-! ## Texts without their endings -/

/-- A text without the carriage returns at its end. -/
def bared (s : String) : String :=
  String.ofList (s.toList.rdropWhile (· == '\r'))

theorem toList_bared (s : String) : (bared s).toList = s.toList.rdropWhile (· == '\r') :=
  String.toList_ofList

theorem bared_eq_iff {s : String} : bared s = s ↔ s.toList.getLast? ≠ some '\r' := by
  rw [← String.toList_inj, toList_bared, List.rdropWhile_eq_self_iff]
  by_cases hnil : s.toList = []
  · simp [hnil]
  · simp [List.getLast?_eq_some_getLast hnil, hnil]

theorem bared_return (s : String) : bared (s ++ "\r") = bared s := by
  have hreturn : (s ++ "\r").toList = s.toList ++ ['\r'] := String.toList_append
  rw [bared, hreturn, List.rdropWhile_concat_pos _ _ _ (by rfl), bared]

/-- A text that carriage returns were written behind. -/
theorem bared_of_returns {s bare : String} {returns : Nat} (hbare : bare.toList.getLast? ≠ some '\r')
    (h : s.toList = bare.toList ++ List.replicate returns '\r') : bared s = bare := by
  induction returns generalizing s with
  | zero =>
    rw [List.replicate_zero, List.append_nil, String.toList_inj] at h
    rw [h, bared_eq_iff.2 hbare]
  | succ returns ih =>
    have hs : s = String.ofList (bare.toList ++ List.replicate returns '\r') ++ "\r" := by
      rw [← String.toList_inj, h, List.replicate_succ', String.toList_append, String.toList_ofList, List.append_assoc]
      rfl
    rw [hs, bared_return]
    exact ih String.toList_ofList

theorem exists_bared (s : String) : (bared s).toList.getLast? ≠ some '\r' ∧
    ∃ returns, s.toList = (bared s).toList ++ List.replicate returns '\r' := by
  obtain ⟨bare, returns, hs, hbare⟩ := exists_returns s.toList
  rw [← String.toList_ofList (l := bare)] at hs hbare
  rw [bared_of_returns hbare hs]
  exact ⟨hbare, returns, hs⟩

theorem encode_bared_le (s : String) : (encode (bared s)).length ≤ (encode s).length := by
  obtain ⟨-, returns, hs⟩ := exists_bared s
  rw [Text.Utf8.encode_length, Text.Utf8.encode_length, hs, Text.Utf8.size_append]
  exact Nat.le_add_right _ _

/-- What a text says in front of a line feed. -/
theorem carries_bared {s : String} (h : '\n' ∉ s.toList) (hs : (encode s).length < lineLimit) :
    Carries (encode s ++ [lineFeed]) (bared s) := by
  obtain ⟨hbare, returns, hreturns⟩ := exists_bared s
  have hwhole : String.ofList (s.toList ++ ['\n']) = s ++ "\n" := by
    rw [← String.toList_inj, String.toList_ofList, String.toList_append]
    rfl
  have hfeed : '\n' ∉ (bared s).toList := fun hmem => h (hreturns ▸ List.mem_append_left _ hmem)
  refine ⟨⟨returns, ?_⟩, ⟨hfeed, hbare⟩, ?_⟩
  · rw [← encode_ending, ← List.append_assoc, ← hreturns, hwhole, encode_append]
    rfl
  · rw [List.length_append]
    exact hs

/-! ## One line -/

namespace Transport

variable {raw xs : List UInt8}

theorem consume_line_inside {r : LineReader} (hinside : lineFeed ∉ xs)
    (hfits : r.taken.size + xs.length < lineLimit) (out : Outbound) :
    line.consume r out xs = (.hungry { taken := r.taken ++ xs.toArray }, out) := by
  induction xs generalizing r with
  | nil => simp [Conversation.consume]
  | cons byte xs ih =>
    rw [List.length_cons] at hfits
    have hbyte : byte ≠ lineFeed := fun he => hinside (he ▸ List.mem_cons_self)
    have hfeed : r.feed byte = .more { taken := r.taken.push byte } := LineReader.feed_inside hbyte (by omega)
    have hlater : lineFeed ∉ xs := fun hmem => hinside (List.mem_cons_of_mem _ hmem)
    simp only [Conversation.consume, line, hfeed]
    refine (ih hlater ?_).trans (by simp)
    rw [Array.size_push]
    omega

/-- A line that has ended is what all of its bytes make, and what follows it is left. -/
theorem exhaust_line (h : RawLine raw) (behind : List UInt8) (out : Outbound) :
    line.exhaust {} out (raw ++ behind) = (({ taken := raw.toArray } : LineReader).finish, behind, out) := by
  obtain ⟨begun, byte, rfl, hinside, hfits⟩ := h.exists_concat
  have hbegun : line.consume {} out begun = (.hungry { taken := begun.toArray }, out) := by
    have hconsume := consume_line_inside (r := {}) hinside (by simpa using hfits) out
    rwa [Array.empty_append] at hconsume
  rw [List.append_assoc, Conversation.exhaust_hungry hbegun]
  simp only [Conversation.exhaust, List.singleton_append, Conversation.consume, line, LineReader.feed_last h]

/-- Of bytes without a line feed, as many as the limit allows. -/
theorem rawLine_take (hinside : lineFeed ∉ xs) (hs : lineLimit ≤ xs.length) : RawLine (xs.take lineLimit) where
  inside hmem := hinside (List.mem_of_mem_take (List.dropLast_subset _ hmem))
  ends := .inr (List.length_take_of_le hs)
  fits := (List.length_take_of_le hs).le

/-- They are too long, but what is no text is that fault first. -/
theorem finish_take (hinside : lineFeed ∉ xs) (hs : lineLimit ≤ xs.length) :
    ({ taken := (xs.take lineLimit).toArray } : LineReader).finish =
      match Text.Utf8.decode (xs.take lineLimit) with
      | .error fault => .error (.stream (.encoding fault))
      | .ok _ => .error (.protocol .lineTooLong) := by
  have hlength : (xs.take lineLimit).length = lineLimit := List.length_take_of_le hs
  have hlast : (xs.take lineLimit).getLast? ≠ some lineFeed :=
    fun he => hinside (List.mem_of_mem_take (List.mem_of_getLast? he))
  cases hd : Text.Utf8.decode (xs.take lineLimit) with
  | error fault => simp [LineReader.finish, hd]
  | ok text => simp [LineReader.finish, hd, hlast, hlength]

end Transport

/-! ## Lines with their endings -/

/-- The endings that a line may have. -/
inductive LineEnd where
  | feed
  | returnFeed
  deriving DecidableEq

namespace LineEnd

/-- What stands in front of the line feed. -/
def lead : LineEnd → String
  | feed => ""
  | returnFeed => "\r"

/-- The most bytes of a line with this ending. The limit is that of both, so the
shorter ending leaves room for one more. -/
def room : LineEnd → Nat
  | feed => Reply.maxLineBytes + 1
  | returnFeed => Reply.maxLineBytes

end LineEnd

/-- A line as it is sent. -/
structure EndedLine where
  text : String
  ending : LineEnd
  inside : '\n' ∉ text.toList

namespace EndedLine

/-- The line with its ending. -/
def whole (l : EndedLine) : String :=
  l.text ++ l.ending.lead ++ "\n"

def bytes (l : EndedLine) : List UInt8 :=
  encode l.whole

/-- The line is not too long for its ending. -/
def Fits (l : EndedLine) : Prop :=
  (encode l.text).length ≤ l.ending.room

variable {l : EndedLine} {result : Except Error String}

theorem bytes_eq (l : EndedLine) : l.bytes = encode (l.text ++ l.ending.lead) ++ [lineFeed] :=
  encode_append _ "\n"

theorem lead_inside (l : EndedLine) : '\n' ∉ (l.text ++ l.ending.lead).toList := by
  rw [String.toList_append]
  refine List.not_mem_append l.inside ?_
  cases l.ending <;> decide

theorem fits_iff : l.Fits ↔ (encode (l.text ++ l.ending.lead)).length < lineLimit := by
  rw [Fits, encode_append, List.length_append, lineLimit]
  cases l.ending with
  | feed =>
    have hlead : (encode LineEnd.feed.lead).length = 0 := rfl
    rw [hlead, LineEnd.room]
    omega
  | returnFeed =>
    have hlead : (encode LineEnd.returnFeed.lead).length = 1 := rfl
    rw [hlead, LineEnd.room]
    omega

theorem bared_lead (l : EndedLine) : bared (l.text ++ l.ending.lead) = bared l.text := by
  cases l.ending with
  | feed => rw [LineEnd.lead, String.append_empty]
  | returnFeed => exact bared_return l.text

theorem carries (h : l.Fits) : Carries l.bytes (bared l.text) := by
  rw [l.bytes_eq, ← l.bared_lead]
  exact carries_bared l.lead_inside (fits_iff.1 h)

/-! ### What is read -/

theorem exhaust_fits (h : l.Fits) (behind : List UInt8) (out : Outbound) :
    Transport.line.exhaust {} out (l.bytes ++ behind) = (.ok (bared l.text), behind, out) := by
  rw [Transport.exhaust_line (carries h).rawLine, (carries h).finish]

/-- Of a line that does not fit the limit is taken, and it is nothing. -/
theorem exhaust_over (h : ¬ l.Fits) (behind : List UInt8) (out : Outbound) :
    Transport.line.exhaust {} out (l.bytes ++ behind) =
      (match Text.Utf8.decode (l.bytes.take lineLimit) with
        | .error fault => .error (.stream (.encoding fault))
        | .ok _ => .error (.protocol .lineTooLong),
      (l.bytes ++ behind).drop lineLimit, out) := by
  have hover : lineLimit ≤ (encode (l.text ++ l.ending.lead)).length := Nat.le_of_not_lt (mt fits_iff.2 h)
  have hinside : lineFeed ∉ encode (l.text ++ l.ending.lead) := lineFeed_notMem_encode l.lead_inside
  have htake : (l.bytes ++ behind).take lineLimit = (encode (l.text ++ l.ending.lead)).take lineLimit := by
    rw [l.bytes_eq, List.append_assoc, List.take_append_of_le_length hover]
  have htake' : l.bytes.take lineLimit = (encode (l.text ++ l.ending.lead)).take lineLimit := by
    rw [l.bytes_eq, List.take_append_of_le_length hover]
  calc Transport.line.exhaust {} out (l.bytes ++ behind)
      = Transport.line.exhaust {} out ((encode (l.text ++ l.ending.lead)).take lineLimit ++
          (l.bytes ++ behind).drop lineLimit) := by rw [← htake, List.take_append_drop]
    _ = _ := by rw [Transport.exhaust_line (Transport.rawLine_take hinside hover),
          Transport.finish_take hinside hover, htake']

/-- What a line is read as. -/
inductive ReadAs (l : EndedLine) : Except Error String → Prop where
  | text : l.Fits → ReadAs l (.ok (bared l.text))
  /-- The limit stands behind a character. -/
  | tooLong {before after : List Char} : ¬ l.Fits → splitAtByte lineLimit l.whole.toList = some (before, after) →
    ReadAs l (.error (.protocol .lineTooLong))
  /-- The limit falls inside a character. -/
  | split {start : Nat} : ¬ l.Fits → FallsInside lineLimit start l.whole.toList →
    ReadAs l (.error (.stream (.encoding (.incomplete start))))

theorem exists_readAs (l : EndedLine) : ∃ result, l.ReadAs result := by
  by_cases hfits : l.Fits
  · exact ⟨_, .text hfits⟩
  · have hlong : lineLimit ≤ Text.Utf8.size l.whole.toList := by
      have hover := Nat.le_of_not_lt (mt fits_iff.2 hfits)
      rw [← Text.Utf8.encode_length, ← bytes, l.bytes_eq, List.length_append]
      omega
    rcases Text.split_or_inside hlong with ⟨before, after, hsplit⟩ | ⟨start, hinside⟩
    · exact ⟨_, .tooLong hfits hsplit⟩
    · exact ⟨_, .split hfits hinside⟩

theorem ReadAs.exhaust (h : l.ReadAs result) (behind : List UInt8) (out : Outbound) :
    (Transport.line.exhaust {} out (l.bytes ++ behind)).1 = result := by
  cases h with
  | text hfits => rw [exhaust_fits hfits]
  | tooLong hfits hsplit => rw [exhaust_over hfits, bytes, Text.Utf8.decode_take hsplit]
  | split hfits hinside => rw [exhaust_over hfits, bytes, Text.Utf8.decode_take_inside hinside]

/-- A line is read as one thing. -/
theorem exhaust_iff (behind : List UInt8) (out : Outbound) :
    (Transport.line.exhaust {} out (l.bytes ++ behind)).1 = result ↔ l.ReadAs result := by
  obtain ⟨result', h⟩ := l.exists_readAs
  refine ⟨fun he => ?_, fun h => h.exhaust behind out⟩
  rw [h.exhaust behind out] at he
  rwa [← he]

/-- Lines that fit are read one after the other. -/
theorem givenAll {ls : List EndedLine} (h : ∀ l ∈ ls, l.Fits) (behind : List UInt8) (out : Outbound) :
    Call.givenAll (ls.flatMap bytes ++ behind) out (List.replicate ls.length .readLine) =
      (ls.map fun l => .line (.ok (bared l.text)), behind, out) := by
  induction ls with
  | nil => rfl
  | cons l ls ih =>
    obtain ⟨hl, hls⟩ := List.forall_mem_cons.1 h
    have hgiven : Call.readLine.given (l.bytes ++ (ls.flatMap bytes ++ behind)) out =
        (.line (.ok (bared l.text)), ls.flatMap bytes ++ behind, out) := by
      rw [Call.given, exhaust_fits hl]
    rw [List.flatMap_cons, List.append_assoc, List.length_cons, List.replicate_succ, Call.givenAll, hgiven]
    simp only [ih hls, List.map_cons]

end EndedLine

namespace Transport

variable {t : Transport} {behind : List UInt8} {out : Outbound}

/-- The next line after some that fit. -/
theorem Holds.next {earlier : List EndedLine} {later : List UInt8} (hearlier : ∀ l ∈ earlier, l.Fits)
    (h : t.Holds (earlier.flatMap EndedLine.bytes ++ later) out) (now : Nat) :
    (t.calls now (List.replicate earlier.length .readLine)).1 =
        earlier.map (fun l => some (.line (.ok (bared l.text)))) ∧
      (t.calls now (List.replicate earlier.length .readLine)).2.Holds later out := by
  obtain ⟨hreturned, hheld⟩ := h.calls now (List.replicate earlier.length .readLine)
  rw [EndedLine.givenAll hearlier] at hreturned hheld
  exact ⟨hreturned.trans List.map_map, hheld⟩

/-- **The limit of a line** is one of its bytes with the ending. After any lines
that fit, and in whatever chunks, the next one is the result just where it fits as
well: it has at most as many bytes as the limit says, or one more if its ending is a
bare line feed. One that does not fit is said to be too long just where the limit
stands behind a character; where it falls inside one, that is the fault. Then so
many bytes are gone, and reading goes on in the middle of the line. -/
theorem lines_limited {earlier : List EndedLine} (l : EndedLine) (hearlier : ∀ l ∈ earlier, l.Fits)
    (h : t.Holds (earlier.flatMap EndedLine.bytes ++ (l.bytes ++ behind)) out) (now : Nat) :
    let run := t.calls now (List.replicate earlier.length .readLine)
    let read := run.2.readLine now
    run.1 = earlier.map (fun l => some (.line (.ok (bared l.text)))) ∧
    ((∃ line, read.1 = .ready (.ok line)) ↔ l.Fits) ∧
    (∀ line, read.1 = .ready (.ok line) →
      line = bared l.text ∧ (encode line).length ≤ l.ending.room ∧ read.2.Holds behind out) ∧
    (read.1 = .ready (.error (.protocol .lineTooLong)) ↔
      ¬ l.Fits ∧ ∃ before after, splitAtByte lineLimit l.whole.toList = some (before, after)) ∧
    (∀ start, read.1 = .ready (.error (.stream (.encoding (.incomplete start)))) ↔
      ¬ l.Fits ∧ FallsInside lineLimit start l.whole.toList) ∧
    (¬ l.Fits → read.2.Holds ((l.bytes ++ behind).drop lineLimit) out ∧
      (read.1 = .ready (.error (.protocol .lineTooLong)) ∨
        ∃ start, read.1 = .ready (.error (.stream (.encoding (.incomplete start)))))) := by
  intro run read
  obtain ⟨hrun, hheld⟩ := h.next hearlier now
  obtain ⟨hread, hleft⟩ := hheld.poll line now {}
  have hiff : ∀ result, read.1 = .ready result ↔ l.ReadAs result := by
    intro result
    rw [← EndedLine.exhaust_iff behind out, ← Poll.ready.injEq]
    exact Eq.congr_left hread
  simp only [hiff]
  refine ⟨hrun, ⟨?_, fun hfits => ⟨_, .text hfits⟩⟩, ?_, ⟨?_, ?_⟩, fun start => ⟨?_, ?_⟩, fun hover => ⟨?_, ?_⟩⟩
  · intro ⟨line, hline⟩
    cases hline with
    | text hfits => exact hfits
  · intro line hline
    cases hline with
    | text hfits =>
    rw [EndedLine.exhaust_fits hfits] at hleft
    exact ⟨rfl, (encode_bared_le _).trans hfits, hleft⟩
  · intro hlong
    cases hlong with
    | tooLong hover hsplit => exact ⟨hover, _, _, hsplit⟩
  · intro ⟨hover, before, after, hsplit⟩
    exact .tooLong hover hsplit
  · intro hfault
    cases hfault with
    | split hover hinside => exact ⟨hover, hinside⟩
  · intro ⟨hover, hinside⟩
    exact .split hover hinside
  · rwa [EndedLine.exhaust_over hover] at hleft
  · obtain ⟨result, hresult⟩ := l.exists_readAs
    cases hresult with
    | text hfits => exact absurd hfits hover
    | tooLong _ hsplit => exact .inl (.tooLong hover hsplit)
    | split _ hinside => exact .inr ⟨_, .split hover hinside⟩

/-! Two lines of one byte more than the limit says, the second with a character
behind them. -/

def widest : EndedLine where
  text := String.ofList (List.replicate (Reply.maxLineBytes + 1) 'x')
  ending := .feed
  inside := by simp [List.mem_replicate]

def halved : EndedLine where
  text := String.ofList (List.replicate (Reply.maxLineBytes + 1) 'x' ++ ['\u00e9'])
  ending := .returnFeed
  inside := by simp [List.mem_replicate]

/-- The first one is read, and the second one is said to be no text. -/
theorem lines_limited_exceeded :
    let t := new { arrivals := Arrival.script [widest.bytes ++ halved.bytes] }
    let run := t.calls 0 [.readLine]
    Reply.maxLineBytes < (encode widest.text).length ∧ run.1 = [some (.line (.ok widest.text))] ∧
      (run.2.readLine 0).1 = .ready (.error (.stream (.encoding (.incomplete (Reply.maxLineBytes + 1))))) := by
  intro t run
  have hsize : (encode widest.text).length = Reply.maxLineBytes + 1 := by
    rw [Text.Utf8.encode_length, widest, String.toList_ofList, Text.Utf8.size_replicate]
    rfl
  have hwidest : ∀ l ∈ [widest], l.Fits := by
    intro l hl
    rw [List.mem_singleton.1 hl]
    exact hsize.le
  have hhalved : ¬ halved.Fits := by
    have hlonger : (encode halved.text).length = Reply.maxLineBytes + 1 + 2 := by
      rw [Text.Utf8.encode_length, halved, String.toList_ofList, Text.Utf8.size_append, Text.Utf8.size_replicate]
      rfl
    rw [EndedLine.Fits, hlonger]
    exact Nat.not_le_of_lt (by decide)
  have hinside : FallsInside lineLimit (Reply.maxLineBytes + 1) halved.whole.toList := by
    refine ⟨List.replicate (Reply.maxLineBytes + 1) 'x', '\u00e9', ['\r', '\n'], ?_, ?_, by decide, by decide⟩
    · simp [EndedLine.whole, halved, LineEnd.lead]
    · rw [Text.Utf8.size_replicate]
      rfl
  have hbare : bared widest.text = widest.text := by
    rw [bared_eq_iff, widest, String.toList_ofList]
    simp [List.getLast?_replicate]
  have hh : t.Holds ([widest].flatMap EndedLine.bytes ++ (halved.bytes ++ [])) {} := by
    have hscript := holds_script [widest.bytes ++ halved.bytes] {}
    simpa using hscript
  obtain ⟨hrun, -, -, -, hsplit, -⟩ := lines_limited halved hwidest hh 0
  refine ⟨hsize.ge, hrun.trans ?_, (hsplit _).2 ⟨hhalved, hinside⟩⟩
  rw [List.map_singleton, hbare]

end Transport

/-! ## Replies without their endings -/

namespace Reply

variable {code : ReplyCode} {separator : Char} {lines texts : List String}

/-- What stands before the text of a line stays. -/
theorem bared_lineOf (hs : separator ≠ '\r') (text : String) :
    bared (lineOf code separator text) = lineOf code separator (bared text) := by
  obtain ⟨hbare, returns, htext⟩ := exists_bared text
  have hlast : (lineOf code separator (bared text)).toList.getLast? ≠ some '\r' := by
    rw [toList_lineOf]
    by_cases hnil : (bared text).toList = []
    · simpa [hnil] using hs
    · rw [List.append_cons, List.getLast?_append_of_ne_nil _ hnil]
      exact hbare
  have hwhole : (lineOf code separator text).toList =
      (lineOf code separator (bared text)).toList ++ List.replicate returns '\r' := by
    rw [toList_lineOf, htext, toList_lineOf, List.append_assoc, List.cons_append]
  exact bared_of_returns hlast hwhole

theorem Follows.bared (hc : code.value ≤ 999) (h : Follows code lines texts) :
    Follows code (lines.map bared) (texts.map bared) := by
  induction h with
  | last text =>
    rw [List.map_singleton, bared_lineOf (by decide)]
    exact .last _
  | bare =>
    have hdigits : SmtpClient.bared (String.ofList code.digits) = String.ofList code.digits :=
      bared_eq_iff.2 fun hlast => (digits_oneLine hc).1 (List.mem_of_getLast? hlast)
    rw [List.map_singleton, hdigits]
    exact .bare
  | more text _ ih =>
    rw [List.map_cons, bared_lineOf (by decide)]
    exact .more _ ih
  | empty _ ih => exact .empty ih

end Reply

open Reply

/-- Lines that a reply is written in are read as the reply without the carriage
returns at the end of its texts. -/
theorem EndedLine.read_reply {lines : List EndedLine} {reply : Reply} (hfits : ∀ l ∈ lines, l.Fits)
    (h : Follows reply.code (lines.map EndedLine.text) reply.message) (hc : reply.code.value ≤ 999)
    (hsize : reply.message.length ≤ maxLines) :
    ({} : ReplyReader).read (lines.flatMap EndedLine.bytes) =
      .done (.ok ⟨reply.code, reply.message.map bared⟩, []) := by
  have hcarries : List.Forall₂ Carries (lines.map EndedLine.bytes) (lines.map fun l => bared l.text) := by
    rw [List.forall₂_map_left_iff, List.forall₂_map_right_iff, List.forall₂_same]
    exact fun l hl => carries (hfits l hl)
  have hbared : Follows reply.code (lines.map fun l => bared l.text) (reply.message.map bared) := by
    have hmap := h.bared hc
    rwa [List.map_map] at hmap
  have hfrom : ReadFrom ⟨reply.code, reply.message.map bared⟩ (lines.map fun l => bared l.text) :=
    .of_follows hbared hc (by simpa using hsize)
  rw [List.flatMap_def]
  exact ReplyReader.read_ok_iff.2 ⟨_, _, rfl, hcarries, hfrom⟩

namespace Transport

variable {t : Transport} {lines : List EndedLine} {behind : List UInt8} {out : Outbound}

/-- **What is left of a line.** All carriage returns at its end go with the line
feed, and nothing else. So lines that fit are returned one by one without them, just as
they were sent where none ends with one, and what follows is left to read; and a
reply that the lines are has all of its texts without them. -/
theorem lines_bared (hfits : ∀ l ∈ lines, l.Fits) (h : t.Holds (lines.flatMap EndedLine.bytes ++ behind) out)
    (now : Nat) :
    let run := t.calls now (List.replicate lines.length .readLine)
    let read := t.readReply now
    (run.1 = lines.map (fun l => some (.line (.ok (bared l.text)))) ∧ run.2.Holds behind out ∧
      (run.1 = lines.map (fun l => some (.line (.ok l.text))) ↔ ∀ l ∈ lines, l.text.toList.getLast? ≠ some '\r')) ∧
    ∀ reply : Reply, Follows reply.code (lines.map EndedLine.text) reply.message → reply.code.value ≤ 999 →
      reply.message.length ≤ maxLines →
      read.1 = .ready (.ok ⟨reply.code, reply.message.map bared⟩) ∧ read.2.Holds behind out ∧
      (read.1 = .ready (.ok reply) ↔ ∀ text ∈ reply.message, text.toList.getLast? ≠ some '\r') := by
  intro run read
  refine ⟨?_, fun reply hfollows hc hsize => ?_⟩
  · obtain ⟨hrun, hleft⟩ := h.next hfits now
    refine ⟨hrun, hleft, ?_⟩
    simp only [run, hrun, List.map_inj_left, Option.some_inj, Returned.line.injEq, Except.ok.injEq, bared_eq_iff]
  · obtain ⟨hread, hleft⟩ := h.poll Transport.reply now {}
    have hdone := EndedLine.read_reply hfits hfollows hc hsize
    rw [Conversation.exhaust, consume_reply, ReplyReader.read_done hdone] at hread hleft
    have hresult : read.1 = .ready (.ok ⟨reply.code, reply.message.map bared⟩) := hread
    refine ⟨hresult, hleft, ?_⟩
    obtain ⟨code, message⟩ := reply
    have hsame : message.map bared = message ↔ ∀ text ∈ message, text.toList.getLast? ≠ some '\r' := by
      have hsame := List.map_inj_left (l := message) (f := bared) (g := id)
      simpa only [List.map_id, id_eq, bared_eq_iff] using hsame
    simp only [hresult, Poll.ready.injEq, Except.ok.injEq, Reply.mk.injEq, true_and, hsame]

/-- A reply of two lines that both end with a carriage return of their own. -/
def trailing : List EndedLine :=
  [⟨"250-a\r", .returnFeed, by decide⟩, ⟨"250 b\r", .returnFeed, by decide⟩]

theorem lines_bared_trailing :
    let t := new { arrivals := Arrival.script [trailing.flatMap EndedLine.bytes] }
    (t.calls 0 [.readLine, .readLine]).1 = [some (.line (.ok "250-a")), some (.line (.ok "250 b"))] ∧
      Follows ⟨250⟩ ["250-a\r", "250 b\r"] ["a\r", "b\r"] ∧
      (t.readReply 0).1 = .ready (.ok ⟨⟨250⟩, ["a", "b"]⟩) := by
  intro t
  have hfits : ∀ l ∈ trailing, l.Fits := by
    simp only [trailing, List.forall_mem_cons, EndedLine.Fits]
    decide
  have hh : t.Holds (trailing.flatMap EndedLine.bytes ++ []) {} := by
    rw [List.append_nil]
    exact holds_script [trailing.flatMap EndedLine.bytes] {}
  have hfollows : Follows ⟨250⟩ ["250-a\r", "250 b\r"] ["a\r", "b\r"] := .more "a\r" (.last "b\r")
  obtain ⟨⟨hrun, -⟩, hread⟩ := lines_bared hfits hh 0
  obtain ⟨hreply, -⟩ := hread ⟨⟨250⟩, ["a\r", "b\r"]⟩ hfollows (by decide) (by decide)
  have htexts : ["a\r", "b\r"].map bared = ["a", "b"] := by decide +kernel
  exact ⟨hrun.trans (by decide +kernel), hfollows, htexts ▸ hreply⟩

end Transport

end SmtpClient
