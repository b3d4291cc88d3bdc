/-
Replies as servers write them. A reply that is spelled line by line is read
back as it was meant, to its last byte (`Spelled.read`), so replies that are
written one after the other are read one after the other, and what follows
them is left (`Transport.reads_written`).
-/
import SmtpClient.Proofs.Chunks
import SmtpClient.Proofs.Encoding
import Mathlib.Data.List.TakeWhile

namespace SmtpClient

open Text.Utf8 (encode)

/-! ## Lines -/

/-- A text without line endings. -/
def OneLine (s : String) : Prop :=
  '\r' ∉ s.toList ∧ '\n' ∉ s.toList

instance decidableOneLine (s : String) : Decidable (OneLine s) :=
  inferInstanceAs (Decidable (_ ∧ _))

/-- A line with its ending. -/
def lineBytes (line : String) : List UInt8 :=
  encode (line ++ "\r\n")

theorem dropLineEnd_append {line tail : List Char} (hline : ∀ c ∈ line.getLast?, c ≠ '\r' ∧ c ≠ '\n')
    (htail : ∀ c ∈ tail, c = '\r' ∨ c = '\n') : dropLineEnd (String.ofList (line ++ tail)) = String.ofList line := by
  have hdrop : tail.reverse.dropWhile (fun c => c == '\r' || c == '\n') = [] := by
    rw [List.dropWhile_eq_nil_iff]
    intro c hc
    simpa using htail c (List.mem_reverse.1 hc)
  have hkeep : line.reverse.dropWhile (fun c => c == '\r' || c == '\n') = line.reverse := by
    rw [← List.head?_reverse] at hline
    cases hr : line.reverse with
    | nil => rfl
    | cons c cs =>
      have hc := hline c (by rw [hr]; rfl)
      exact List.dropWhile_cons_of_neg (by simpa using hc)
  rw [dropLineEnd, String.toList_ofList, List.reverse_append, List.dropWhile_append, hdrop, List.isEmpty_nil,
    if_pos rfl, hkeep, List.reverse_reverse]

theorem dropLineEnd_ending {line : String} (h : OneLine line) : dropLineEnd (line ++ "\r\n") = line := by
  have hline : ∀ c ∈ line.toList.getLast?, c ≠ '\r' ∧ c ≠ '\n' := by
    intro c hc
    have hmem := List.mem_of_getLast? hc
    exact ⟨fun he => h.1 (he ▸ hmem), fun he => h.2 (he ▸ hmem)⟩
  have hwhole : line ++ "\r\n" = String.ofList (line.toList ++ ['\r', '\n']) := by
    rw [← String.toList_inj]
    simp
  have htail : ∀ c ∈ ['\r', '\n'], c = '\r' ∨ c = '\n' := fun c hc => by simpa using hc
  rw [hwhole, dropLineEnd_append hline htail, String.ofList_toList]

theorem LineReader.feed_inside {r : LineReader} {byte : UInt8} (hb : byte ≠ lineFeed)
    (hs : r.taken.size + 1 < lineLimit) : r.feed byte = .more { taken := r.taken.push byte } := by
  have hsize : (r.taken.push byte).size ≠ lineLimit := by
    rw [Array.size_push]
    omega
  simp only [feed, hb, hsize, or_self, if_false]

/-- A line feed ends the line, however long it is. -/
theorem LineReader.feed_end {r : LineReader} {text : String} (h : r.taken.toList ++ [lineFeed] = encode text) :
    r.feed lineFeed = .done (.ok (dropLineEnd text)) := by
  simp only [feed, true_or, if_true, finish, Array.toList_push, h, Text.Utf8.decode_encode, Array.back?_push]

namespace ReplyReader

/-- Within a line bytes are only taken. -/
theorem read_inside {r : ReplyReader} {xs : List UInt8} (hx : lineFeed ∉ xs)
    (hs : r.line.taken.size + xs.length < lineLimit) (ys : List UInt8) :
    r.read (xs ++ ys) = ({ r with line := { taken := r.line.taken ++ xs.toArray } } : ReplyReader).read ys := by
  induction xs generalizing r with
  | nil => simp
  | cons byte xs ih =>
    rw [List.length_cons] at hs
    have hb : byte ≠ lineFeed := fun he => hx (he ▸ List.mem_cons_self)
    have hfeed : r.line.feed byte = .more { taken := r.line.taken.push byte } :=
      LineReader.feed_inside hb (by omega)
    simp only [List.cons_append, read, feed, hfeed]
    rw [ih (fun hmem => hx (List.mem_cons_of_mem _ hmem)) (by rw [Array.size_push]; omega)]
    simp

/-- A line is read to its ending. -/
theorem read_line {line : String} (h : OneLine line) (hs : (encode line).length ≤ Reply.maxLineBytes)
    (lines : Array String) (rest : List UInt8) :
    ({ lines } : ReplyReader).read (lineBytes line ++ rest) =
      match ({ lines } : ReplyReader).take line with
      | .more r => r.read rest
      | .done result => .done (result, rest) := by
  have hcut : lineBytes line ++ rest = (encode line ++ [13]) ++ lineFeed :: rest := by
    rw [lineBytes, Text.Utf8.encode_append]
    simp only [List.append_assoc]
    rfl
  have hinside : lineFeed ∉ encode line ++ [13] :=
    List.not_mem_append (Text.Utf8.lineFeed_notMem_encode h.2) (by decide)
  have hend : (#[] ++ (encode line ++ [13]).toArray).toList ++ [lineFeed] = encode (line ++ "\r\n") := by
    rw [Text.Utf8.encode_append]
    simp only [Array.empty_append, List.append_assoc]
    rfl
  rw [hcut, read_inside hinside (by simp [lineLimit]; omega), read]
  simp only [feed, LineReader.feed_end hend, dropLineEnd_ending h]
  rfl

end ReplyReader

/-! ## Codes and texts -/

/-- A code as three digits. -/
def ReplyCode.digits (c : ReplyCode) : List Char :=
  [Nat.digitChar (c.value / 100), Nat.digitChar (c.value / 10 % 10), Nat.digitChar (c.value % 10)]

namespace Reply

theorem digitChar_facts : ∀ n < 10, (Nat.digitChar n).isDigit = true ∧ (Nat.digitChar n).utf8Size = 1 ∧
    (Nat.digitChar n).toNat - '0'.toNat = n ∧ Nat.digitChar n ≠ '\r' ∧ Nat.digitChar n ≠ '\n' := by
  decide

section Digits

variable {code : ReplyCode} (hc : code.value ≤ 999)
include hc

theorem mem_digits {c : Char} (h : c ∈ code.digits) : ∃ n < 10, c = Nat.digitChar n := by
  simp only [ReplyCode.digits, List.mem_cons, List.not_mem_nil, or_false] at h
  rcases h with rfl | rfl | rfl
  · exact ⟨_, by omega, rfl⟩
  · exact ⟨_, by omega, rfl⟩
  · exact ⟨_, by omega, rfl⟩

theorem digits_oneLine : OneLine (String.ofList code.digits) := by
  simp only [OneLine, String.toList_ofList]
  constructor
  · intro h
    obtain ⟨n, hn, he⟩ := mem_digits hc h
    exact (digitChar_facts n hn).2.2.2.1 he.symm
  · intro h
    obtain ⟨n, hn, he⟩ := mem_digits hc h
    exact (digitChar_facts n hn).2.2.2.2 he.symm

theorem digits_size : Text.Utf8.size code.digits = 3 := by
  have hone : ∀ n < 10, (Nat.digitChar n).utf8Size = 1 := fun n hn => (digitChar_facts n hn).2.1
  simp only [ReplyCode.digits, Text.Utf8.size_cons]
  rw [hone _ (by omega), hone _ (by omega), hone _ (by omega)]
  rfl

theorem splitAtByte_digits (after : List Char) :
    Text.splitAtByte 3 (code.digits ++ after) = some (code.digits, after) := by
  rw [← digits_size hc]
  exact Text.splitAtByte_append code.digits after

theorem digits_code : code.digits.all Char.isDigit = true ∧ ofDigits code.digits = code.value := by
  constructor
  · rw [List.all_eq_true]
    intro c h
    obtain ⟨n, hn, rfl⟩ := mem_digits hc h
    exact (digitChar_facts n hn).1
  · have hvalue : ∀ n < 10, (Nat.digitChar n).toNat - '0'.toNat = n := fun n hn => (digitChar_facts n hn).2.2.1
    simp only [ofDigits, ReplyCode.digits, List.foldl_cons, List.foldl_nil]
    rw [hvalue _ (by omega), hvalue _ (by omega), hvalue _ (by omega)]
    omega

/-- The code of a line that begins with it. -/
theorem codeOf?_digits (after : List Char) : codeOf? (String.ofList (code.digits ++ after)) = some code := by
  obtain ⟨hdigits, hvalue⟩ := digits_code hc
  rw [codeOf?, String.toList_ofList, splitAtByte_digits hc]
  simp only [hdigits, if_true, hvalue]

/-- The text of a line behind its code and one character more. -/
theorem textOf?_digits {separator : Char} (hs : separator.utf8Size = 1) (after : List Char) :
    textOf? (String.ofList (code.digits ++ separator :: after)) = some (String.ofList after) := by
  have hsize : Text.Utf8.size (code.digits ++ [separator]) = textOffset := by
    rw [Text.Utf8.size_append, digits_size hc, Text.Utf8.size_cons, hs]
    rfl
  have hsplit := Text.splitAtByte_append (code.digits ++ [separator]) after
  rw [hsize, List.append_assoc, List.singleton_append] at hsplit
  rw [textOf?, String.toList_ofList, hsplit]

theorem textOf?_bare : textOf? (String.ofList code.digits) = some "" := by
  have hnone : Text.splitAtByte textOffset code.digits = none :=
    Text.splitAtByte_eq_none (digits_size hc ▸ by decide)
  have hsplit := splitAtByte_digits hc []
  rw [List.append_nil] at hsplit
  rw [textOf?, String.toList_ofList, hnone, hsplit]

theorem isLastLine_digits (after : List Char) :
    isLastLine (String.ofList (code.digits ++ after)) = after.head?.all (· == ' ') := by
  rw [isLastLine, String.toList_ofList, splitAtByte_digits hc]
  cases after <;> rfl

end Digits

/-- A line with its code, the character behind that, and a text. -/
def lineOf (code : ReplyCode) (separator : Char) (text : String) : String :=
  String.ofList (code.digits ++ separator :: text.toList)

/-- The most bytes of a text that stands in a line with its code. -/
def maxTextBytes : Nat := maxLineBytes - textOffset

variable {code : ReplyCode} {separator : Char} {text line : String} {lines texts : List String}

/-- A line that can be read in a reply with this code, and its text. -/
structure Spells (code : ReplyCode) (line text : String) : Prop where
  oneLine : OneLine line
  fits : (encode line).length ≤ maxLineBytes
  nonempty : line ≠ ""
  code : codeOf? line = some code
  text : textOf? line = some text

theorem spells_lineOf (hc : code.value ≤ 999) (hs : separator = ' ' ∨ separator = '-') (h : OneLine text)
    (hfits : (encode text).length ≤ maxTextBytes) : Spells code (lineOf code separator text) text := by
  have hsize : separator.utf8Size = 1 := by rcases hs with rfl | rfl <;> rfl
  refine ⟨?_, ?_, by simp [lineOf, ReplyCode.digits], codeOf?_digits hc _, ?_⟩
  · obtain ⟨hcr, hlf⟩ := digits_oneLine hc
    rw [String.toList_ofList] at hcr hlf
    simp only [OneLine, lineOf, String.toList_ofList, List.mem_append, List.mem_cons, not_or]
    rcases hs with rfl | rfl <;> exact ⟨⟨hcr, by decide, h.1⟩, hlf, by decide, h.2⟩
  · rw [Text.Utf8.encode_length] at hfits ⊢
    rw [lineOf, String.toList_ofList, Text.Utf8.size_append, digits_size hc, Text.Utf8.size_cons, hsize]
    simp only [maxTextBytes, maxLineBytes, textOffset] at hfits ⊢
    omega
  · rw [lineOf, textOf?_digits hc hsize, String.ofList_toList]

theorem spells_bare (hc : code.value ≤ 999) : Spells code (String.ofList code.digits) "" := by
  refine ⟨digits_oneLine hc, ?_, by simp [ReplyCode.digits], ?_, textOf?_bare hc⟩
  · rw [Text.Utf8.encode_length, String.toList_ofList, digits_size hc]
    decide
  · have hcode := codeOf?_digits hc []
    rwa [List.append_nil] at hcode

/-- Lines of a reply with this code, and their texts. -/
def Gathered (code : ReplyCode) (lines texts : List String) : Prop :=
  textsOf lines = .ok texts ∧ ∀ first ∈ lines.head?, codeOf? first = some code

theorem gathered_nil (code : ReplyCode) : Gathered code [] [] :=
  ⟨rfl, by simp⟩

theorem textsOf_concat (h : textsOf lines = .ok texts) (ht : textOf? line = some text) :
    textsOf (lines ++ [line]) = .ok (texts ++ [text]) := by
  induction lines generalizing texts with
  | nil =>
    cases h
    simp only [List.nil_append, textsOf, ht]
    rfl
  | cons first lines ih =>
    simp only [List.cons_append, textsOf] at h ⊢
    cases hf : textOf? first with
    | none => rw [hf] at h; cases h
    | some own =>
      rw [hf] at h
      cases hl : textsOf lines with
      | error e => rw [hl] at h; cases h
      | ok later =>
        rw [hl] at h
        cases h
        simp only [ih hl]
        rfl

theorem Gathered.concat (h : Gathered code lines texts) (hl : Spells code line text) :
    Gathered code (lines ++ [line]) (texts ++ [text]) := by
  refine ⟨textsOf_concat h.1 hl.text, ?_⟩
  cases lines with
  | nil => simpa using hl.code
  | cons first lines => exact h.2

/-- Lines that are gathered spell the reply. -/
theorem Gathered.ofLines (h : Gathered code lines texts) (hne : lines ≠ []) : ofLines lines = .ok ⟨code, texts⟩ := by
  obtain ⟨first, rest, rfl⟩ := List.exists_cons_of_ne_nil hne
  simp only [Reply.ofLines, h.2 first rfl, h.1]
  rfl

/-- A reply that fits the limits: a code of three digits, and texts that are
no longer than their lines may be. -/
structure Sendable (reply : Reply) : Prop where
  code : reply.code.value ≤ 999
  nonempty : reply.message ≠ []
  lines : reply.message.length ≤ maxLines
  texts : ∀ text ∈ reply.message, OneLine text ∧ (encode text).length ≤ maxTextBytes

instance decidableSendable (reply : Reply) : Decidable reply.Sendable :=
  decidable_of_iff (reply.code.value ≤ 999 ∧ reply.message ≠ [] ∧ reply.message.length ≤ maxLines ∧
      ∀ text ∈ reply.message, OneLine text ∧ (encode text).length ≤ maxTextBytes)
    ⟨fun ⟨hc, hne, hl, ht⟩ => ⟨hc, hne, hl, ht⟩, fun ⟨hc, hne, hl, ht⟩ => ⟨hc, hne, hl, ht⟩⟩

end Reply

open Reply

/-! ## Replies -/

/-- The ways to write texts as a reply with this code, with empty lines in
between. -/
inductive Spelled (code : ReplyCode) : List String → List UInt8 → Prop where
  | last (text : String) : Spelled code [text] (lineBytes (lineOf code ' ' text))
  | bare : Spelled code [""] (lineBytes (String.ofList code.digits))
  | more {texts : List String} {bytes : List UInt8} (text : String) :
    Spelled code texts bytes → Spelled code (text :: texts) (lineBytes (lineOf code '-' text) ++ bytes)
  | empty {texts : List String} {bytes : List UInt8} :
    Spelled code texts bytes → Spelled code texts (lineBytes "" ++ bytes)

/-- Replies written one after the other. -/
inductive Written : List Reply → List UInt8 → Prop where
  | nil : Written [] []
  | cons {reply : Reply} {replies : List Reply} {bytes rest : List UInt8} :
    reply.Sendable → Spelled reply.code reply.message bytes → Written replies rest →
    Written (reply :: replies) (bytes ++ rest)

section Lines

variable {code : ReplyCode} {line text : String} {lines : Array String} {earlier : List String}

/-- The last line completes the reply, and what follows it is left. -/
theorem Reply.Spells.read_last (h : Spells code line text) (hlast : isLastLine line = true)
    (hg : Gathered code lines.toList earlier) (behind : List UInt8) :
    ({ lines } : ReplyReader).read (lineBytes line ++ behind) = .done (.ok ⟨code, earlier ++ [text]⟩, behind) := by
  have hreply := (hg.concat h).ofLines (by simp)
  rw [ReplyReader.read_line h.oneLine h.fits, ReplyReader.take, if_neg h.nonempty]
  simp only [hlast, if_true, Array.toList_push, hreply]

/-- Any other line is kept while more lines may come. -/
theorem Reply.Spells.read_more (h : Spells code line text) (hlast : isLastLine line = false)
    (hsize : lines.size + 1 < maxLines) (rest : List UInt8) :
    ({ lines } : ReplyReader).read (lineBytes line ++ rest) =
      ({ lines := lines.push line } : ReplyReader).read rest := by
  have hfew : ¬ maxLines ≤ (lines.push line).size := by
    rw [Array.size_push]
    omega
  rw [ReplyReader.read_line h.oneLine h.fits, ReplyReader.take, if_neg h.nonempty]
  simp only [hlast, Bool.false_eq_true, if_false, if_neg hfew]

theorem ReplyReader.read_empty (lines : Array String) (rest : List UInt8) :
    ({ lines } : ReplyReader).read (lineBytes "" ++ rest) = ({ lines } : ReplyReader).read rest :=
  read_line (by simp [OneLine]) (by decide) lines rest

end Lines

/-- A reply has at least one line. -/
theorem Spelled.ne_nil {code : ReplyCode} {texts : List String} {bytes : List UInt8} (h : Spelled code texts bytes) :
    texts ≠ [] := by
  induction h with
  | last | bare | more => exact List.cons_ne_nil _ _
  | empty _ ih => exact ih

/-- **Reading undoes writing**, behind any lines that were read before, and
leaves what follows. -/
theorem Spelled.read {code : ReplyCode} {texts earlier : List String} {bytes : List UInt8} {lines : Array String}
    (h : Spelled code texts bytes) (hc : code.value ≤ 999)
    (htexts : ∀ text ∈ texts, OneLine text ∧ (encode text).length ≤ maxTextBytes)
    (hg : Gathered code lines.toList earlier) (hn : lines.size + texts.length ≤ maxLines) (behind : List UInt8) :
    ({ lines } : ReplyReader).read (bytes ++ behind) = .done (.ok ⟨code, earlier ++ texts⟩, behind) := by
  induction h generalizing lines earlier with
  | last text =>
    obtain ⟨hone, hfits⟩ := htexts text List.mem_cons_self
    exact (spells_lineOf hc (.inl rfl) hone hfits).read_last (isLastLine_digits hc _) hg behind
  | bare =>
    have hlast := isLastLine_digits hc []
    rw [List.append_nil] at hlast
    exact (spells_bare hc).read_last hlast hg behind
  | @more texts bytes text hrest ih =>
    obtain ⟨hone, hfits⟩ := htexts text List.mem_cons_self
    have hline : Spells code (lineOf code '-' text) text := spells_lineOf hc (.inr rfl) hone hfits
    -- At least one line follows, so this one does not reach the limit.
    have hlater := List.length_pos_of_ne_nil hrest.ne_nil
    rw [List.length_cons] at hn
    have hnext : Gathered code (lines.push (lineOf code '-' text)).toList (earlier ++ [text]) := by
      rw [Array.toList_push]
      exact hg.concat hline
    rw [List.append_assoc, hline.read_more (isLastLine_digits hc _) (by omega),
      ih (fun t ht => htexts t (List.mem_cons_of_mem _ ht)) hnext (by rw [Array.size_push]; omega), List.append_assoc,
      List.singleton_append]
  | empty _ ih =>
    rw [List.append_assoc, ReplyReader.read_empty]
    exact ih htexts hg hn

/-- A reply that was written is read, and what follows it is left. -/
theorem Reply.Sendable.read {reply : Reply} {bytes : List UInt8} (hs : reply.Sendable)
    (h : Spelled reply.code reply.message bytes) (behind : List UInt8) :
    ({} : ReplyReader).read (bytes ++ behind) = .done (.ok reply, behind) :=
  h.read hs.code hs.texts (gathered_nil _) (by simpa using hs.lines) behind

/-- Replies that were written are what calls for them return. -/
theorem Written.givenAll {replies : List Reply} {bytes : List UInt8} (h : Written replies bytes) (behind : List UInt8)
    (out : Outbound) : Call.givenAll (bytes ++ behind) out (List.replicate replies.length .readReply) =
      (replies.map (.reply ∘ .ok), behind, out) := by
  induction h with
  | nil => rfl
  | @cons reply replies bytes rest hs hspelled _ ih =>
    have hgiven : Call.readReply.given (bytes ++ (rest ++ behind)) out = (.reply (.ok reply), rest ++ behind, out) := by
      simp only [Call.given, Conversation.exhaust, Transport.consume_reply, hs.read hspelled]
    rw [List.length_cons, List.replicate_succ, Call.givenAll, List.append_assoc, hgiven]
    simp only [ih]
    rfl

/-- **Reading undoes writing.** Replies that were written one after the other,
with more bytes behind them and cut in any way, are what so many calls return;
and the bytes behind them are left. -/
theorem Transport.reads_written {replies : List Reply} {bytes behind : List UInt8} {chunks : List (List UInt8)}
    (h : Written replies bytes) (hcut : chunks.flatten = bytes ++ behind) (out : Outbound) (now : Nat) :
    let read := (new { arrivals := Arrival.script chunks, outbound := out }).calls now
      (List.replicate replies.length .readReply)
    read.1 = replies.map (fun reply => some (.reply (.ok reply))) ∧ read.2.unread = behind ∧
      read.2.stream.outbound = out := by
  intro read
  have hh : (new { arrivals := Arrival.script chunks, outbound := out }).Holds (bytes ++ behind) out :=
    hcut ▸ holds_script chunks out
  obtain ⟨hreturned, -, hunread, hout⟩ := hh.calls now (List.replicate replies.length .readReply)
  rw [h.givenAll] at hreturned hunread hout
  exact ⟨hreturned.trans List.map_map, hunread, hout⟩

/-! Two replies with an empty line between them, cut inside a character and
inside the ending of a line. The first one has blanks around its text and a last
line without any; the second one has a code that begins with zeros. -/

def spoken : List Reply :=
  [⟨⟨250⟩, [" h\u00e9 ", ""]⟩, ⟨⟨7⟩, ["x"]⟩]

def spokenBytes : List UInt8 :=
  (lineBytes (lineOf ⟨250⟩ '-' " h\u00e9 ") ++ lineBytes (String.ofList (ReplyCode.digits ⟨250⟩))) ++
    ((lineBytes "" ++ lineBytes (lineOf ⟨7⟩ ' ' "x")) ++ [])

def spokenChunks : List (List UInt8) :=
  ["250- h".toUTF8.toList ++ [0xc3], [0xa9, 32, 13], [], "\n250\r\n\r\n007 x\r\n354 g".toUTF8.toList]

theorem Transport.reads_written_spoken :
    let read := (new { arrivals := Arrival.script spokenChunks }).calls 0 [.readReply, .readReply]
    read.1 = [some (.reply (.ok ⟨⟨250⟩, [" h\u00e9 ", ""]⟩)), some (.reply (.ok ⟨⟨7⟩, ["x"]⟩))] ∧
      read.2.unread = "354 g".toUTF8.toList := by
  have hsendable : ∀ reply ∈ spoken, reply.Sendable := by decide
  have hwritten : Written spoken spokenBytes :=
    .cons (hsendable _ (by decide)) (.more _ .bare) (.cons (hsendable _ (by decide)) (.empty (.last _)) .nil)
  have hcut : spokenChunks.flatten = spokenBytes ++ "354 g".toUTF8.toList := by decide +kernel
  obtain ⟨hread, hunread, -⟩ := reads_written hwritten hcut {} 0
  exact ⟨hread, hunread⟩

end SmtpClient
