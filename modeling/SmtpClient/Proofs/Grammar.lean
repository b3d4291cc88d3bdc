/-
Which lines are taken for a reply. The reader asks for a code in the first line
and for a text in every line, and for nothing else: other lines may begin with
another code, or with none, and any fourth byte but a space makes them go on
(`Transport.polls_accepts`). So replies that follow the grammar are accepted,
and others as well. The class of a single line is decided by its code alone, which
is the class of the reply that the line spells, if it spells one
(`Reply.classify_agrees`).
-/
import SmtpClient.Proofs.Lines

namespace SmtpClient

open Text.Utf8 (size size_append size_cons)

namespace Reply

/-! ## One line -/

/-- A line that the reader takes for one in the middle of a reply: four bytes, of
which the last is no space, and a text. -/
def Continues (line text : String) : Prop :=
  ∃ head : List Char, line.toList = head ++ text.toList ∧ size head = 4 ∧ head.getLast? ≠ some ' '

/-- A line that the reader takes for the last one of a reply: three bytes, and
nothing else or a space and a text. -/
def Closes (line text : String) : Prop :=
  ∃ head : List Char, size head = 3 ∧ (line.toList = head ++ ' ' :: text.toList ∨ line.toList = head ∧ text = "")

variable {code : ReplyCode} {line text : String} {lines texts : List String} {reply : Reply}

theorem isLastLine_iff : isLastLine line = true ↔
    ∃ head : List Char, size head = 3 ∧ (line.toList = head ∨ ∃ rest, line.toList = head ++ ' ' :: rest) := by
  constructor
  · intro h
    unfold isLastLine at h
    split at h
    · next head hcut =>
      obtain ⟨hline, hsize⟩ := Text.splitAtByte_eq_some_iff.1 hcut
      exact ⟨head, hsize, .inl (by simpa using hline)⟩
    · next head c rest hcut =>
      obtain ⟨hline, hsize⟩ := Text.splitAtByte_eq_some_iff.1 hcut
      obtain rfl := eq_of_beq h
      exact ⟨head, hsize, .inr ⟨rest, hline⟩⟩
    · cases h
  · rintro ⟨head, hsize, hline | ⟨rest, hline⟩⟩
    · rw [isLastLine, Text.splitAtByte_whole (hline ▸ hsize)]
    · rw [isLastLine, Text.splitAtByte_eq_some_iff.2 ⟨hline, hsize⟩]
      rfl

theorem textOf?_eq_some_iff : textOf? line = some text ↔
    (∃ head : List Char, line.toList = head ++ text.toList ∧ size head = 4) ∨ size line.toList = 3 ∧ text = "" := by
  constructor
  · intro h
    unfold textOf? at h
    split at h
    · next head rest hcut =>
      obtain rfl := Option.some.inj h
      obtain ⟨hline, hsize⟩ := Text.splitAtByte_eq_some_iff.1 hcut
      exact .inl ⟨head, by rw [String.toList_ofList]; exact hline, hsize⟩
    · next head _ hcut =>
      obtain ⟨hline, hsize⟩ := Text.splitAtByte_eq_some_iff.1 hcut
      rw [List.append_nil] at hline
      exact .inr ⟨hline ▸ hsize, (Option.some.inj h).symm⟩
    · cases h
  · rintro (⟨head, hline, hsize⟩ | ⟨hsize, rfl⟩)
    · rw [textOf?, textOffset, Text.splitAtByte_eq_some_iff.2 ⟨hline, hsize⟩]
      simp
    · have hnone : Text.splitAtByte textOffset line.toList = none :=
        Text.splitAtByte_eq_none (by rw [hsize]; decide)
      rw [textOf?, hnone, Text.splitAtByte_whole hsize]

/-- A space is one byte. -/
theorem size_space (head rest : List Char) : size (head ++ ' ' :: rest) = size head + 1 + size rest := by
  have hspace : ' '.utf8Size = 1 := rfl
  rw [size_append, size_cons, hspace, Nat.add_assoc]

theorem closes_iff : Closes line text ↔ isLastLine line = true ∧ textOf? line = some text := by
  rw [isLastLine_iff, textOf?_eq_some_iff]
  constructor
  · rintro ⟨head, hsize, hline | ⟨hline, rfl⟩⟩
    · refine ⟨⟨head, hsize, .inr ⟨_, hline⟩⟩, .inl ⟨head ++ [' '], by simpa using hline, ?_⟩⟩
      rw [size_space, hsize]
      rfl
    · exact ⟨⟨head, hsize, .inl hline⟩, .inr ⟨hline ▸ hsize, rfl⟩⟩
  · rintro ⟨⟨head, hsize, hline | ⟨rest, hline⟩⟩, ⟨four, hfour, hfours⟩ | ⟨hthree, rfl⟩⟩
    · have hsizes := congrArg size (hline.symm.trans hfour)
      rw [size_append] at hsizes
      omega
    · exact ⟨head, hsize, .inr ⟨hline, rfl⟩⟩
    · have hsame : (head ++ [' ']) ++ rest = four ++ text.toList := by
        rw [← hfour, hline, List.append_assoc, List.singleton_append]
      obtain ⟨-, rfl⟩ := Text.cut_unique hsame (by rw [size_space, hsize, hfours]; rfl)
      exact ⟨head, hsize, .inl hline⟩
    · rw [hline, size_space] at hthree
      omega

theorem continues_iff : Continues line text ↔ isLastLine line = false ∧ textOf? line = some text := by
  rw [← Bool.not_eq_true, isLastLine_iff, textOf?_eq_some_iff]
  constructor
  · rintro ⟨four, hfour, hfours, hend⟩
    refine ⟨?_, .inl ⟨four, hfour, hfours⟩⟩
    rintro ⟨head, hsize, hline | ⟨rest, hline⟩⟩
    · have hsizes := congrArg size (hline.symm.trans hfour)
      rw [size_append] at hsizes
      omega
    · have hsame : (head ++ [' ']) ++ rest = four ++ text.toList := by
        rw [← hfour, hline, List.append_assoc, List.singleton_append]
      obtain ⟨rfl, -⟩ := Text.cut_unique hsame (by rw [size_space, hsize, hfours]; rfl)
      exact hend List.getLast?_concat
  · rintro ⟨hlast, ⟨four, hfour, hfours⟩ | ⟨hthree, -⟩⟩
    · refine ⟨four, hfour, hfours, fun hend => hlast ⟨four.dropLast, ?_, .inr ⟨text.toList, ?_⟩⟩⟩
      · have hsizes := congrArg size (List.dropLast_append_getLast? _ hend)
        rw [size_space] at hsizes
        simp only [size, List.flatMap_nil, List.length_nil] at hsizes hfours ⊢
        omega
      · rw [hfour, List.append_cons, List.dropLast_append_getLast? _ hend]
    · exact absurd ⟨line.toList, hthree, .inl rfl⟩ hlast

theorem eq_digitChar {c : Char} (h : c.isDigit = true) : ∃ n < 10, c = Nat.digitChar n := by
  simp only [Char.isDigit, ge_iff_le, Bool.and_eq_true, decide_eq_true_eq, UInt32.le_iff_toNat_le] at h
  have hbounds : 48 ≤ c.toNat ∧ c.toNat ≤ 57 := h
  refine ⟨c.toNat - 48, by omega, Char.toNat_inj.1 ?_⟩
  rw [Nat.toNat_digitChar_of_lt_ten (by omega)]
  omega

theorem size_digits {cs : List Char} (h : cs.all Char.isDigit = true) : size cs = cs.length := by
  induction cs with
  | nil => rfl
  | cons c cs ih =>
    obtain ⟨hc, hcs⟩ := Bool.and_eq_true_iff.1 h
    obtain ⟨n, hn, rfl⟩ := eq_digitChar hc
    rw [size_cons, ih hcs, (digitChar_facts n hn).2.1, List.length_cons, Nat.add_comm]

/-- Three digits are the digits of their value. -/
theorem digits_ofDigits {digits : List Char} (h : digits.all Char.isDigit = true) (hlen : digits.length = 3) :
    ofDigits digits ≤ 999 ∧ ReplyCode.digits ⟨ofDigits digits⟩ = digits := by
  obtain ⟨a, b, c, rfl⟩ := List.length_eq_three.1 hlen
  simp only [List.all_cons, List.all_nil, Bool.and_eq_true] at h
  obtain ⟨ha, hb, hc, -⟩ := h
  obtain ⟨l, hl, rfl⟩ := eq_digitChar ha
  obtain ⟨m, hm, rfl⟩ := eq_digitChar hb
  obtain ⟨n, hn, rfl⟩ := eq_digitChar hc
  have hvalue : ofDigits [Nat.digitChar l, Nat.digitChar m, Nat.digitChar n] = 100 * l + 10 * m + n := by
    simp only [ofDigits, List.foldl_cons, List.foldl_nil, (digitChar_facts l hl).2.2.1, (digitChar_facts m hm).2.2.1,
      (digitChar_facts n hn).2.2.1]
    omega
  rw [hvalue]
  refine ⟨by omega, ?_⟩
  have hfirst : (100 * l + 10 * m + n) / 100 = l := by omega
  have hsecond : (100 * l + 10 * m + n) / 10 % 10 = m := by omega
  have hthird : (100 * l + 10 * m + n) % 10 = n := by omega
  simp only [ReplyCode.digits, hfirst, hsecond, hthird]

theorem codeOf?_eq_some_iff : codeOf? line = some code ↔
    code.value ≤ 999 ∧ ∃ rest, line.toList = code.digits ++ rest := by
  constructor
  · intro h
    unfold codeOf? at h
    split at h
    · next digits rest hcut =>
      split at h
      · next hdigits =>
        obtain rfl := Option.some.inj h
        obtain ⟨hline, hsize⟩ := Text.splitAtByte_eq_some_iff.1 hcut
        rw [size_digits hdigits] at hsize
        obtain ⟨hvalue, hsame⟩ := digits_ofDigits hdigits hsize
        exact ⟨hvalue, rest, by rw [hsame, hline]⟩
      · cases h
    · cases h
  · rintro ⟨hc, rest, hline⟩
    rw [← String.ofList_toList (s := line), hline]
    exact codeOf?_digits hc rest

/-! ## All lines -/

/-- Lines that the reader takes for a reply, and their texts. -/
inductive Accepts : List String → List String → Prop where
  | last {line text : String} : Closes line text → Accepts [line] [text]
  | more {line text : String} {lines texts : List String} : Continues line text → Accepts lines texts →
    Accepts (line :: lines) (text :: texts)
  | empty {lines texts : List String} : Accepts lines texts → Accepts ("" :: lines) texts

/-- Lines up to the one that ends a reply. -/
inductive Ended : List String → Prop where
  | last {line : String} : isLastLine line = true → Ended [line]
  | more {line : String} {lines : List String} : isLastLine line = false → Ended lines → Ended (line :: lines)

/-- The lines that say something. -/
def said (lines : List String) : List String :=
  lines.filter (· ≠ "")

theorem said_cons (h : line ≠ "") (lines : List String) : said (line :: lines) = line :: said lines :=
  List.filter_cons_of_pos (by simpa using h)

theorem textsOf_cons_ok : textsOf (line :: lines) = .ok texts ↔
    ∃ text later, texts = text :: later ∧ textOf? line = some text ∧ textsOf lines = .ok later := by
  rw [textsOf]
  cases textOf? line with
  | none => simp
  | some text =>
    cases textsOf lines with
    | error e => simp [Except.map]
    | ok later => simp [Except.map, eq_comm]

theorem ne_empty_of_isLastLine (h : isLastLine line = true) : line ≠ "" := by
  rintro rfl
  cases h

theorem ne_empty_of_textOf? (h : textOf? line = some text) : line ≠ "" := by
  rintro rfl
  cases h

/-- A reply is what its lines say. -/
theorem accepts_iff : Accepts lines texts ↔ Ended lines ∧ textsOf (said lines) = .ok texts := by
  constructor
  · intro h
    induction h with
    | last hline =>
      obtain ⟨hlast, htext⟩ := closes_iff.1 hline
      refine ⟨.last hlast, ?_⟩
      rw [said_cons (ne_empty_of_isLastLine hlast)]
      exact textsOf_cons_ok.2 ⟨_, _, rfl, htext, rfl⟩
    | more hline _ ih =>
      obtain ⟨hlast, htext⟩ := continues_iff.1 hline
      refine ⟨.more hlast ih.1, ?_⟩
      rw [said_cons (ne_empty_of_textOf? htext)]
      exact textsOf_cons_ok.2 ⟨_, _, rfl, htext, ih.2⟩
    | empty _ ih => exact ⟨.more rfl ih.1, ih.2⟩
  · rintro ⟨hended, htexts⟩
    induction hended generalizing texts with
    | last hlast =>
      rw [said_cons (ne_empty_of_isLastLine hlast)] at htexts
      obtain ⟨text, later, rfl, htext, hlater⟩ := textsOf_cons_ok.1 htexts
      cases hlater
      exact .last (closes_iff.2 ⟨hlast, htext⟩)
    | @more line lines hlast _ ih =>
      by_cases hempty : line = ""
      · subst hempty
        exact .empty (ih htexts)
      · rw [said_cons hempty] at htexts
        obtain ⟨text, later, rfl, htext, hlater⟩ := textsOf_cons_ok.1 htexts
        exact .more (continues_iff.2 ⟨hlast, htext⟩) (ih hlater)

theorem Ended.said_ne_nil (h : Ended lines) : said lines ≠ [] := by
  induction h with
  | last hlast =>
    rw [said_cons (ne_empty_of_isLastLine hlast)]
    exact List.cons_ne_nil _ _
  | @more line lines _ _ ih =>
    by_cases hempty : line = ""
    · rw [hempty]
      exact ih
    · rw [said_cons hempty]
      exact List.cons_ne_nil _ _

theorem Accepts.length (h : Accepts lines texts) : (said lines).length = texts.length := by
  induction h with
  | last hline =>
    rw [said_cons (ne_empty_of_isLastLine (closes_iff.1 hline).1)]
    rfl
  | more hline _ ih =>
    rw [said_cons (ne_empty_of_textOf? (continues_iff.1 hline).2), List.length_cons, List.length_cons, ih]
  | empty _ ih => exact ih

theorem ofLines_ok : ofLines lines = .ok reply ↔
    (∃ first ∈ lines.head?, codeOf? first = some reply.code) ∧ textsOf lines = .ok reply.message := by
  cases lines with
  | nil => simp [ofLines]
  | cons first lines =>
    simp only [ofLines, List.head?_cons, Option.mem_some_iff, exists_eq_left']
    cases codeOf? first with
    | none => simp
    | some code =>
      cases textsOf (first :: lines) with
      | error e => simp [Except.map]
      | ok texts => cases reply; simp [Except.map]

/-- The reply is read from these lines: the first one has its code, and each one
its text. -/
structure ReadFrom (reply : Reply) (lines : List String) : Prop where
  taken : Accepts lines reply.message
  fits : reply.message.length ≤ maxLines
  code : reply.code.value ≤ 999
  first : ∃ first rest, (said lines).head? = some first ∧ first.toList = reply.code.digits ++ rest

theorem readFrom_iff : ReadFrom reply lines ↔
    Ended lines ∧ (said lines).length ≤ maxLines ∧ ofLines (said lines) = .ok reply := by
  simp only [ofLines_ok, Option.mem_def]
  constructor
  · rintro ⟨hlines, hfits, hcode, first, rest, hfirst, hdigits⟩
    obtain ⟨hended, htexts⟩ := accepts_iff.1 hlines
    exact ⟨hended, hlines.length ▸ hfits, ⟨first, hfirst, codeOf?_eq_some_iff.2 ⟨hcode, rest, hdigits⟩⟩, htexts⟩
  · rintro ⟨hended, hfits, ⟨first, hfirst, hcode⟩, htexts⟩
    have hlines := accepts_iff.2 ⟨hended, htexts⟩
    obtain ⟨hvalue, rest, hdigits⟩ := codeOf?_eq_some_iff.1 hcode
    exact ⟨hlines, hlines.length ▸ hfits, hvalue, first, rest, hfirst, hdigits⟩

/-! ## Single lines -/

/-- Behind its code the line goes on with a character of several bytes: the first
byte of the character stands before the text of the line, and the others in it. -/
def Straddles (code : ReplyCode) (line : String) : Prop :=
  code.value ≤ 999 ∧ ∃ c rest, line.toList = code.digits ++ c :: rest ∧ 1 < c.utf8Size

theorem Straddles.textOf? (h : Straddles code line) : textOf? line = none := by
  obtain ⟨hc, c, rest, hline, hwide⟩ := h
  have hsize := digits_size hc
  rw [Option.eq_none_iff_forall_ne_some]
  intro text htext
  rcases textOf?_eq_some_iff.1 htext with ⟨head, hhead, hfour⟩ | ⟨hthree, -⟩
  · rcases List.append_eq_append_iff.1 (hhead.symm.trans hline) with ⟨behind, hdigits, -⟩ | ⟨behind, rfl, hrest⟩
    · rw [hdigits, size_append] at hsize
      omega
    · -- What `head` has behind the code is one byte, and begins with the character.
      rw [size_append] at hfour
      cases behind with
      | nil => exact absurd hfour (by rw [hsize]; decide)
      | cons c' behind =>
        obtain rfl := (List.cons.inj hrest).1
        rw [size_cons] at hfour
        omega
  · rw [hline, size_append, size_cons] at hthree
    omega

/-- A line with a code has a text, but for one case. -/
theorem text_or_straddles (hcode : codeOf? line = some code) :
    (∃ text, textOf? line = some text) ∨ Straddles code line := by
  obtain ⟨hc, rest, hline⟩ := codeOf?_eq_some_iff.1 hcode
  cases rest with
  | nil =>
    refine .inl ⟨"", textOf?_eq_some_iff.2 (.inr ⟨?_, rfl⟩)⟩
    rw [hline, List.append_nil, digits_size hc]
  | cons c rest =>
    rcases Nat.lt_or_eq_of_le c.utf8Size_pos with hwide | hone
    · exact .inr ⟨hc, c, rest, hline, hwide⟩
    · refine .inl ⟨String.ofList rest, ?_⟩
      rw [← String.ofList_toList (s := line), hline]
      exact textOf?_digits hc hone.symm rest

theorem Straddles.codeOf? (h : Straddles code line) : codeOf? line = some code := by
  obtain ⟨hc, c, rest, hline, -⟩ := h
  exact codeOf?_eq_some_iff.2 ⟨hc, c :: rest, hline⟩

/-- What a single line spells. -/
theorem ofLines_one (line : String) : ofLines [line] =
    match Reply.codeOf? line with
    | none => .error (.protocol (.badCode line))
    | some code =>
      match Reply.textOf? line with
      | none => .error (.protocol (.malformedLine line))
      | some text => .ok ⟨code, [text]⟩ := by
  simp only [ofLines, textsOf]
  cases Reply.codeOf? line with
  | none => rfl
  | some code => cases Reply.textOf? line <;> rfl

/-- **The class of a line is the class of the reply that it spells**, where it
spells one. Where it spells none it is a failure, with one exception: behind the
code stands a character of several bytes. Such a line is malformed as a reply and
has the class of its code all the same. -/
theorem classify_agrees (line : String) :
    (∀ reply, ofLines [line] = .ok reply → classify line = reply.kind) ∧
    (∀ e, ofLines [line] = .error e →
      (classify line = .failure ↔ ∀ code, Straddles code line → code.kind = .failure)) ∧
    ∀ code, Straddles code line →
      ofLines [line] = .error (.protocol (.malformedLine line)) ∧ classify line = code.kind := by
  have hstraddles : ∀ code, Straddles code line →
      ofLines [line] = .error (.protocol (.malformedLine line)) ∧ classify line = code.kind := by
    intro code h
    rw [ofLines_one, classify, h.codeOf?, h.textOf?]
    exact ⟨rfl, rfl⟩
  refine ⟨fun reply h => ?_, fun e h => ⟨fun hclass code hs => ?_, fun hall => ?_⟩, hstraddles⟩
  · rw [ofLines_one] at h
    rw [classify]
    split at h
    · cases h
    next code hcode =>
    split at h
    · cases h
    cases h
    rw [hcode]
    rfl
  · exact (hstraddles code hs).2.symm.trans hclass
  · rw [classify]
    cases hcode : Reply.codeOf? line with
    | none => rfl
    | some code =>
      rcases text_or_straddles hcode with ⟨text, htext⟩ | hs
      · rw [ofLines_one, hcode, htext] at h
        cases h
      · exact hall code hs

/-- A code of success, and a letter of two bytes. -/
theorem classify_agrees_straddled :
    let line := "250é"
    Straddles ⟨250⟩ line ∧ ofLines [line] = .error (.protocol (.malformedLine line)) ∧ classify line = .success := by
  intro line
  have hs : Straddles ⟨250⟩ line := ⟨by decide, 'é', [], by decide, by decide⟩
  exact ⟨hs, (classify_agrees line).2.2 _ hs⟩

/-! ## The grammar -/

/-- The lines of a reply as servers should write them: each with the code, a
hyphen behind it where another line follows, and a space or nothing in the last. -/
inductive Follows (code : ReplyCode) : List String → List String → Prop where
  | last (text : String) : Follows code [lineOf code ' ' text] [text]
  | bare : Follows code [String.ofList code.digits] [""]
  | more {lines texts : List String} (text : String) :
    Follows code lines texts → Follows code (lineOf code '-' text :: lines) (text :: texts)
  | empty {lines texts : List String} : Follows code lines texts → Follows code ("" :: lines) texts

/-- What the reader does not look at: whether all lines begin with the code, and
those before the last have a hyphen as their fourth character. -/
def Uniform (code : ReplyCode) (lines : List String) : Prop :=
  (∀ line ∈ said lines, code.digits <+: line.toList) ∧
    ∀ line ∈ (said lines).dropLast, line.toList[3]? = some '-'

theorem uniform_one (h : line ≠ "") : Uniform code [line] ↔ code.digits <+: line.toList := by
  have hsaid : said [line] = [line] := said_cons h []
  simp [Uniform, hsaid]

theorem uniform_cons (h : line ≠ "") (hne : said lines ≠ []) : Uniform code (line :: lines) ↔
    code.digits <+: line.toList ∧ line.toList[3]? = some '-' ∧ Uniform code lines := by
  simp only [Uniform, said_cons h, List.dropLast_cons_of_ne_nil hne, List.forall_mem_cons]
  tauto

theorem toList_lineOf (code : ReplyCode) (separator : Char) (text : String) :
    (lineOf code separator text).toList = code.digits ++ separator :: text.toList :=
  String.toList_ofList

theorem lineOf_ne_empty (code : ReplyCode) (separator : Char) (text : String) : lineOf code separator text ≠ "" := by
  intro h
  have hnil := congrArg String.toList h
  rw [toList_lineOf] at hnil
  cases hnil

section Grammar

variable (hc : code.value ≤ 999)
include hc

theorem Follows.accepts (h : Follows code lines texts) : Accepts lines texts := by
  induction h with
  | last text => exact .last ⟨code.digits, digits_size hc, .inl (toList_lineOf ..)⟩
  | bare => exact .last ⟨code.digits, digits_size hc, .inr ⟨String.toList_ofList, rfl⟩⟩
  | more text _ ih =>
    refine .more ⟨code.digits ++ ['-'], ?_, ?_, ?_⟩ ih
    · rw [toList_lineOf, List.append_assoc, List.singleton_append]
    · rw [size_append, digits_size hc]
      rfl
    · rw [List.getLast?_concat]
      decide
  | empty _ ih => exact .empty ih

theorem Follows.uniform (h : Follows code lines texts) : Uniform code lines := by
  induction h with
  | last text =>
    refine (uniform_one (lineOf_ne_empty _ _ _)).2 ?_
    rw [toList_lineOf]
    exact List.prefix_append ..
  | bare =>
    refine (uniform_one (by simp [ReplyCode.digits])).2 ⟨[], ?_⟩
    rw [List.append_nil, String.toList_ofList]
  | more text hlater ih =>
    have hsaid := (accepts_iff.1 (hlater.accepts hc)).1.said_ne_nil
    rw [uniform_cons (lineOf_ne_empty _ _ _) hsaid, toList_lineOf]
    exact ⟨List.prefix_append .., rfl, ih⟩
  | empty _ ih => exact ih

theorem Accepts.follows (h : Accepts lines texts) (hu : Uniform code lines) : Follows code lines texts := by
  induction h with
  | @last line text hline =>
    have hne := ne_empty_of_isLastLine (closes_iff.1 hline).1
    obtain ⟨behind, hdigits⟩ := (uniform_one hne).1 hu
    obtain ⟨head, hsize, htext | ⟨htext, rfl⟩⟩ := hline
    · obtain ⟨-, rfl⟩ := Text.cut_unique (hdigits.trans htext) ((digits_size hc).trans hsize.symm)
      have hline : line = lineOf code ' ' text := String.toList_inj.1 (hdigits.symm.trans (toList_lineOf ..).symm)
      rw [hline]
      exact .last text
    · have hall : code.digits ++ behind = head ++ [] := by rw [hdigits, htext, List.append_nil]
      obtain ⟨-, rfl⟩ := Text.cut_unique hall ((digits_size hc).trans hsize.symm)
      have hline : line = String.ofList code.digits := by
        rw [← String.toList_inj, ← hdigits, List.append_nil, String.toList_ofList]
      rw [hline]
      exact .bare
  | @more line text lines texts hline hlater ih =>
    have hne := ne_empty_of_textOf? (continues_iff.1 hline).2
    obtain ⟨⟨behind, hdigits⟩, hhyphen, hrest⟩ := (uniform_cons hne (accepts_iff.1 hlater).1.said_ne_nil).1 hu
    obtain ⟨four, htext, hsize, -⟩ := hline
    rw [← hdigits] at hhyphen
    have hhead : behind.head? = some '-' := by
      rw [List.getElem?_append_right (by exact le_rfl)] at hhyphen
      rw [List.head?_eq_getElem?]
      exact hhyphen
    obtain ⟨rest, rfl⟩ := List.head?_eq_some_iff.1 hhead
    have hall : (code.digits ++ ['-']) ++ rest = four ++ text.toList := by
      rw [← htext, ← hdigits, List.append_assoc, List.singleton_append]
    have hfour : size (code.digits ++ ['-']) = size four := by
      rw [size_append, digits_size hc, hsize]
      rfl
    obtain ⟨-, rfl⟩ := Text.cut_unique hall hfour
    have hline : line = lineOf code '-' text := String.toList_inj.1 (hdigits.symm.trans (toList_lineOf ..).symm)
    rw [hline]
    exact .more text (ih hrest)
  | empty _ ih => exact .empty (ih hu)

/-- **Accepted replies follow the grammar** where nothing else is wrong with
them, and what follows the grammar is accepted. -/
theorem follows_iff : Follows code lines texts ↔ Accepts lines texts ∧ Uniform code lines :=
  ⟨fun h => ⟨h.accepts hc, h.uniform hc⟩, fun ⟨h, hu⟩ => h.follows hc hu⟩

end Grammar

/-- A reply that follows the grammar begins with its code. -/
theorem ReadFrom.of_follows (h : Follows reply.code lines reply.message) (hc : reply.code.value ≤ 999)
    (hfits : reply.message.length ≤ maxLines) : ReadFrom reply lines := by
  obtain ⟨htaken, hcodes, -⟩ := (follows_iff hc).1 h
  obtain ⟨first, rest, hfirst⟩ := List.exists_cons_of_ne_nil (accepts_iff.1 htaken).1.said_ne_nil
  obtain ⟨behind, hdigits⟩ := hcodes first (hfirst ▸ List.mem_cons_self)
  exact ⟨htaken, hfits, hc, first, behind, by rw [hfirst]; rfl, hdigits.symm⟩

end Reply

/-! ## Reading -/

/-- A line is what its bytes say. -/
theorem Carries.finish {raw : List UInt8} {line : String} (h : Carries raw line) :
    ({ taken := raw.toArray } : LineReader).finish = .ok line :=
  (finish_eq_ok_iff h.rawLine).2 h

theorem cut_flatten {raws : List (List UInt8)} {lines : List String} (h : List.Forall₂ Carries raws lines) :
    Cut raws.flatten raws [] where
  whole := (List.append_nil _).symm
  lines := by
    induction h with
    | nil => exact fun _ hmem => absurd hmem List.not_mem_nil
    | cons hraw _ ih => exact List.forall_mem_cons.2 ⟨hraw.rawLine, ih⟩
  inside := List.not_mem_nil
  fits := by decide

namespace ReplyReader

open Reply

variable {earlier : Array String} {raws : List (List UInt8)} {lines : List String} {bytes : List UInt8} {reply : Reply}

/-- Lines up to the one that ends a reply are all taken, and come to what they say. -/
theorem takeAll_ended (h : List.Forall₂ Carries raws lines) (he : Ended lines)
    (hs : earlier.size + (said lines).length ≤ maxLines) :
    takeAll earlier raws = .done (ofLines (earlier.toList ++ said lines), []) := by
  induction he generalizing earlier raws with
  | @last line hlast =>
    cases h with
    | cons hraw hraws =>
    cases hraws
    have ht : ({ lines := earlier } : ReplyReader).take line = .done (ofLines (earlier.push line).toList) := by
      rw [take, if_neg (ne_empty_of_isLastLine hlast), if_pos hlast]
    simp only [takeAll, hraw.finish, ht, Array.toList_push, said_cons (ne_empty_of_isLastLine hlast)]
    rfl
  | @more line lines hlast hlater ih =>
    cases h with
    | cons hraw hraws =>
    rw [takeAll, hraw.finish]
    simp only
    by_cases hempty : line = ""
    · subst hempty
      exact ih hraws hs
    · -- The line that ends the reply comes later, so this one is below the limit.
      have hmore := List.length_pos_of_ne_nil hlater.said_ne_nil
      rw [said_cons hempty, List.length_cons] at hs
      have hpush : (earlier.push line).size = earlier.size + 1 := Array.size_push ..
      have ht : ({ lines := earlier } : ReplyReader).take line = .more { lines := earlier.push line } := by
        simp only [take, if_neg hempty, hlast, hpush]
        rw [if_neg Bool.false_ne_true, if_neg (by omega)]
      rw [ht, said_cons hempty]
      simp only
      rw [ih hraws (by rw [hpush]; omega), Array.toList_push, List.append_assoc, List.singleton_append]

theorem takeAll_ok (h : ∀ raw ∈ raws, RawLine raw) (hs : earlier.size < maxLines)
    (hok : takeAll earlier raws = .done (.ok reply, [])) :
    ∃ lines, List.Forall₂ Carries raws lines ∧ Ended lines ∧ earlier.size + (said lines).length ≤ maxLines ∧
      ofLines (earlier.toList ++ said lines) = .ok reply := by
  induction raws generalizing earlier with
  | nil => cases hok
  | cons raw raws ih =>
    obtain ⟨hraw, hraws⟩ := List.forall_mem_cons.1 h
    rw [takeAll] at hok
    cases hf : ({ taken := raw.toArray } : LineReader).finish with
    | error e => rw [hf] at hok; cases hok
    | ok line =>
      have hline := (finish_eq_ok_iff hraw).1 hf
      rw [hf] at hok
      simp only at hok
      rcases take_cases { lines := earlier } line with
        ⟨rfl, ht⟩ | ⟨hne, hlast, ht⟩ | ⟨-, -, -, ht⟩ | ⟨hne, hlast, hsize, ht⟩ <;> simp only [ht] at hok
      · obtain ⟨lines, hlines, hended, hfits, hreply⟩ := ih hraws hs hok
        exact ⟨"" :: lines, .cons hline hlines, .more rfl hended, hfits, hreply⟩
      · simp only [Fed.done.injEq, Prod.mk.injEq, Array.toList_push] at hok
        obtain ⟨hreply, rfl⟩ := hok
        refine ⟨[line], .cons hline .nil, .last hlast, ?_, ?_⟩ <;> rw [said_cons hne]
        · exact hs
        · exact hreply
      · cases hok
      · have hpush : (earlier.push line).size = earlier.size + 1 := Array.size_push ..
        obtain ⟨lines, hlines, hended, hfits, hreply⟩ := ih hraws (hpush ▸ hsize) hok
        refine ⟨line :: lines, .cons hline hlines, .more hlast hended, ?_, ?_⟩ <;> rw [said_cons hne]
        · rw [hpush] at hfits
          rw [List.length_cons]
          omega
        · rwa [Array.toList_push, List.append_assoc, List.singleton_append] at hreply

/-- **What a reply is read from.** -/
theorem read_ok_iff : ({} : ReplyReader).read bytes = .done (.ok reply, []) ↔
    ∃ raws lines, bytes = raws.flatten ∧ List.Forall₂ Carries raws lines ∧ ReadFrom reply lines := by
  simp only [readFrom_iff]
  have hnone : (#[] : Array String).size < maxLines := by decide
  constructor
  · intro h
    obtain ⟨raws, rest, hcut⟩ := exists_cut bytes
    obtain ⟨hok, rfl⟩ := ((read_cut hcut).2 _).1 h
    obtain ⟨lines, hlines, hended, hfits, hreply⟩ := takeAll_ok hcut.lines hnone hok
    refine ⟨raws, lines, ?_, hlines, hended, ?_, ?_⟩
    · rw [hcut.whole, List.append_nil]
    · simpa using hfits
    · simpa using hreply
  · rintro ⟨raws, lines, rfl, hlines, hended, hfits, hreply⟩
    refine ((read_cut (cut_flatten hlines)).2 _).2 ⟨?_, rfl⟩
    rw [takeAll_ended hlines hended (by simpa using hfits), List.nil_append, hreply]

end ReplyReader

namespace Transport

open Reply

/-- **What is accepted, and what is not looked at.** A reply is the result just
where the bytes that were used are lines from which it is read: the first has its
code, and each line has three bytes, with a space or nothing behind them in the last
line only. Such lines follow the grammar just if all of them have the same code, with
a hyphen behind it in all but the last; these two things are not checked. But what
follows the grammar is read. -/
theorem polls_accepts (t : Transport) (now : Nat) (later : List Nat) (awaited : Reply) :
    let run := t.polls reply {} now later
    (run.1 = .ready (.ok awaited) ↔
      ∃ raws lines, t.used run.2 = raws.flatten ∧ List.Forall₂ Carries raws lines ∧ ReadFrom awaited lines) ∧
    ∀ lines, (ReadFrom awaited lines → (Follows awaited.code lines awaited.message ↔ Uniform awaited.code lines)) ∧
      (Follows awaited.code lines awaited.message → awaited.code.value ≤ 999 → awaited.message.length ≤ maxLines →
        ReadFrom awaited lines) := by
  intro run
  have hrun : t.polls reply {} now later = (run.1, run.2) := rfl
  refine ⟨?_, fun lines => ⟨fun ⟨htaken, _, hc, _⟩ => ?_, .of_follows⟩⟩
  · rw [← ReplyReader.read_ok_iff]
    rcases polls_reply hrun with ⟨⟨r, hmore⟩, hnone⟩ | ⟨result, hdone, hresult⟩
    · refine ⟨fun h => absurd h (hnone awaited), fun h => ?_⟩
      cases hmore.symm.trans h
    · rw [hdone, hresult]
      simp
  · rw [follows_iff hc]
    exact and_iff_right htaken

/-- A reply that begins well and ends badly. -/
theorem polls_accepts_turned :
    let bytes := "250-a\r\n550 b\r\n".toUTF8.toList
    let t := new { arrivals := Arrival.script [bytes] }
    let run := t.polls reply {} 0 []
    run.1 = .ready (.ok ⟨⟨250⟩, ["a", "b"]⟩) ∧
      ReadFrom ⟨⟨250⟩, ["a", "b"]⟩ ["250-a", "550 b"] ∧ ¬ Follows ⟨250⟩ ["250-a", "550 b"] ["a", "b"] := by
  intro bytes t run
  have htaken : Accepts ["250-a", "550 b"] ["a", "b"] :=
    .more ⟨"250-".toList, by decide⟩ (.last ⟨"550".toList, by decide⟩)
  have hfrom : ReadFrom ⟨⟨250⟩, ["a", "b"]⟩ ["250-a", "550 b"] :=
    ⟨htaken, by decide, by decide, "250-a", "-a".toList, by decide⟩
  have hcarries : List.Forall₂ Carries ["250-a\r\n".toUTF8.toList, "550 b\r\n".toUTF8.toList] ["250-a", "550 b"] :=
    .cons ⟨⟨1, by decide +kernel⟩, by decide, by decide +kernel⟩
      (.cons ⟨⟨1, by decide +kernel⟩, by decide, by decide +kernel⟩ .nil)
  have hused : t.used run.2 = ["250-a\r\n".toUTF8.toList, "550 b\r\n".toUTF8.toList].flatten := by decide +kernel
  obtain ⟨hresult, hgrammar⟩ := polls_accepts t 0 [] ⟨⟨250⟩, ["a", "b"]⟩
  refine ⟨hresult.2 ⟨_, _, hused, hcarries, hfrom⟩, hfrom, fun hfollows => ?_⟩
  have huniform := ((hgrammar _).1 hfrom).1 hfollows
  exact absurd (huniform.1 "550 b" (by decide)) (by decide)

end Transport

end SmtpClient
