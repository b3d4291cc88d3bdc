/-
The lines that a reply is read from. All bytes can be cut into lines
(`exists_cut`), and reading them is taking one line after the other
(`ReplyReader.read_cut`). Each line is bounded, and so are the lines of one
reply; but empty lines are not counted, so there may be any number of them
(`Transport.polls_bounded`).
-/
import SmtpClient.Proofs.Writing
import Mathlib.Data.List.Induction

namespace SmtpClient

open Text.Utf8 (encode decode)

variable {σ β : Type}

/-! ## Polls -/

namespace Conversation

theorem Used.of_hungry {k : Conversation σ β} {s s' : σ} {out out' out'' : Outbound} {xs us : List UInt8}
    {p : Poll σ β} (h : k.consume s out xs = (.hungry s', out')) (hu : k.Used s' out' us p out'') :
    k.Used s out (xs ++ us) p out'' := by
  have happ := consume_hungry h us
  cases hu with
  | pending hc => exact .pending (happ.trans hc)
  | ok hc => exact .ok (happ.trans hc)
  | failed hc => exact .failed (happ.trans hc)
  | cut hc he => exact .cut (happ.trans hc) he

end Conversation

namespace Transport

/-- Polls a conversation at these times, until it is over. -/
def polls (t : Transport) (k : Conversation σ β) (s : σ) (now : Nat) : List Nat → Poll σ β × Transport
  | [] => t.poll k now s
  | next :: later =>
    match t.poll k now s with
    | (.pending _ s, t) => t.polls k s next later
    | ended => ended

theorem polls_ready {k : Conversation σ β} {t : Transport} {s : σ} {result : Except Error β} {now : Nat}
    (h : (t.poll k now s).1 = .ready result) (later : List Nat) : t.polls k s now later = t.poll k now s := by
  cases later with
  | nil => rfl
  | cons next later =>
    rw [polls]
    split
    · next hp =>
      rw [hp] at h
      cases h
    · rfl

theorem polls_used {k : Conversation σ β} {t t' : Transport} {s : σ} {p : Poll σ β} {now : Nat} {later : List Nat}
    (h : t.polls k s now later = (p, t')) :
    ∃ used, t.unread = used ++ t'.unread ∧ k.Used s t.stream.outbound used p t'.stream.outbound := by
  induction later generalizing t s now with
  | nil => exact poll_used h
  | cons next later ih =>
    simp only [polls] at h
    split at h
    · next hp =>
      obtain ⟨before, hbefore, hpending⟩ := poll_used hp
      obtain ⟨behind, hbehind, hused⟩ := ih h
      cases hpending with
      | pending hc =>
        exact ⟨before ++ behind, by rw [hbefore, hbehind, List.append_assoc], hused.of_hungry hc⟩
    · exact poll_used h

end Transport

/-! ## Lines as they come -/

/-- A line with its ending: a line feed stands at the end or not at all, and
without one the line is as long as a line may be. -/
structure RawLine (raw : List UInt8) : Prop where
  inside : lineFeed ∉ raw.dropLast
  ends : raw.getLast? = some lineFeed ∨ raw.length = lineLimit
  fits : raw.length ≤ lineLimit

/-- Bytes cut into lines, and the beginning of another. -/
structure Cut (bytes : List UInt8) (raws : List (List UInt8)) (rest : List UInt8) : Prop where
  whole : bytes = raws.flatten ++ rest
  lines : ∀ raw ∈ raws, RawLine raw
  inside : lineFeed ∉ rest
  fits : rest.length < lineLimit

/-- The byte that may stand before a line feed. -/
def carriageReturn : UInt8 := 13

/-- What a line says without its ending: a line feed behind any number of
carriage returns. -/
structure Carries (raw : List UInt8) (line : String) : Prop where
  spelled : ∃ returns, raw = encode line ++ List.replicate returns carriageReturn ++ [lineFeed]
  bare : '\n' ∉ line.toList ∧ line.toList.getLast? ≠ some '\r'
  fits : raw.length ≤ lineLimit

variable {raw rest bytes : List UInt8} {raws : List (List UInt8)} {line : String}

theorem RawLine.ne_nil (h : RawLine raw) : raw ≠ [] := by
  rintro rfl
  rcases h.ends with he | he <;> cases he

theorem RawLine.concat {begun : List UInt8} {byte : UInt8} (hinside : lineFeed ∉ begun)
    (hfits : begun.length < lineLimit) (hend : byte = lineFeed ∨ begun.length + 1 = lineLimit) :
    RawLine (begun ++ [byte]) where
  inside := by rwa [List.dropLast_concat]
  ends := by rwa [List.getLast?_concat, Option.some_inj, List.length_append]
  fits := by rw [List.length_append]; exact hfits

theorem RawLine.exists_concat (h : RawLine raw) :
    ∃ begun byte, raw = begun ++ [byte] ∧ lineFeed ∉ begun ∧ begun.length < lineLimit := by
  obtain ⟨begun, byte, rfl⟩ : ∃ begun byte, raw = begun ++ [byte] :=
    ⟨_, _, (List.dropLast_concat_getLast h.ne_nil).symm⟩
  obtain ⟨hinside, -, hfits⟩ := h
  rw [List.dropLast_concat] at hinside
  rw [List.length_append] at hfits
  exact ⟨begun, byte, rfl, hinside, hfits⟩

theorem exists_cut_behind {begun : List UInt8} (hinside : lineFeed ∉ begun) (hfits : begun.length < lineLimit)
    (bytes : List UInt8) : ∃ raws rest, Cut (begun ++ bytes) raws rest := by
  induction bytes generalizing begun with
  | nil => exact ⟨[], begun, by simp, by simp, hinside, hfits⟩
  | cons byte bytes ih =>
    rw [List.append_cons]
    by_cases hend : byte = lineFeed ∨ begun.length + 1 = lineLimit
    · obtain ⟨raws, rest, hcut⟩ := ih List.not_mem_nil (by decide)
      refine ⟨(begun ++ [byte]) :: raws, rest, ?_, ?_, hcut.inside, hcut.fits⟩
      · rw [List.flatten_cons, List.append_assoc _ raws.flatten, ← hcut.whole, List.nil_append]
      · exact List.forall_mem_cons.2 ⟨.concat hinside hfits hend, hcut.lines⟩
    · obtain ⟨hbyte, hlength⟩ := not_or.1 hend
      refine ih ?_ ?_
      · simpa using ⟨hinside, Ne.symm hbyte⟩
      · rw [List.length_append, List.length_singleton]
        omega

/-- All bytes can be cut into lines. -/
theorem exists_cut (bytes : List UInt8) : ∃ raws rest, Cut bytes raws rest :=
  exists_cut_behind List.not_mem_nil (by decide) bytes

/-! ## One line -/

/-- The carriage returns at the end of a text. -/
theorem exists_returns (cs : List Char) :
    ∃ line returns, cs = line ++ List.replicate returns '\r' ∧ line.getLast? ≠ some '\r' := by
  induction cs using List.reverseRecOn with
  | nil => exact ⟨[], 0, rfl, by simp⟩
  | append_singleton cs c ih =>
    by_cases hc : c = '\r'
    · obtain ⟨line, returns, rfl, hline⟩ := ih
      refine ⟨line, returns + 1, ?_, hline⟩
      rw [hc, List.replicate_succ', List.append_assoc]
    · exact ⟨cs ++ [c], 0, by simp, by simpa using hc⟩

theorem encode_ending (line : String) (returns : Nat) :
    encode (String.ofList (line.toList ++ (List.replicate returns '\r' ++ ['\n']))) =
      encode line ++ List.replicate returns carriageReturn ++ [lineFeed] := by
  have hreturns : (List.replicate returns '\r').flatMap String.utf8EncodeChar =
      List.replicate returns carriageReturn := by
    induction returns with
    | zero => rfl
    | succ returns ih => rw [List.replicate_succ, List.flatMap_cons, ih]; rfl
  rw [encode, String.toList_ofList, List.flatMap_append, List.flatMap_append, hreturns, List.append_assoc]
  rfl

/-- Where a line feed stands in the bytes of a text, one stands in the text. -/
theorem eq_concat_of_encode {text : String} (h : RawLine (encode text))
    (hend : (encode text).getLast? = some lineFeed) : ∃ cs, text.toList = cs ++ ['\n'] ∧ '\n' ∉ cs := by
  have hinside := h.inside
  rw [encode] at hend hinside
  rcases List.eq_nil_or_concat text.toList with hnil | ⟨cs, c, hcs⟩
  · rw [hnil] at hend
    cases hend
  rw [List.concat_eq_append] at hcs
  have hbytes : text.toList.flatMap String.utf8EncodeChar =
      cs.flatMap String.utf8EncodeChar ++ String.utf8EncodeChar c := by
    rw [hcs, List.flatMap_append, List.flatMap_singleton]
  rw [hbytes] at hend hinside
  have hlast : c = '\n' := by
    by_contra hc
    have hne : c.toNat ≠ 10 := fun he => hc (Char.toNat_inj.1 he)
    have hmem : lineFeed ∈ String.utf8EncodeChar c := by
      rw [List.getLast?_append_of_ne_nil _ String.utf8EncodeChar_ne_nil] at hend
      exact List.mem_of_getLast? hend
    exact (Text.Utf8.form_encodeChar c).toNat_ne hne lineFeed hmem rfl
  subst hlast
  refine ⟨cs, hcs, fun hmem => hinside ?_⟩
  have hone : String.utf8EncodeChar '\n' = [lineFeed] := rfl
  rw [hone, List.dropLast_concat]
  exact List.mem_flatMap.2 ⟨'\n', hmem, List.mem_singleton.2 rfl⟩

theorem dropLineEnd_ended {bare : List Char} (hfeed : '\n' ∉ bare) (hreturn : bare.getLast? ≠ some '\r')
    (returns : Nat) :
    dropLineEnd (String.ofList (bare ++ (List.replicate returns '\r' ++ ['\n']))) = String.ofList bare := by
  refine dropLineEnd_append (fun c hc => ⟨?_, ?_⟩) (fun c hc => ?_)
  · rintro rfl
    exact hreturn hc
  · rintro rfl
    exact hfeed (List.mem_of_getLast? hc)
  · rcases List.mem_append.1 hc with hmem | hmem
    · exact .inl (List.eq_of_mem_replicate hmem)
    · exact .inr (List.mem_singleton.1 hmem)

/-- **What a line says**: any number of carriage returns is taken for a part of
its ending. -/
theorem finish_eq_ok_iff (h : RawLine raw) :
    ({ taken := raw.toArray } : LineReader).finish = .ok line ↔ Carries raw line := by
  have hback : raw.toArray.back? = raw.getLast? := by simp
  simp only [LineReader.finish, hback]
  constructor
  · intro hfinish
    split at hfinish
    · cases hfinish
    next text hd =>
    split at hfinish
    · next hend =>
      obtain rfl := Text.Utf8.decode_eq_ok_iff.1 hd
      obtain ⟨cs, hcs, hfeed⟩ := eq_concat_of_encode h hend
      obtain ⟨bare, returns, rfl, hreturn⟩ := exists_returns cs
      have hbare : '\n' ∉ bare := fun hmem => hfeed (List.mem_append_left _ hmem)
      obtain rfl : text = String.ofList (bare ++ (List.replicate returns '\r' ++ ['\n'])) := by
        rw [← String.toList_inj, hcs, String.toList_ofList, List.append_assoc]
      rw [dropLineEnd_ended hbare hreturn] at hfinish
      obtain rfl := Except.ok.inj hfinish
      refine ⟨⟨returns, ?_⟩, by simpa using ⟨hbare, hreturn⟩, h.fits⟩
      rw [← encode_ending, String.toList_ofList]
    · split at hfinish <;> cases hfinish
  · rintro ⟨⟨returns, hraw⟩, ⟨hfeed, hreturn⟩, -⟩
    have hend : raw.getLast? = some lineFeed := by rw [hraw, List.getLast?_concat]
    rw [← encode_ending] at hraw
    simp only [Text.Utf8.decode_eq_ok_iff.2 hraw, hend, if_true, dropLineEnd_ended hfeed hreturn, String.ofList_toList]

theorem Carries.rawLine (h : Carries raw line) : RawLine raw := by
  obtain ⟨⟨returns, hraw⟩, ⟨hfeed, -⟩, hfits⟩ := h
  refine ⟨?_, .inl (by rw [hraw, List.getLast?_concat]), hfits⟩
  rw [hraw, List.dropLast_concat]
  refine List.not_mem_append (Text.Utf8.lineFeed_notMem_encode hfeed) fun hmem => ?_
  cases List.eq_of_mem_replicate hmem

/-- The last byte of a line ends it. -/
theorem LineReader.feed_last {begun : List UInt8} {byte : UInt8} (h : RawLine (begun ++ [byte])) :
    ({ taken := begun.toArray } : LineReader).feed byte =
      .done ({ taken := (begun ++ [byte]).toArray } : LineReader).finish := by
  have hends := h.ends
  rw [List.getLast?_concat, Option.some_inj, List.length_append] at hends
  have htaken : begun.toArray.push byte = (begun ++ [byte]).toArray := by simp
  have hsize : (begun ++ [byte]).toArray.size = begun.length + 1 := by simp
  simp only [feed, htaken, hsize]
  exact if_pos hends

/-- Nothing but carriage returns and a line feed. -/
def isEmptyLine (raw : List UInt8) : Bool :=
  raw.dropLast.all (· == carriageReturn) && raw.getLast? == some lineFeed

theorem isEmptyLine_iff (h : RawLine raw) : isEmptyLine raw = true ↔ Carries raw "" := by
  simp only [isEmptyLine, Bool.and_eq_true, List.all_eq_true, beq_iff_eq]
  constructor
  · rintro ⟨hreturns, hend⟩
    refine ⟨⟨raw.dropLast.length, ?_⟩, by simp, h.fits⟩
    rw [← List.eq_replicate_of_mem hreturns]
    exact (List.dropLast_append_getLast? _ hend).symm
  · rintro ⟨⟨returns, rfl⟩, -, -⟩
    rw [List.dropLast_concat, List.getLast?_concat]
    exact ⟨fun byte hb => List.eq_of_mem_replicate hb, rfl⟩

/-- How many lines say something. -/
def sayings (raws : List (List UInt8)) : Nat :=
  raws.countP fun raw => !isEmptyLine raw

theorem sayings_cons_le (raw : List UInt8) (raws : List (List UInt8)) : sayings (raw :: raws) ≤ sayings raws + 1 := by
  rw [sayings, List.countP_cons]
  split
  · exact le_rfl
  · exact Nat.le_succ _

theorem sayings_eq_length (h : ∀ raw ∈ raws, isEmptyLine raw = false) : sayings raws = raws.length :=
  List.countP_eq_length.2 fun raw hraw => by rw [h raw hraw]; rfl

/-! ## Reading -/

namespace ReplyReader

variable {r r' : ReplyReader} {lines : Array String} {result : Except Error Reply}

/-- What a line does to a reader. -/
theorem take_cases (r : ReplyReader) (line : String) :
    (line = "" ∧ r.take line = .more { lines := r.lines }) ∨
    (line ≠ "" ∧ Reply.isLastLine line = true ∧ r.take line = .done (Reply.ofLines (r.lines.push line).toList)) ∨
    (line ≠ "" ∧ Reply.isLastLine line = false ∧ Reply.maxLines ≤ r.lines.size + 1 ∧
      r.take line = .done (.error (.protocol .tooManyLines))) ∨
    (line ≠ "" ∧ Reply.isLastLine line = false ∧ r.lines.size + 1 < Reply.maxLines ∧
      r.take line = .more { lines := r.lines.push line }) := by
  by_cases hempty : line = ""
  · exact .inl ⟨hempty, by rw [take, if_pos hempty]⟩
  refine .inr ?_
  simp only [take, if_neg hempty, Array.size_push]
  by_cases hlast : Reply.isLastLine line = true
  · exact .inl ⟨hempty, hlast, by rw [if_pos hlast]⟩
  refine .inr ?_
  rw [if_neg hlast]
  have hnot : Reply.isLastLine line = false := by simpa using hlast
  by_cases hsize : Reply.maxLines ≤ r.lines.size + 1
  · exact .inl ⟨hempty, hnot, hsize, by rw [if_pos hsize]⟩
  · exact .inr ⟨hempty, hnot, by omega, by rw [if_neg hsize]⟩

/-- Gives a reader with some lines more of them, or as many as it takes. -/
def takeAll (lines : Array String) : List (List UInt8) → Fed (Array String) (Except Error Reply × List (List UInt8))
  | [] => .more lines
  | raw :: raws =>
    match ({ taken := raw.toArray } : LineReader).finish with
    | .error e => .done (.error e, raws)
    | .ok line =>
      match ({ lines } : ReplyReader).take line with
      | .more r => takeAll r.lines raws
      | .done result => .done (result, raws)

/-- The last byte of a line gives the line to the reader. -/
theorem read_raw (h : RawLine raw) (lines : Array String) (bytes : List UInt8) :
    ({ lines } : ReplyReader).read (raw ++ bytes) =
      match ({ taken := raw.toArray } : LineReader).finish with
      | .error e => .done (.error e, bytes)
      | .ok line =>
        match ({ lines } : ReplyReader).take line with
        | .more r => r.read bytes
        | .done result => .done (result, bytes) := by
  obtain ⟨begun, byte, rfl, hinside, hfits⟩ := h.exists_concat
  rw [List.append_assoc, read_inside hinside (by simpa using hfits), List.singleton_append, read]
  simp only [feed, Array.empty_append, LineReader.feed_last h]
  cases LineReader.finish _ <;> rfl

theorem take_more {line : String} (h : r.take line = .more r') : r' = { lines := r'.lines } := by
  rcases r.take_cases line with ⟨-, ht⟩ | ⟨-, -, ht⟩ | ⟨-, -, -, ht⟩ | ⟨-, -, -, ht⟩ <;> cases h.symm.trans ht <;> rfl

/-- **Reading is taking lines**, one after the other. -/
theorem read_flatten (h : ∀ raw ∈ raws, RawLine raw) (lines : Array String) (bytes : List UInt8) :
    ({ lines } : ReplyReader).read (raws.flatten ++ bytes) =
      match takeAll lines raws with
      | .more lines => ({ lines } : ReplyReader).read bytes
      | .done (result, raws) => .done (result, raws.flatten ++ bytes) := by
  induction raws generalizing lines with
  | nil => rfl
  | cons raw raws ih =>
    obtain ⟨hraw, hraws⟩ := List.forall_mem_cons.1 h
    rw [List.flatten_cons, List.append_assoc, read_raw hraw, takeAll]
    cases ({ taken := raw.toArray } : LineReader).finish with
    | error e => rfl
    | ok line =>
      simp only
      cases ht : ({ lines } : ReplyReader).take line with
      | done result => rfl
      | more r =>
        rw [take_more ht]
        exact ih hraws r.lines

theorem read_rest (hinside : lineFeed ∉ rest) (hfits : rest.length < lineLimit) (lines : Array String) :
    ({ lines } : ReplyReader).read rest = .more { lines, line := { taken := #[] ++ rest.toArray } } := by
  have hread := read_inside (r := { lines }) hinside (by simpa using hfits) []
  rwa [List.append_nil] at hread

theorem takeAll_left {left : List (List UInt8)} (h : takeAll lines raws = .done (result, left)) : left <:+ raws := by
  induction raws generalizing lines with
  | nil => cases h
  | cons raw raws ih =>
    rw [takeAll] at h
    split at h
    · cases h
      exact List.suffix_cons ..
    split at h
    · exact (ih h).trans (List.suffix_cons ..)
    · cases h
      exact List.suffix_cons ..

/-- Where all bytes were used, all lines were taken; and if that was the end,
nothing stands behind the last one. -/
theorem read_cut (h : Cut bytes raws rest) :
    (∀ r, ({} : ReplyReader).read bytes = .more r → ∃ lines, takeAll #[] raws = .more lines) ∧
    ∀ result, ({} : ReplyReader).read bytes = .done (result, []) ↔
      takeAll #[] raws = .done (result, []) ∧ rest = [] := by
  have hread := read_flatten h.lines #[] rest
  rw [← h.whole] at hread
  rw [hread]
  cases ht : takeAll #[] raws with
  | more lines => simp [read_rest h.inside h.fits]
  | done ended =>
    obtain ⟨result, left⟩ := ended
    have hleft : left.flatten = [] ↔ left = [] := by
      refine ⟨fun hflat => List.eq_nil_iff_forall_not_mem.2 fun raw hmem => ?_, fun hnil => by rw [hnil]; rfl⟩
      exact (h.lines raw ((takeAll_left ht).mem hmem)).ne_nil (List.flatten_eq_nil_iff.1 hflat raw hmem)
    simp [List.append_eq_nil_iff, hleft, and_assoc]

/-! ## The limit -/

/-- Lines are taken below the limit, and those that end a reply at the limit
at most. -/
theorem takeAll_bound (h : ∀ raw ∈ raws, RawLine raw) (hl : lines.size < Reply.maxLines) :
    (∀ lines', takeAll lines raws = .more lines' → lines.size + sayings raws < Reply.maxLines) ∧
    ∀ result, takeAll lines raws = .done (result, []) → lines.size + sayings raws ≤ Reply.maxLines := by
  induction raws generalizing lines with
  | nil => exact ⟨fun _ _ => hl, nofun⟩
  | cons raw raws ih =>
    obtain ⟨hraw, hraws⟩ := List.forall_mem_cons.1 h
    have hcount := sayings_cons_le raw raws
    have hlast (hnil : raws = []) : lines.size + sayings (raw :: raws) ≤ Reply.maxLines := by
      subst hnil
      exact Nat.le_trans (Nat.add_le_add_left hcount _) hl
    rw [takeAll]
    cases hf : ({ taken := raw.toArray } : LineReader).finish with
    | error e => exact ⟨nofun, fun result hd => by cases hd; exact hlast rfl⟩
    | ok line =>
      simp only
      rcases take_cases { lines } line with ⟨rfl, ht⟩ | ⟨-, -, ht⟩ | ⟨-, -, -, ht⟩ | ⟨-, -, hsize, ht⟩ <;>
        simp only [ht]
      · have hempty := (isEmptyLine_iff hraw).2 ((finish_eq_ok_iff hraw).1 hf)
        have hsame : sayings (raw :: raws) = sayings raws := by simp [sayings, hempty]
        rw [hsame]
        exact ih hraws hl
      · exact ⟨nofun, fun result hd => by cases hd; exact hlast rfl⟩
      · exact ⟨nofun, fun result hd => by cases hd; exact hlast rfl⟩
      · have hpush : (lines.push line).size = lines.size + 1 := Array.size_push ..
        obtain ⟨hmore, hdone⟩ := ih hraws (hpush ▸ hsize)
        rw [hpush] at hmore hdone
        refine ⟨fun lines' hm => ?_, fun result hd => ?_⟩
        · have hless := hmore lines' hm
          omega
        · have hless := hdone result hd
          omega

/-- The lines of what is used are as many as the limit allows, with one that has
only begun. -/
theorem read_bounded (hcut : Cut bytes raws rest) (h : (∃ r, ({} : ReplyReader).read bytes = .more r) ∨
    ∃ result, ({} : ReplyReader).read bytes = .done (result, [])) :
    sayings raws ≤ Reply.maxLines ∧ (rest ≠ [] → sayings raws < Reply.maxLines) := by
  obtain ⟨hmore, hdone⟩ := read_cut hcut
  have hnone : (#[] : Array String).size < Reply.maxLines := by decide
  obtain ⟨hbelow, hlast⟩ := takeAll_bound hcut.lines hnone
  simp only [List.size_toArray, List.length_nil, Nat.zero_add] at hbelow hlast
  rcases h with ⟨r, hr⟩ | ⟨result, hr⟩
  · obtain ⟨lines, ht⟩ := hmore r hr
    exact ⟨Nat.le_of_lt (hbelow lines ht), fun _ => hbelow lines ht⟩
  · obtain ⟨ht, hnil⟩ := (hdone result).1 hr
    exact ⟨hlast result ht, fun hrest => absurd hnil hrest⟩

end ReplyReader

/-- Empty lines in front of a reply belong to it. -/
theorem Spelled.empties {code : ReplyCode} {texts : List String} (h : Spelled code texts bytes) (empty : Nat) :
    Spelled code texts ((List.replicate empty (lineBytes "")).flatten ++ bytes) := by
  induction empty with
  | zero => exact h
  | succ empty ih =>
    rw [List.replicate_succ, List.flatten_cons, List.append_assoc]
    exact .empty ih

namespace Transport

variable {t t' : Transport} {now : Nat} {later : List Nat}

/-- What was used while a reply was awaited: too little, or all that it took. -/
theorem polls_reply {p : Poll ReplyReader Reply} (h : t.polls reply {} now later = (p, t')) :
    ((∃ r, ({} : ReplyReader).read (t.used t') = .more r) ∧ ∀ awaited, p ≠ .ready (.ok awaited)) ∨
      ∃ result, ({} : ReplyReader).read (t.used t') = .done (result, []) ∧ p = .ready result := by
  obtain ⟨used, hsplit, hused⟩ := polls_used h
  have hread := consume_reply {} t.stream.outbound used
  rw [used_eq hsplit]
  generalize t'.stream.outbound = out at hused
  cases hr : ({} : ReplyReader).read used with
  | more r =>
    rw [hr] at hread
    refine .inl ⟨⟨r, rfl⟩, fun awaited he => ?_⟩
    cases hused with
    | ok hc => cases hread.symm.trans hc
    | pending | failed | cut => cases he
  | done ended =>
    obtain ⟨result, us⟩ := ended
    rw [hr] at hread
    cases hused with
    | ok hc | failed hc =>
      cases hread.symm.trans hc
      exact .inr ⟨_, rfl, rfl⟩
    | pending hc | cut hc => cases hread.symm.trans hc

/-- **The lines of one reply are limited**, but for empty ones. Whatever a server
sends, what one call uses is lines of bounded length, and of those that say
something so many at most, with one that has only begun; so where no line is empty,
that is the limit of all. But any number of empty lines may stand in front of a
reply, which is read behind them all. -/
theorem polls_bounded (t : Transport) (now : Nat) (later : List Nat) :
    let run := t.polls reply {} now later
    (∃ raws rest, Cut (t.used run.2) raws rest) ∧
    (∀ raws rest, Cut (t.used run.2) raws rest →
      (∀ raw ∈ raws, raw.length ≤ Reply.maxLineBytes + 2) ∧ rest.length < Reply.maxLineBytes + 2 ∧
      sayings raws ≤ Reply.maxLines ∧ (rest ≠ [] → sayings raws < Reply.maxLines) ∧
      ((∀ raw ∈ raws, isEmptyLine raw = false) → raws.length ≤ Reply.maxLines)) ∧
    ∀ (awaited : Reply) (bytes behind : List UInt8) (empty : Nat) (out : Outbound), awaited.Sendable →
      Spelled awaited.code awaited.message bytes →
      t.Holds ((List.replicate empty (lineBytes "")).flatten ++ bytes ++ behind) out →
      run.1 = .ready (.ok awaited) ∧ t.used run.2 = (List.replicate empty (lineBytes "")).flatten ++ bytes := by
  intro run
  refine ⟨exists_cut _, fun raws rest hcut => ?_, fun awaited bytes behind empty out hs hspelled hh => ?_⟩
  · have hrun : t.polls reply {} now later = (run.1, run.2) := rfl
    have hread : (∃ r, ({} : ReplyReader).read (t.used run.2) = .more r) ∨
        ∃ result, ({} : ReplyReader).read (t.used run.2) = .done (result, []) := by
      rcases polls_reply hrun with ⟨hmore, -⟩ | ⟨result, hdone, -⟩
      · exact .inl hmore
      · exact .inr ⟨result, hdone⟩
    obtain ⟨hcount, hbegun⟩ := ReplyReader.read_bounded hcut hread
    refine ⟨fun raw hraw => (hcut.lines raw hraw).fits, hcut.fits, hcount, hbegun, fun hnone => ?_⟩
    rwa [← sayings_eq_length hnone]
  · obtain ⟨hresult, hheld⟩ := hh.poll reply now {}
    have hgiven : reply.exhaust {} out ((List.replicate empty (lineBytes "")).flatten ++ bytes ++ behind) =
        (.ok awaited, behind, out) := by
      simp only [Conversation.exhaust, consume_reply, hs.read (hspelled.empties empty)]
    have hrun : run = t.poll reply now {} := polls_ready hresult later
    rw [hgiven] at hresult hheld
    rw [hrun]
    exact ⟨hresult, used_eq (by rw [hh.unread]; exact congrArg _ hheld.unread.symm)⟩

/-- As many empty lines as a reply may have others, and one that says something. -/
theorem polls_bounded_idle :
    let empties := (List.replicate Reply.maxLines (lineBytes "")).flatten
    let t := new { arrivals := Arrival.script [empties ++ "250 ok\r\n".toUTF8.toList] }
    let run := t.polls reply {} 0 []
    run.1 = .ready (.ok ⟨⟨250⟩, ["ok"]⟩) ∧ t.used run.2 = empties ++ "250 ok\r\n".toUTF8.toList ∧
      ∃ raws rest, Cut (t.used run.2) raws rest ∧ sayings raws ≤ Reply.maxLines := by
  intro empties t run
  obtain ⟨⟨raws, rest, hcut⟩, hlimit, hfree⟩ := polls_bounded t 0 []
  have hspelled : Spelled ⟨250⟩ ["ok"] (lineBytes (Reply.lineOf ⟨250⟩ ' ' "ok")) := .last "ok"
  have hbytes : lineBytes (Reply.lineOf ⟨250⟩ ' ' "ok") = "250 ok\r\n".toUTF8.toList := by decide +kernel
  rw [hbytes] at hspelled
  have hholds : t.Holds (empties ++ "250 ok\r\n".toUTF8.toList ++ []) {} := by
    rw [List.append_nil, ← List.flatten_singleton (l := empties ++ "250 ok\r\n".toUTF8.toList)]
    exact holds_script _ {}
  obtain ⟨hresult, hused⟩ := hfree ⟨⟨250⟩, ["ok"]⟩ _ [] Reply.maxLines {} (by decide) hspelled hholds
  exact ⟨hresult, hused, raws, rest, hcut, (hlimit raws rest hcut).2.2.1⟩

end Transport

end SmtpClient
