/-
The two ways to disregard letter case, side by side. A text is a keyword after
raising its ASCII letters just where it is one in upper case and has none of the few
characters outside ASCII that become letters of it there (`Text.raiseAscii_eq_iff`).
So lists of names and single names are compared alike but for two characters, and
keywords of extensions but for four (`Mechanism.comparisons_agree`).
-/
import SmtpClient.Proofs.Choice
import Mathlib.Data.List.Infix

namespace SmtpClient

/-! ## Characters -/

namespace Text

/-- The characters outside ASCII whose upper case is ASCII letters. -/
def folded : List Char :=
  ['\u00df', '\u0131', '\u017f', '\ufb00', '\ufb01', '\ufb02', '\ufb03', '\ufb04', '\ufb05', '\ufb06']

/-- The small S that stands within words in old prints. -/
def longS : Char := '\u017f'

/-- The small I of Turkish that has no dot. -/
def dotlessI : Char := '\u0131'

/-- Two ways to write a small S joined to a small T. -/
def ligatures : List Char := ['\ufb05', '\ufb06']

variable {c : Char} {s word : String} {few : List Char}

theorem upperChar_cases (c : Char) : c ∈ folded ∨ upperChar c = [c.toUpper] := by
  by_cases h : c ∈ folded
  · exact .inl h
  refine .inr ?_
  rw [← Char.ofNat_toNat c] at h
  unfold upperChar
  split
  case h_11 => rfl
  all_goals next hc => exact absurd (by rw [hc]; decide) h

theorem upper_of_unfolded (h : ∀ c ∈ s.toList, c ∉ folded) : upper s = raiseAscii s := by
  have hchars : s.toList.flatMap upperChar = s.toList.flatMap fun c => [c.toUpper] :=
    List.flatMap_congr fun c hc => (upperChar_cases c).resolve_left (h c hc)
  rw [upper, raiseAscii, hchars, ← List.map_eq_flatMap]

/-- What a character becomes stands in what its text becomes. -/
theorem upperChar_part (h : c ∈ s.toList) : upperChar c <:+: (upper s).toList := by
  obtain ⟨before, after, hs⟩ := List.append_of_mem h
  refine ⟨before.flatMap upperChar, after.flatMap upperChar, ?_⟩
  rw [upper, String.toList_ofList, hs, List.flatMap_append, List.flatMap_cons, List.append_assoc]

/-- In upper case, with no character that is folded. -/
def isKeyword (word : String) : Bool :=
  upper word == word && word.toList.all fun c => c ∉ folded

/-- A text is a keyword after raising just where it is one in upper case and has none
of the folded characters that can make up a part of that. -/
theorem raiseAscii_eq_iff (hw : isKeyword word = true) (hfew : few ⊆ folded)
    (hpart : folded.filter (upperChar · <:+: word.toList) ⊆ few) :
    raiseAscii s = word ↔ upper s = word ∧ ∀ c ∈ few, c ∉ s.toList := by
  simp only [isKeyword, Bool.and_eq_true, beq_iff_eq, List.all_eq_true, decide_eq_true_eq] at hw
  obtain ⟨hraised, hunfolded⟩ := hw
  constructor
  · rintro rfl
    rw [upper_raiseAscii] at hraised
    refine ⟨hraised, fun c hc hmem => hunfolded c ?_ (hfew hc)⟩
    -- As lists: a statement on the members of one is decided by trying all characters.
    have hsame : folded.map Char.toUpper = folded.map id := by decide
    rw [toList_raiseAscii, ← id_eq c, ← List.map_inj_left.1 hsame c (hfew hc)]
    exact List.mem_map_of_mem hmem
  · rintro ⟨rfl, hnone⟩
    refine (upper_of_unfolded fun c hc hfold => hnone c (hpart ?_) hc).symm
    exact List.mem_filter.2 ⟨hfold, decide_eq_true (upperChar_part hc)⟩

/-! ## Words -/

theorem runs_bare {cs : List Char} (hne : cs ≠ []) (h : ∀ c ∈ cs, isBlank c = false) : runs cs = [cs] := by
  induction cs with
  | nil => exact absurd rfl hne
  | cons c cs ih =>
    obtain ⟨hc, hcs⟩ := List.forall_mem_cons.1 h
    cases cs with
    | nil => simp [runs, hc]
    | cons d cs =>
      have hd : isBlank d = false := hcs d List.mem_cons_self
      rw [runs]
      simp only [hc, hd, ih (List.cons_ne_nil d cs) hcs]
      rfl

end Text

/-! ## Names of mechanisms -/

namespace Mechanism

variable {s : String} {m : Mechanism}

theorem ofName?_eq_some_iff : ofName? s = some m ↔ Text.upper s = m.name := by
  constructor
  · intro h
    have hname := List.find?_some h
    exact (eq_of_beq hname).symm
  · intro h
    cases hf : ofName? s with
    | none =>
      have hnone := List.find?_eq_none.1 hf m m.mem_all
      exact absurd (beq_iff_eq.2 h.symm) hnone
    | some n =>
      have hname := List.find?_some hf
      rw [name_injective ((eq_of_beq hname).trans h)]

/-- A list of one word is the name that the word is. -/
theorem names_eq_singleton (h : ∀ c ∈ s.toList, Text.isBlank c = false) :
    names s = [m.name] ↔ Text.raiseAscii s = m.name := by
  by_cases hs : s.toList = []
  · obtain rfl : s = "" := String.toList_inj.1 hs
    refine iff_of_false nofun fun he => ?_
    cases m <;> revert he <;> decide
  · have hwords : Text.words s = [s] := by
      rw [Text.words, Text.runs_bare hs h, List.map_singleton, String.ofList_toList]
    rw [names, hwords]
    simp [distinct]

end Mechanism

/-! ## Keywords of extensions -/

namespace Extension

/-- The keywords that are known. -/
def keywords : List String :=
  ["STARTTLS", "AUTH", "SIZE", "8BITMIME", "PIPELINING", "SMTPUTF8"]

/-- The keyword of an extension. -/
def word? : Extension → Option String
  | startTls => some "STARTTLS"
  | auth _ => some "AUTH"
  | size _ => some "SIZE"
  | eightBitMime => some "8BITMIME"
  | pipelining => some "PIPELINING"
  | smtpUtf8 => some "SMTPUTF8"
  | unknown _ => none

theorem parse_word? {line word : String} :
    (parse line).word? = some word ↔ word ∈ keywords ∧ keyword line = word := by
  have hknown : ∀ known ∈ keywords, keyword line = known →
      (some known = some word ↔ word ∈ keywords ∧ keyword line = word) := by
    intro known hmem hline
    rw [hline, Option.some_inj]
    exact ⟨fun he => ⟨he ▸ hmem, he⟩, fun h => h.2⟩
  simp only [parse]
  split
  case h_7 hstart hauth hsize hmime hpipe hutf8 =>
    constructor
    · intro he
      cases he
    · rintro ⟨hw, rfl⟩
      simp only [keywords, List.mem_cons, List.not_mem_nil, or_false] at hw
      rcases hw with hw | hw | hw | hw | hw | hw
      · exact absurd hw hstart
      · exact absurd hw hauth
      · exact absurd hw hsize
      · exact absurd hw hmime
      · exact absurd hw hpipe
      · exact absurd hw hutf8
  all_goals next h => exact hknown _ (by decide) h

end Extension

/-! ## The comparisons -/

namespace Mechanism

open Text (longS dotlessI ligatures)

/-- A single name is a mechanism's where a list of it is, but for two characters. -/
theorem raiseAscii_eq_name {s : String} {m : Mechanism} :
    Text.raiseAscii s = m.name ↔ ofName? s = some m ∧ ∀ c ∈ [longS, dotlessI], c ∉ s.toList := by
  rw [ofName?_eq_some_iff]
  refine Text.raiseAscii_eq_iff ?_ (by decide) ?_
  · cases m <;> decide
  · cases m <;> decide

/-- A line has a known keyword where it has it in raised letters, but for these two
characters and the ligatures of a long and a plain S with a T. -/
theorem raiseAscii_eq_keyword {line word : String} (hw : word ∈ Extension.keywords) :
    Text.raiseAscii (Extension.splitKeyword (Text.trim line)).1 = word ↔
      (Extension.parse line).word? = some word ∧
        ∀ c ∈ [longS, dotlessI] ++ ligatures, c ∉ (Extension.splitKeyword (Text.trim line)).1.toList := by
  have hwords : ∀ word ∈ Extension.keywords, Text.isKeyword word = true ∧
      Text.folded.filter (Text.upperChar · <:+: word.toList) ⊆ [longS, dotlessI] ++ ligatures := by decide
  rw [Extension.parse_word?, and_iff_right hw, Extension.keyword]
  exact Text.raiseAscii_eq_iff (hwords word hw).1 (by decide) (hwords word hw).2

/-- **The comparisons agree**, but for few characters. For a text without blanks, a
list of names is that of one mechanism, and a server's offer of it is that mechanism,
just where raising its ASCII letters gives the name; the comparison of a single name
takes more texts for a name, those with a long S or a dotless I for a letter. Of a line
of extensions the keyword is compared in the second way, so there too such texts are
taken for keywords, and those with a ligature of S and T; no others are. -/
theorem comparisons_agree {s : String} (hs : ∀ c ∈ s.toList, Text.isBlank c = false) (m : Mechanism)
    (line : String) :
    (names s = [m.name] ↔ Text.raiseAscii s = m.name) ∧
    (m.name ∈ Sasl.selectable [s] [] ↔ Text.raiseAscii s = m.name) ∧
    (names s = [m.name] ↔ ofName? s = some m ∧ ∀ c ∈ [longS, dotlessI], c ∉ s.toList) ∧
    ∀ word ∈ Extension.keywords,
      let text := (Extension.splitKeyword (Text.trim line)).1
      Text.raiseAscii text = word ↔
        (Extension.parse line).word? = some word ∧ ∀ c ∈ [longS, dotlessI] ++ ligatures, c ∉ text.toList := by
  refine ⟨names_eq_singleton hs, ?_, ?_, fun word hw => raiseAscii_eq_keyword hw⟩
  · simp [Sasl.mem_selectable]
  · rw [names_eq_singleton hs, raiseAscii_eq_name]

/-- A name and a keyword with a long S, which are not what raising makes of them. -/
theorem comparisons_agree_folded :
    ofName? "cram-\u017fha1" = some .cramSha1 ∧ names "cram-\u017fha1" ≠ [cramSha1.name] ∧
      Extension.parse "\u017fTARTTLS" = .startTls ∧ Text.raiseAscii "\u017fTARTTLS" ≠ "STARTTLS" := by
  have hall : ("cram-\u017fha1".toList.all fun c => !Text.isBlank c) = true := by decide
  have hs : ∀ c ∈ "cram-\u017fha1".toList, Text.isBlank c = false := by
    intro c hc
    simpa using List.all_eq_true.1 hall c hc
  obtain ⟨-, -, hnames, hkeyword⟩ := comparisons_agree hs .cramSha1 "\u017fTARTTLS"
  refine ⟨by decide +kernel, fun he => ?_, by decide +kernel, fun he => ?_⟩
  · exact (hnames.1 he).2 longS (by decide) (by decide)
  · have htext : (Extension.splitKeyword (Text.trim "\u017fTARTTLS")).1 = "\u017fTARTTLS" := by decide +kernel
    refine ((hkeyword "STARTTLS" (by decide)).1 (htext ▸ he)).2 longS (by decide) ?_
    rw [htext]
    decide

end Mechanism

end SmtpClient
