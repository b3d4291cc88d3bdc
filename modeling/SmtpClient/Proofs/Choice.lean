/-
Which mechanism a login names. Both lists that decide it are read as sets of
raised names: the server's from the lines of its reply to EHLO, the client's
from its allow-list (`Sasl.mem_selectable_lines`). The preferred member of
both is named (`Attempt.follow_chosen`), so neither order nor repetition nor
letter case has a say in it.
-/
import Mathlib.Data.List.Sort
import Mathlib.Data.Set.Basic
import Mathlib.Data.String.Basic
import SmtpClient.Proofs.Language

namespace SmtpClient

/-! ## Letter case -/

namespace Text

/-- A character is its own upper case, or one of the 26 small letters. -/
theorem toUpper_cases (c : Char) : c.toUpper = c ∨ ∃ n < 26, c = Char.ofNat (n + 97) := by
  unfold Char.toUpper
  split
  · next h =>
    have hlow : 97 ≤ c.toNat := UInt32.le_iff_toNat_le.1 h.1
    have hhigh : c.toNat ≤ 122 := UInt32.le_iff_toNat_le.1 h.2
    refine .inr ⟨c.toNat - 97, by omega, ?_⟩
    rw [Nat.sub_add_cancel hlow, Char.ofNat_toNat]
  · exact .inl rfl

/-- What does not tell the small letters from the raised ones disregards case. -/
theorem toUpper_keeps {α : Type} {f : Char → α}
    (h : ∀ n < 26, f (Char.ofNat (n + 97)).toUpper = f (Char.ofNat (n + 97))) (c : Char) : f c.toUpper = f c := by
  rcases toUpper_cases c with hc | ⟨n, hn, rfl⟩
  · rw [hc]
  · exact h n hn

@[simp] theorem isBlank_toUpper (c : Char) : isBlank c.toUpper = isBlank c :=
  toUpper_keeps (by decide) c

@[simp] theorem upperChar_toUpper (c : Char) : upperChar c.toUpper = upperChar c :=
  toUpper_keeps (by decide) c

@[simp] theorem toUpper_toUpper (c : Char) : c.toUpper.toUpper = c.toUpper :=
  toUpper_keeps (by decide) c

theorem toList_raiseAscii (s : String) : (raiseAscii s).toList = s.toList.map Char.toUpper :=
  String.toList_ofList

@[simp] theorem raiseAscii_raiseAscii (s : String) : raiseAscii (raiseAscii s) = raiseAscii s := by
  simp [raiseAscii, Function.comp_def]

theorem upper_raiseAscii (s : String) : upper (raiseAscii s) = upper s := by
  simp [upper, toList_raiseAscii, List.flatMap_map]

theorem trim_raiseAscii (s : String) : trim (raiseAscii s) = raiseAscii (trim s) := by
  simp [trim, trimBlanks, raiseAscii, List.dropWhile_map, ← List.map_reverse, Function.comp_def]

theorem runs_toUpper (cs : List Char) : runs (cs.map Char.toUpper) = (runs cs).map (List.map Char.toUpper) := by
  induction cs with
  | nil => rfl
  | cons c cs ih =>
    simp only [List.map_cons, runs, isBlank_toUpper, ih]
    by_cases hc : isBlank c = true
    · rw [if_pos hc, if_pos hc]
    rw [if_neg hc, if_neg hc]
    -- Where a word goes on, its first character joins the word behind it.
    cases cs with
    | nil => rfl
    | cons d cs =>
      simp only [List.map_cons, isBlank_toUpper]
      by_cases hd : isBlank d = true
      · rw [if_pos hd, if_pos hd]
        rfl
      rw [if_neg hd, if_neg hd]
      cases runs (d :: cs) <;> rfl

theorem words_raiseAscii (s : String) : words (raiseAscii s) = (words s).map raiseAscii := by
  simp [words, runs_toUpper, raiseAscii, Function.comp_def]

end Text

/-! ## Names as sets -/

variable {name : String} {names : List String}

theorem Mechanism.mem_distinct {seen : List String} : name ∈ distinct seen names ↔ name ∈ names ∧ name ∉ seen := by
  induction names generalizing seen with
  | nil => simp [distinct]
  | cons other names ih =>
    simp only [distinct]
    by_cases hname : name = other
    · subst hname
      by_cases hseen : name ∈ seen <;> simp [hseen, ih]
    · by_cases hseen : other ∈ seen <;> simp [hname, hseen, ih]

namespace Sasl

/-- The raised names of a blank-separated list. -/
def listed (list : String) : Set String :=
  {name | ∃ word ∈ Text.words list, Text.raiseAscii word = name}

theorem raiseAscii_of_listed {list : String} (h : name ∈ listed list) : Text.raiseAscii name = name := by
  obtain ⟨word, -, rfl⟩ := h
  exact Text.raiseAscii_raiseAscii word

theorem listed_raiseAscii (list : String) : listed (Text.raiseAscii list) = listed list := by
  simp [listed, Text.words_raiseAscii]

theorem mem_names {list : String} : name ∈ Mechanism.names list ↔ name ∈ listed list := by
  simp [Mechanism.names, Mechanism.mem_distinct, listed]

theorem names_eq_nil {list : String} : Mechanism.names list = [] ↔ ¬ (listed list).Nonempty := by
  simp only [List.eq_nil_iff_forall_not_mem, mem_names, Set.not_nonempty_iff_eq_empty,
    Set.eq_empty_iff_forall_notMem]

theorem mem_insertName {other : String} : name ∈ insertName other names ↔ name = other ∨ name ∈ names := by
  induction names with
  | nil => simp [insertName]
  | cons first names ih =>
    simp only [insertName]
    split
    · exact List.mem_cons
    split
    · next he => simp [he]
    · rw [List.mem_cons, ih, List.mem_cons, or_left_comm]

theorem mem_nameSet : name ∈ nameSet names ↔ name ∈ names := by
  induction names with
  | nil => simp [nameSet]
  | cons first names ih => rw [nameSet, List.foldr_cons, ← nameSet, mem_insertName, ih, List.mem_cons]

theorem insertName_ascending {other : String} (h : names.Pairwise (· < ·)) :
    (insertName other names).Pairwise (· < ·) := by
  induction names with
  | nil => simp [insertName]
  | cons first names ih =>
    obtain ⟨hfirst, hnames⟩ := List.pairwise_cons.1 h
    simp only [insertName]
    split
    · next hlt =>
      refine List.pairwise_cons.2 ⟨fun n hn => ?_, h⟩
      rcases List.mem_cons.1 hn with rfl | hn
      · exact hlt
      · exact hlt.trans (hfirst n hn)
    split
    · exact h
    · next hge hne =>
      refine List.pairwise_cons.2 ⟨fun n hn => ?_, ih hnames⟩
      rcases mem_insertName.1 hn with rfl | hn
      · exact lt_of_le_of_ne (not_lt.1 hge) (Ne.symm hne)
      · exact hfirst n hn

theorem nameSet_ascending (names : List String) : (nameSet names).Pairwise (· < ·) := by
  induction names with
  | nil => exact .nil
  | cons first names ih => exact insertName_ascending ih

theorem mem_selectable {advertised allowList : List String} :
    name ∈ selectable advertised allowList ↔ (∃ a ∈ advertised, Text.raiseAscii a = name) ∧
      (allowList = [] ∨ ∃ a ∈ allowList, Text.raiseAscii a = name) := by
  simp [selectable, mem_nameSet]

theorem selectable_ascending (advertised allowList : List String) :
    (selectable advertised allowList).Pairwise (· < ·) :=
  nameSet_ascending _

end Sasl

/-! ## Lines of extensions -/

namespace Extension

def keyword (line : String) : String :=
  Text.upper (splitKeyword (Text.trim line)).1

/-- The text behind the keyword. -/
def params (line : String) : String :=
  (splitKeyword (Text.trim line)).2

theorem parse_auth {line : String} {names : List String} :
    parse line = .auth names ↔ keyword line = "AUTH" ∧ names = Mechanism.names (params line) := by
  simp only [parse]
  split
  case h_2 h => simp [keyword, params, h, eq_comm]
  case h_7 hauth _ _ _ _ => exact ⟨nofun, fun h => absurd h.1 hauth⟩
  all_goals next h => simp [keyword, h]

@[simp] theorem endsKeyword_toUpper (c : Char) : endsKeyword c.toUpper = endsKeyword c :=
  Text.toUpper_keeps (by decide) c

theorem splitKeyword_raiseAscii (s : String) :
    splitKeyword (Text.raiseAscii s) = (Text.raiseAscii (splitKeyword s).1, Text.raiseAscii (splitKeyword s).2) := by
  simp [splitKeyword, Text.raiseAscii, List.takeWhile_map, List.dropWhile_map, Function.comp_def]

/-- Lines with the same keyword and the same set of names behind it, in any
order, number and letter case. -/
def Alike (line line' : String) : Prop :=
  keyword line = keyword line' ∧ Sasl.listed (params line) = Sasl.listed (params line')

theorem alike_of_raiseAscii {line line' : String} (h : Text.raiseAscii line = Text.raiseAscii line') :
    Alike line line' := by
  have hraised : ∀ line, keyword (Text.raiseAscii line) = keyword line ∧
      Sasl.listed (params (Text.raiseAscii line)) = Sasl.listed (params line) := by
    intro line
    simp only [keyword, params, Text.trim_raiseAscii, splitKeyword_raiseAscii, Text.upper_raiseAscii,
      Sasl.listed_raiseAscii, and_self]
  obtain ⟨hkeyword, hparams⟩ := hraised line
  obtain ⟨hkeyword', hparams'⟩ := hraised line'
  exact ⟨by rw [← hkeyword, h, hkeyword'], by rw [← hparams, h, hparams']⟩

end Extension

/-! ## The choice -/

namespace Sasl

variable {name : String} {lines lines' : List String} {list list' : String} {exts : List Extension}

/-- The raised names on the lines that offer login mechanisms. -/
def offered (lines : List String) : Set String :=
  {name | ∃ line ∈ lines, (∃ names, Extension.parse line = .auth names) ∧ name ∈ listed (Extension.params line)}

theorem mem_offered : name ∈ offered lines ↔
    ∃ line ∈ lines, (∃ names, Extension.parse line = .auth names) ∧ name ∈ listed (Extension.params line) := Iff.rfl

/-- A name that the server offers and the allow-list admits. -/
def Usable (offer allow : Set String) (name : String) : Prop :=
  name ∈ offer ∧ (allow.Nonempty → name ∈ allow)

/-- Extensions that lines offer, in any order. -/
def Gathers (exts : List Extension) (lines : List String) : Prop :=
  ∀ e, e ∈ exts ↔ ∃ line ∈ lines, Extension.parse line = e

theorem gathers_extensionsOf (lines : List String) : Gathers (ServerInfo.extensionsOf lines) lines := by
  simp [Gathers, ServerInfo.extensionsOf]

theorem mem_authMechanisms {hostname : String} :
    name ∈ ServerInfo.authMechanisms { hostname, extensions := exts } ↔
      ∃ names, .auth names ∈ exts ∧ name ∈ names := by
  simp only [ServerInfo.authMechanisms, List.mem_eraseDups, List.mem_flatMap]
  constructor
  · rintro ⟨e, he, hname⟩
    split at hname
    · exact ⟨_, he, hname⟩
    · exact absurd hname List.not_mem_nil
  · rintro ⟨names, he, hname⟩
    exact ⟨_, he, hname⟩

theorem mem_authMechanisms_lines {hostname : String} (h : Gathers exts lines) :
    name ∈ ServerInfo.authMechanisms { hostname, extensions := exts } ↔ name ∈ offered lines := by
  rw [mem_authMechanisms, mem_offered]
  constructor
  · rintro ⟨names, he, hname⟩
    obtain ⟨line, hline, hparse⟩ := (h _).1 he
    have hnames := (Extension.parse_auth.1 hparse).2
    exact ⟨line, hline, ⟨names, hparse⟩, mem_names.1 (hnames ▸ hname)⟩
  · rintro ⟨line, hline, ⟨names, hparse⟩, hname⟩
    have hnames := (Extension.parse_auth.1 hparse).2
    exact ⟨names, (h _).2 ⟨line, hline, hparse⟩, hnames ▸ mem_names.2 hname⟩

/-- The names that both sides accept. -/
theorem mem_selectable_lines {hostname : String} (h : Gathers exts lines) :
    name ∈ selectable (ServerInfo.authMechanisms { hostname, extensions := exts }) (Mechanism.names list) ↔
      Usable (offered lines) (listed list) name := by
  have hraised : ∀ {p : String → Prop}, (∀ a, p a → Text.raiseAscii a = a) →
      ((∃ a, p a ∧ Text.raiseAscii a = name) ↔ p name) := by
    intro p hp
    refine ⟨fun ⟨a, ha, he⟩ => ?_, fun hn => ⟨name, hn, hp name hn⟩⟩
    rw [← he, hp a ha]
    exact ha
  have hoffer : ∀ a, a ∈ offered lines → Text.raiseAscii a = a := by
    intro a ha
    obtain ⟨line, -, -, ha⟩ := mem_offered.1 ha
    exact raiseAscii_of_listed ha
  simp only [mem_selectable, mem_authMechanisms_lines h, mem_names, names_eq_nil, hraised hoffer,
    hraised fun a ha => raiseAscii_of_listed ha, Usable, imp_iff_not_or]

theorem offered_alike (h : ∀ line ∈ lines, ∃ line' ∈ lines', Extension.Alike line line') :
    offered lines ⊆ offered lines' := by
  intro name hname
  obtain ⟨line, hline, ⟨names, hparse⟩, hlisted⟩ := mem_offered.1 hname
  obtain ⟨line', hline', hkeyword, hparams⟩ := h line hline
  have hauth := (Extension.parse_auth.1 hparse).1
  exact mem_offered.2 ⟨line', hline', ⟨_, Extension.parse_auth.2 ⟨hkeyword ▸ hauth, rfl⟩⟩, hparams ▸ hlisted⟩

/-- Lines that offer the same, up to order, repetition and letter case. -/
def Agree (lines lines' : List String) : Prop :=
  (∀ line ∈ lines, ∃ line' ∈ lines', Extension.Alike line line') ∧
    ∀ line' ∈ lines', ∃ line ∈ lines, Extension.Alike line' line

theorem Agree.offered_eq (h : Agree lines lines') : offered lines = offered lines' :=
  Set.Subset.antisymm (offered_alike h.1) (offered_alike h.2)

/-- Nothing but the two sets of names counts. -/
theorem selectable_agree {hostname hostname' : String} {exts' : List Extension} (h : Gathers exts lines)
    (h' : Gathers exts' lines') (hlines : Agree lines lines') (hlist : listed list = listed list') :
    selectable (ServerInfo.authMechanisms { hostname, extensions := exts }) (Mechanism.names list) =
      selectable (ServerInfo.authMechanisms { hostname := hostname', extensions := exts' })
        (Mechanism.names list') := by
  refine (selectable_ascending ..).eq_of_mem_iff (selectable_ascending ..) fun name => ?_
  rw [mem_selectable_lines h, mem_selectable_lines h', hlines.offered_eq, hlist]

/-- The first mechanism in order of preference with this property. -/
def First (usable : String → Prop) (m : Mechanism) : Prop :=
  ∃ better worse, priority = better ++ m :: worse ∧ usable m.name ∧ ∀ m' ∈ better, ¬ usable m'.name

theorem preferred_first {allowed : List String} {m : Mechanism} (h : preferred allowed = some m) :
    First (· ∈ allowed) m := by
  obtain ⟨hm, better, worse, hpriority, hbetter⟩ := List.find?_eq_some_iff_append.1 h
  exact ⟨better, worse, hpriority, by simpa using hm, fun m' hm' => by simpa using hbetter m' hm'⟩

end Sasl

namespace Attempt

open Handshake Sasl

/-- **The mechanism is decided by sets of names.** A login follows directly on
an accepted EHLO and names the first mechanism that the lines of the reply
offer and the allow-list, if it lists any name, admits. A session is the same
for all lines and lists with these sets of names, in whatever order the
extensions are kept; and letter case makes no difference to a line. -/
theorem follow_chosen (b : ConfigBuilder) (list : String) (peer : Peer) (begun : Nat) (polls : List Nat) :
    let config := (b.withAuthMethods list).build
    (∀ before m initial after, (follow config peer begun polls).1 = before ++ .said (.auth m initial) :: after →
      ∃ earlier reply, before = earlier ++ [.said (.ehlo config.ehloHostname), .heard reply] ∧
        reply.isSuccess = true ∧ First (Usable (offered (reply.message.drop 1)) (listed list)) m) ∧
    (∀ lines lines' list' hostname exts, Agree lines lines' → listed list = listed list' → Gathers exts lines' →
      AuthSession.new config (ServerInfo.authMechanisms { hostname, extensions := ServerInfo.extensionsOf lines }) =
        AuthSession.new (b.withAuthMethods list').build
          (ServerInfo.authMechanisms { hostname, extensions := exts })) ∧
    ∀ line line', Text.raiseAscii line = Text.raiseAscii line' → Extension.Alike line line' := by
  intro config
  refine ⟨fun before m initial after hrun => ?_, fun lines lines' list' hostname exts hlines hlist hexts => ?_,
    fun line line' => Extension.alike_of_raiseAscii⟩
  · have hspoken := (follow_stage config peer begun polls).along.spoken
    obtain ⟨-, -, earlier, reply, hbefore, hok, hm⟩ := hspoken _ _ _ hrun
    have hallowed : ∀ name, name ∈ selectable (advertised reply) config.authMethods ↔
        Usable (offered (reply.message.drop 1)) (listed list) name := fun name =>
      mem_selectable_lines (gathers_extensionsOf _)
    have hfirst := preferred_first hm
    simp only [hallowed] at hfirst
    exact ⟨earlier, reply, hbefore, hok, hfirst⟩
  · have hsame : selectable (ServerInfo.authMechanisms { hostname, extensions := ServerInfo.extensionsOf lines })
        config.authMethods = selectable (ServerInfo.authMechanisms { hostname, extensions := exts })
        (b.withAuthMethods list').build.authMethods :=
      selectable_agree (gathers_extensionsOf lines) hexts hlines hlist
    simp only [AuthSession.new, hsame]
    rfl

/-! A server that offers mechanisms on two lines, and an allow-list that admits
only one of them that can be run. -/

def profuse : Peer where
  connect := .ok { arrivals := [
    .data "220 mx\r\n250-mx\r\n250-AUTH=PLAIN cram-md5\r\n250 AUTH Login plain LOGIN\r\n".toUTF8.toList] }
  upgrade := .ok

def selective : ConfigBuilder :=
  ((ConfigBuilder.new "mx").withSecurity .none).withCredentials "u" "p"

theorem follow_chosen_narrowed :
    let config := (selective.withAuthMethods "x-other\tlogin").build
    ∃ before after, (follow config profuse 0 [0]).1 = before ++ .said (.auth .login none) :: after ∧
      ∃ earlier reply, before = earlier ++ [.said (.ehlo config.ehloHostname), .heard reply] ∧
        reply.isSuccess = true ∧
        First (Usable (offered (reply.message.drop 1)) (listed "x-other\tlogin")) .login := by
  intro config
  have hrun : (follow config profuse 0 [0]).1 =
      (follow config profuse 0 [0]).1.take 3 ++ .said (.auth .login none) :: [] := by decide +kernel
  exact ⟨_, _, hrun, (follow_chosen selective "x-other\tlogin" profuse 0 [0]).1 _ _ _ _ hrun⟩

end Attempt

end SmtpClient
