/-
The messages that open a login. Each of the three formats has a reader, and
what it reads is exactly what the mechanism writes (`readOpening?_eq_some_iff`),
because no field holds the character that ends it: the credentials not the
separator, and an escaped name no comma (`unescape?_eq_some_iff`).
-/
import SmtpClient.Proofs.Encoding
import SmtpClient.Proofs.Login

namespace SmtpClient.Sasl

/-! ## Fields -/

/-- What stands before and behind the first `separator`. -/
def cutAt (separator : Char) : List Char → Option (List Char × List Char)
  | [] => none
  | c :: cs =>
    if c = separator then some ([], cs)
    else (cutAt separator cs).map fun (before, behind) => (c :: before, behind)

variable {separator : Char} {cs before behind : List Char}

theorem cutAt_append (h : separator ∉ before) (behind : List Char) :
    cutAt separator (before ++ separator :: behind) = some (before, behind) := by
  induction before with
  | nil => simp [cutAt]
  | cons c before ih =>
    obtain ⟨hc, hbefore⟩ := not_or.1 (mt List.mem_cons.2 h)
    rw [List.cons_append, cutAt, if_neg (Ne.symm hc), ih hbefore]
    rfl

theorem eq_of_cutAt (h : cutAt separator cs = some (before, behind)) :
    cs = before ++ separator :: behind ∧ separator ∉ before := by
  induction cs generalizing before with
  | nil => cases h
  | cons c cs ih =>
    rw [cutAt] at h
    split at h
    · next hc => cases h; exact ⟨by rw [hc, List.nil_append], List.not_mem_nil⟩
    · next hc =>
      obtain ⟨⟨first, rest⟩, hcut, he⟩ := Option.map_eq_some_iff.1 h
      cases he
      obtain ⟨rfl, hfirst⟩ := ih hcut
      exact ⟨rfl, List.not_mem_cons_of_ne_of_not_mem (Ne.symm hc) hfirst⟩

theorem cutAt_eq_some_iff :
    cutAt separator cs = some (before, behind) ↔ cs = before ++ separator :: behind ∧ separator ∉ before :=
  ⟨eq_of_cutAt, fun ⟨he, hb⟩ => he ▸ cutAt_append hb behind⟩

/-! ## Names -/

/-- A character of a name as OAUTHBEARER writes it. -/
def escapeChar (c : Char) : List Char :=
  if c = '=' then ['=', '3', 'D'] else if c = ',' then ['=', '2', 'C'] else [c]

theorem toList_saslName (name : String) : (Client.saslName name).toList = name.toList.flatMap escapeChar :=
  String.toList_ofList

/-- A name without its escapes (RFC 5801); none if it holds a bare `=` or `,`. -/
def unescape? : List Char → Option (List Char)
  | [] => some []
  | '=' :: '3' :: 'D' :: cs => (unescape? cs).map ('=' :: ·)
  | '=' :: '2' :: 'C' :: cs => (unescape? cs).map (',' :: ·)
  | c :: cs => if c = '=' ∨ c = ',' then none else (unescape? cs).map (c :: ·)

theorem unescape?_escape (name : List Char) : unescape? (name.flatMap escapeChar) = some name := by
  induction name with
  | nil => rfl
  | cons c name ih =>
    rw [List.flatMap_cons, escapeChar]
    by_cases heq : c = '='
    · subst heq
      simp [unescape?, ih]
    by_cases hcomma : c = ','
    · subst hcomma
      simp [unescape?, ih]
    · simp [unescape?, heq, hcomma, ih]

theorem eq_escape_of_unescape? {cs name : List Char} (h : unescape? cs = some name) :
    cs = name.flatMap escapeChar := by
  fun_induction unescape? cs generalizing name with
  | case1 => cases h; rfl
  | case2 cs ih | case3 cs ih =>
    obtain ⟨later, hl, rfl⟩ := Option.map_eq_some_iff.1 h
    rw [ih hl]
    rfl
  | case4 => cases h
  | case5 c cs _ _ hc ih =>
    obtain ⟨later, hl, rfl⟩ := Option.map_eq_some_iff.1 h
    obtain ⟨heq, hcomma⟩ := not_or.1 hc
    rw [ih hl, List.flatMap_cons, escapeChar, if_neg heq, if_neg hcomma]
    rfl

/-- **Escapes can be undone**, and nothing else can. -/
theorem unescape?_eq_some_iff {cs name : List Char} : unescape? cs = some name ↔ cs = name.flatMap escapeChar :=
  ⟨eq_escape_of_unescape?, fun h => h ▸ unescape?_escape name⟩

theorem comma_notMem_escape (name : List Char) : ',' ∉ name.flatMap escapeChar := by
  intro hmem
  obtain ⟨c, -, hc⟩ := List.mem_flatMap.1 hmem
  unfold escapeChar at hc
  split at hc
  · simp at hc
  split at hc
  · simp at hc
  · next hcomma => exact hcomma (List.mem_singleton.1 hc).symm

/-- Only the first character of an escape is an equals sign. -/
theorem escapeChar_equals {c : Char} {before behind : List Char} (h : escapeChar c = before ++ '=' :: behind) :
    behind = ['2', 'C'] ∨ behind = ['3', 'D'] := by
  have htail : '=' ∉ (escapeChar c).tail := by
    unfold escapeChar
    split
    · decide
    split
    · decide
    · simp
  cases before with
  | cons first before => rw [h] at htail; exact absurd (by simp) htail
  | nil =>
    unfold escapeChar at h
    split at h
    · exact .inr (List.cons.inj h).2.symm
    split at h
    · exact .inl (List.cons.inj h).2.symm
    · next hc _ => exact absurd (List.cons.inj h).1 hc

/-- An equals sign begins an escape. -/
theorem escape_equals {name before behind : List Char} (h : name.flatMap escapeChar = before ++ '=' :: behind) :
    ∃ rest, behind = '2' :: 'C' :: rest ∨ behind = '3' :: 'D' :: rest := by
  induction name generalizing before with
  | nil => simp at h
  | cons c name ih =>
    rw [List.flatMap_cons] at h
    rcases List.append_eq_append_iff.1 h with ⟨more, -, hrest⟩ | ⟨more, hchar, hrest⟩
    · exact ih hrest
    -- The sign stands where the next character begins, or in what `c` is written as.
    cases more with
    | nil =>
      have hbegins : name.flatMap escapeChar = [] ++ '=' :: behind := hrest.symm
      exact ih hbegins
    | cons first more =>
      obtain ⟨rfl, rfl⟩ := List.cons.inj hrest
      rcases escapeChar_equals hchar with rfl | rfl
      · exact ⟨_, .inl rfl⟩
      · exact ⟨_, .inr rfl⟩

/-- Characters with each `c` replaced. -/
def replaced (c : Char) (text : List Char) (cs : List Char) : List Char :=
  cs.flatMap fun d => if d = c then text else [d]

/-- The equals signs are replaced first, so those of the other escapes stay. -/
theorem escape_eq_replaced (name : List Char) :
    name.flatMap escapeChar = replaced ',' "=2C".toList (replaced '=' "=3D".toList name) := by
  rw [replaced, replaced, List.flatMap_assoc]
  refine List.flatMap_congr fun c _ => ?_
  unfold escapeChar
  split
  · rfl
  · split <;> simp_all

/-! ## Messages -/

/-- The character that ends the fields of a mechanism's first message. -/
def separator? : Mechanism → Option Char
  | .plain => some nul
  | .xoauth2 | .oauthBearer => some controlA
  | .login | .cramMd5 | .cramSha1 | .cramSha256 => none

/-- The credentials in a message of PLAIN. -/
def readPlain? (cs : List Char) : Option (List Char × List Char) := do
  let (authorization, cs) ← cutAt nul cs
  let (username, password) ← cutAt nul cs
  if authorization = [] ∧ nul ∉ password then some (username, password) else none

/-- The token in the last field of a token mechanism's message. -/
def readToken? (cs : List Char) : Option (List Char) := do
  let cs ← cs.dropPrefix? "auth=Bearer ".toList
  let (token, cs) ← cutAt controlA cs
  if cs = [controlA] then some token else none

/-- The credentials in a message of XOAUTH2. -/
def readXoauth2? (cs : List Char) : Option (List Char × List Char) := do
  let cs ← cs.dropPrefix? "user=".toList
  let (username, cs) ← cutAt controlA cs
  let token ← readToken? cs
  some (username, token)

/-- The credentials in a message of OAUTHBEARER. -/
def readOauthBearer? (cs : List Char) : Option (List Char × List Char) := do
  let cs ← cs.dropPrefix? "n,a=".toList
  let (name, cs) ← cutAt ',' cs
  let username ← unescape? name
  let cs ← cs.dropPrefix? [controlA]
  let token ← readToken? cs
  if controlA ∉ username then some (username, token) else none

/-- The credentials in the characters of a mechanism's first message. -/
def readMessage? : Mechanism → List Char → Option (List Char × List Char)
  | .plain => readPlain?
  | .xoauth2 => readXoauth2?
  | .oauthBearer => readOauthBearer?
  | .login | .cramMd5 | .cramSha1 | .cramSha256 => fun _ => none

/-- The credentials in the bytes of a mechanism's first message. -/
def readOpening? (m : Mechanism) (bytes : List UInt8) : Option (String × String) :=
  match Text.Utf8.decode bytes with
  | .ok text => (readMessage? m text.toList).map fun (username, password) =>
      (String.ofList username, String.ofList password)
  | .error _ => none

variable {username password token : List Char}

/-- A text without its beginning. -/
theorem dropPrefix?_iff {start rest : List Char} : cs.dropPrefix? start = some rest ↔ cs = start ++ rest := by
  simp [List.dropPrefix?_eq_some_iff]

theorem readPlain?_eq_some_iff : readPlain? cs = some (username, password) ↔
    cs = nul :: username ++ nul :: password ∧ nul ∉ username ∧ nul ∉ password := by
  simp only [readPlain?, bind, Option.bind_eq_some_iff, Prod.exists, cutAt_eq_some_iff,
    Option.ite_none_right_eq_some, Option.some.injEq, Prod.mk.injEq]
  constructor
  · rintro ⟨_, _, ⟨rfl, -⟩, _, _, ⟨rfl, hu⟩, ⟨rfl, hp⟩, rfl, rfl⟩
    exact ⟨rfl, hu, hp⟩
  · rintro ⟨rfl, hu, hp⟩
    exact ⟨[], _, ⟨rfl, List.not_mem_nil⟩, _, _, ⟨rfl, hu⟩, ⟨rfl, hp⟩, rfl, rfl⟩

theorem readToken?_eq_some_iff : readToken? cs = some token ↔
    cs = "auth=Bearer ".toList ++ token ++ [controlA, controlA] ∧ controlA ∉ token := by
  simp only [readToken?, bind, Option.bind_eq_some_iff, Prod.exists, cutAt_eq_some_iff, dropPrefix?_iff,
    Option.ite_none_right_eq_some, Option.some.injEq]
  constructor
  · rintro ⟨_, rfl, _, _, ⟨rfl, ht⟩, rfl, rfl⟩
    exact ⟨(List.append_assoc ..).symm, ht⟩
  · rintro ⟨rfl, ht⟩
    exact ⟨_, List.append_assoc .., _, _, ⟨rfl, ht⟩, rfl, rfl⟩

theorem readXoauth2?_eq_some_iff : readXoauth2? cs = some (username, token) ↔
    cs = "user=".toList ++ username ++ controlA :: ("auth=Bearer ".toList ++ token ++ [controlA, controlA]) ∧
      controlA ∉ username ∧ controlA ∉ token := by
  simp only [readXoauth2?, bind, Option.bind_eq_some_iff, Prod.exists, cutAt_eq_some_iff, dropPrefix?_iff,
    readToken?_eq_some_iff, Option.some.injEq, Prod.mk.injEq]
  constructor
  · rintro ⟨_, rfl, _, _, ⟨rfl, hu⟩, _, ⟨rfl, ht⟩, rfl, rfl⟩
    exact ⟨(List.append_assoc ..).symm, hu, ht⟩
  · rintro ⟨rfl, hu, ht⟩
    exact ⟨_, List.append_assoc .., _, _, ⟨rfl, hu⟩, _, ⟨rfl, ht⟩, rfl, rfl⟩

theorem readOauthBearer?_eq_some_iff : readOauthBearer? cs = some (username, token) ↔
    cs = "n,a=".toList ++ username.flatMap escapeChar ++ ',' :: controlA ::
      ("auth=Bearer ".toList ++ token ++ [controlA, controlA]) ∧ controlA ∉ username ∧ controlA ∉ token := by
  simp only [readOauthBearer?, bind, Option.bind_eq_some_iff, Prod.exists, cutAt_eq_some_iff, dropPrefix?_iff,
    unescape?_eq_some_iff, readToken?_eq_some_iff, Option.ite_none_right_eq_some, Option.some.injEq, Prod.mk.injEq]
  constructor
  · rintro ⟨_, rfl, _, _, ⟨rfl, -⟩, _, rfl, _, rfl, _, ⟨rfl, ht⟩, hu, rfl, rfl⟩
    exact ⟨(List.append_assoc ..).symm, hu, ht⟩
  · rintro ⟨rfl, hu, ht⟩
    exact ⟨_, List.append_assoc .., _, _, ⟨rfl, comma_notMem_escape _⟩, _, rfl, _, rfl, _, ⟨rfl, ht⟩, hu, rfl, rfl⟩

/-! ## Clients -/

namespace Client

/-- The client of a mechanism that has answered this many challenges. -/
def standing (m : Mechanism) (username password : String) (answered : Nat) : Client :=
  match m with
  | .plain => .plain username password
  | .login => .login username password answered
  | .cramMd5 | .cramSha1 | .cramSha256 => .cram m username password
  | .xoauth2 | .oauthBearer => .bearer m username password

variable {m : Mechanism} {username password : String} {client : Client}

theorem new_eq_ok_iff :
    new m username password = .ok client ↔ ¬ Refuses m username password ∧ client = standing m username password 0 := by
  cases m with
  | plain =>
    simp only [new, ofPlain, Refuses, standing]
    split <;> simp_all [eq_comm]
  | xoauth2 | oauthBearer =>
    simp only [new, ofBearer, Refuses, standing]
    split <;> simp_all [eq_comm]
  | login | cramMd5 | cramSha1 | cramSha256 => simp [new, Refuses, standing, eq_comm]

/-- The first message of a mechanism that separates its fields. -/
def message : Mechanism → String → String → String
  | .plain => plainMessage
  | m => bearerMessage m

theorem opening_standing (h : (separator? m).isSome = true) (username password : String) (answered : Nat) :
    (standing m username password answered).opening = Text.Utf8.encode (message m username password) := by
  cases m with
  | plain | xoauth2 | oauthBearer => rfl
  | login | cramMd5 | cramSha1 | cramSha256 => cases h

theorem refuses_iff (h : separator? m = some separator) :
    Refuses m username password ↔ separator ∈ username.toList ∨ separator ∈ password.toList := by
  cases m with
  | plain | xoauth2 | oauthBearer => cases h; rfl
  | login | cramMd5 | cramSha1 | cramSha256 => cases h

end Client

open Client

/-- A message is read as the credentials of which it was made. -/
theorem readMessage?_eq_some_iff {m : Mechanism} (h : separator? m = some separator)
    {cs username password : List Char} : readMessage? m cs = some (username, password) ↔
      cs = (message m (String.ofList username) (String.ofList password)).toList ∧
        separator ∉ username ∧ separator ∉ password := by
  cases m with
  | plain =>
    cases h
    simp only [readMessage?, readPlain?_eq_some_iff, message, plainMessage, String.toList_ofList]
  | xoauth2 =>
    cases h
    have hmessage : (message .xoauth2 (String.ofList username) (String.ofList password)).toList =
        "user=".toList ++ username ++ controlA :: ("auth=Bearer ".toList ++ password ++ [controlA, controlA]) := by
      simp [message, bearerMessage, fieldEnd]
    rw [hmessage]
    exact readXoauth2?_eq_some_iff
  | oauthBearer =>
    cases h
    have hmessage : (message .oauthBearer (String.ofList username) (String.ofList password)).toList =
        "n,a=".toList ++ username.flatMap escapeChar ++ ',' :: controlA ::
          ("auth=Bearer ".toList ++ password ++ [controlA, controlA]) := by
      simp [message, bearerMessage, fieldEnd, toList_saslName]
    rw [hmessage]
    exact readOauthBearer?_eq_some_iff
  | login | cramMd5 | cramSha1 | cramSha256 => cases h

/-- **Reading accepts what the mechanism writes**, and nothing else. -/
theorem readOpening?_eq_some_iff {m : Mechanism} (h : separator? m = some separator) {bytes : List UInt8}
    {username password : String} : readOpening? m bytes = some (username, password) ↔
      ∃ client, Client.new m username password = .ok client ∧ client.opening = bytes := by
  have hsome : (separator? m).isSome = true := by rw [h]; rfl
  have hclient : (∃ client, Client.new m username password = .ok client ∧ client.opening = bytes) ↔
      (separator ∉ username.toList ∧ separator ∉ password.toList) ∧
        Text.Utf8.encode (message m username password) = bytes := by
    simp only [new_eq_ok_iff, refuses_iff h, not_or, and_assoc, exists_and_left, exists_eq_left,
      opening_standing hsome]
  rw [hclient, readOpening?]
  cases hd : Text.Utf8.decode bytes with
  | error fault =>
    refine ⟨nofun, fun ⟨_, hbytes⟩ => ?_⟩
    rw [← hbytes, Text.Utf8.decode_encode] at hd
    cases hd
  | ok text =>
    obtain rfl := Text.Utf8.decode_eq_ok_iff.1 hd
    simp only [Option.map_eq_some_iff, Prod.exists, Prod.mk.injEq, readMessage?_eq_some_iff h]
    constructor
    · rintro ⟨_, _, ⟨htext, hu, hp⟩, rfl, rfl⟩
      rw [← String.toList_inj.1 htext]
      exact ⟨by simpa using ⟨hu, hp⟩, rfl⟩
    · rintro ⟨⟨hu, hp⟩, htext⟩
      rw [← Text.Utf8.encode_injective htext]
      exact ⟨_, _, ⟨by simp, hu, hp⟩, String.ofList_toList, String.ofList_toList⟩

/-- **First messages are unambiguous.** A mechanism that separates its fields
accepts just the credentials without the separator, and its first message is
read as these credentials and no others; no other bytes are read at all. A name
in it can be told from what follows it, and its escapes can be undone. -/
theorem opening_unambiguous (m : Mechanism) (separator : Char) (h : separator? m = some separator) :
    (∀ username password, (∃ client, Client.new m username password = .ok client) ↔
      separator ∉ username.toList ∧ separator ∉ password.toList) ∧
    (∀ username password bytes, readOpening? m bytes = some (username, password) ↔
      ∃ client, Client.new m username password = .ok client ∧ client.opening = bytes) ∧
    (∀ username password username' password' client client', Client.new m username password = .ok client →
      Client.new m username' password' = .ok client' → client.opening = client'.opening →
      username = username' ∧ password = password') ∧
    ∀ name : String, let escaped := (saslName name).toList
      unescape? escaped = some name.toList ∧ ',' ∉ escaped ∧
      (∀ before behind, escaped = before ++ '=' :: behind →
        ∃ rest, behind = '2' :: 'C' :: rest ∨ behind = '3' :: 'D' :: rest) ∧
      escaped = replaced ',' "=2C".toList (replaced '=' "=3D".toList name.toList) := by
  refine ⟨fun username password => ?_, fun username password bytes => readOpening?_eq_some_iff h, ?_, fun name => ?_⟩
  · simp only [new_eq_ok_iff, refuses_iff h, not_or, exists_and_left, exists_eq, and_true]
  · intro username password username' password' client client' hc hc' hsame
    have hread := (readOpening?_eq_some_iff h).2 ⟨client, hc, rfl⟩
    rw [hsame, (readOpening?_eq_some_iff h).2 ⟨client', hc', rfl⟩] at hread
    simpa [eq_comm] using hread
  · rw [toList_saslName]
    exact ⟨unescape?_escape _, comma_notMem_escape _, fun _ _ => escape_equals, escape_eq_replaced _⟩

/-- A name with everything that could end it, and a token that looks like one
more field. -/
theorem opening_unambiguous_misleading :
    let client := Client.bearer .oauthBearer "a,é=2C" "x,auth=Bearer y"
    separator? .oauthBearer = some controlA ∧
    Client.new .oauthBearer "a,é=2C" "x,auth=Bearer y" = .ok client ∧
    client.opening = "n,a=a=2Cé=3D2C,auth=Bearer x,auth=Bearer y".toUTF8.toList ∧
    readOpening? .oauthBearer client.opening = some ("a,é=2C", "x,auth=Bearer y") := by
  intro client
  have hclient : Client.new .oauthBearer "a,é=2C" "x,auth=Bearer y" = .ok client := by decide
  obtain ⟨-, hread, -, -⟩ := opening_unambiguous .oauthBearer controlA rfl
  exact ⟨rfl, hclient, by decide +kernel, (hread _ _ _).2 ⟨client, hclient, rfl⟩⟩

end SmtpClient.Sasl
