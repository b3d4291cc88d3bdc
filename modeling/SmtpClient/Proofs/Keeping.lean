/-
What a session keeps. State and mechanism change together, and the credentials
leave the session when it begins to log in (`AuthSession.Kept.call`). So a session
that waits for a reply has a mechanism, which is the one whose line it said, and
nothing reports another one (`AuthSession.after_kept`).
-/
import SmtpClient.Proofs.Rounds
import Mathlib.Data.List.Induction

namespace SmtpClient.AuthSession

/-! ## Results -/

/-- The mechanism with whose line a result begins an exchange. -/
def begins? : Except Error AuthAction → Option Mechanism
  | .ok (.send (.auth m _)) => some m
  | _ => none

/-- The mechanism that a result reports: the server accepted it, or refused it. -/
def reports? : Except Error AuthAction → Option Mechanism
  | .ok (.done (.authenticated m)) | .error (.auth m _) => some m
  | _ => none

/-- The mechanisms with whose lines exchanges are begun in some calls. -/
def begun (s : AuthSession) (calls : List Call) : List Mechanism :=
  (s.results calls).filterMap begins?

/-- A call of start that takes the session out of its first state. -/
def Leaves (t : AuthSession × Call) : Prop :=
  t.2 = .start ∧ t.1.state = .init ∧ (t.1.call t.2).2.state ≠ .init

variable {s : AuthSession} {c : Call} {e : Error}

theorem taken_concat (s : AuthSession) (calls : List Call) (c : Call) :
    s.taken (calls ++ [c]) = s.taken calls ++ [(s.after calls, c)] := by
  induction calls generalizing s with
  | nil => rfl
  | cons first calls ih => exact congrArg ((s, first) :: ·) (ih _)

theorem after_concat (s : AuthSession) (calls : List Call) (c : Call) :
    s.after (calls ++ [c]) = ((s.after calls).call c).2 :=
  List.foldl_append

theorem begun_concat (s : AuthSession) (calls : List Call) (c : Call) :
    s.begun (calls ++ [c]) = s.begun calls ++ (begins? ((s.after calls).call c).1).toList := by
  simp only [begun, results, taken_concat, List.map_append, List.filterMap_append, List.map_singleton]
  cases hb : begins? ((s.after calls).call c).1 <;> simp [hb]

/-! ## What a call comes to -/

/-- The session without its credentials. -/
def bare (s : AuthSession) : AuthSession :=
  { s with username := none, password := none }

/-- What start makes of a session that has not begun. -/
inductive Started (s : AuthSession) : Except Error AuthAction × AuthSession → Prop where
  | disabled : s.login = .disabled → Started s (s.succeed .skipped)
  | forgone : s.login ≠ .disabled → Started s (s.bare.succeed .skipped)
  | failed {e : Error} : s.login ≠ .disabled → e.isConfiguration = true → Started s (s.bare.fail e)
  | begins (client : Sasl.Client) : s.login ≠ .disabled →
    Started s (.ok (.send (beginLine client)), { s.bare with client := some client, state := .exchanging 0 })

/-- What a reply makes of a session that waits for it with this client. -/
inductive Advanced (s : AuthSession) (client : Sasl.Client) : Except Error AuthAction × AuthSession → Prop where
  | accepted : Advanced s client ({ s with client := none }.succeed (.authenticated client.kind))
  | refused (text : String) : Advanced s client (s.fail (.auth client.kind text))
  | garbled (fault : ProtocolFault) : Advanced s client (s.fail (.protocol fault))
  | answers {next : Sasl.Client} (text : String) (round : Nat) : next.kind = client.kind →
    Advanced s client (.ok (.send (.response text)), { s with client := some next, state := .exchanging round })

theorem forgo_started (hd : s.login ≠ .disabled) (he : e.isConfiguration = true) : Started s (s.bare.forgo e) := by
  rw [forgo_eq]
  split
  · exact .failed hd he
  · exact .forgone hd

theorem start_started (h : s.state = .init) : Started s s.start := by
  rw [start, if_neg (not_not_intro h)]
  by_cases hd : s.login = .disabled
  · rw [if_pos hd]
    exact .disabled hd
  rw [if_neg hd]
  cases s.username with
  | none => exact forgo_started hd rfl
  | some username =>
    cases s.password with
    | none => exact forgo_started hd rfl
    | some password =>
      simp only
      split
      · exact forgo_started hd rfl
      simp only [begin, Sasl.choose]
      cases Sasl.preferred s.allowed with
      | none => exact .failed hd rfl
      | some m =>
        rcases Sasl.Client.new_cases m username password with ⟨-, fault, hc⟩ | ⟨-, client, hc, -⟩
        · simp only [hc]
          exact .failed hd rfl
        · simp only [hc]
          exact .begins client hd

theorem advance_advanced {client : Sasl.Client} {round : Nat} (hc : s.client = some client)
    (hs : s.state = .exchanging round) (reply : Reply) : Advanced s client (s.advance reply) := by
  simp only [advance, hs, hc]
  cases reply.kind with
  | success => exact .accepted
  | failure => exact .refused _
  | proceed =>
    simp only [respond, hc]
    split
    · exact .garbled _
    · next challenge _ => exact .answers _ _ (client.answer_kind challenge)

/-! ## The invariant -/

/-- How state and mechanism stand, after exchanges were begun with these
mechanisms. -/
inductive Stands : List Mechanism → AuthSession → Prop where
  | fresh {s : AuthSession} : s.state = .init → s.client = none → Stands [] s
  | exchanging {m : Mechanism} {s : AuthSession} : Exchanging m s → Stands [m] s
  | ended {said : List Mechanism} {s : AuthSession} : s.state.over = true → s.client = none → said.length ≤ 1 →
    Stands said s

/-- What a session keeps, after exchanges were begun with these mechanisms; `gave`
tells whether it has given its credentials away. -/
structure Kept (config : Config) (said : List Mechanism) (gave : Prop) (s : AuthSession) : Prop where
  login : s.login = config.login
  stands : Stands said s
  given : gave → s.username = none ∧ s.password = none
  held : ¬ gave → s.username = config.username ∧ s.password = config.password

/-- What a call leaves, and what its result says about mechanisms. -/
structure Keeps (config : Config) (said : List Mechanism) (gave : Prop) (r : Except Error AuthAction × AuthSession) :
    Prop where
  kept : Kept config (said ++ (begins? r.1).toList) gave r.2
  reports : ∀ m, reports? r.1 = some m → said = [m]
  unsaid : ∀ fault, r.1 = .error (.invalidCredentials fault) → said = []
  missing : r.1 ≠ .error (.invalidState .mechanismMissing)

variable {config : Config} {said : List Mechanism} {gave gave' : Prop}

theorem Stands.length (h : Stands said s) : said.length ≤ 1 := by
  cases h with
  | fresh => exact Nat.zero_le 1
  | exchanging => exact Nat.le_refl 1
  | ended _ _ hsaid => exact hsaid

theorem Stands.client_iff (h : Stands said s) : s.client.isSome = true ↔ ∃ round, s.state = .exchanging round := by
  cases h with
  | fresh hs hc => simp [hs, hc]
  | exchanging hm =>
    obtain ⟨client, round, hc, hs, -⟩ := hm
    simp [hs, hc]
  | ended ho hc => cases hs : s.state <;> simp_all [AuthState.over]

/-- The mechanism that is kept is the one whose line was said. -/
theorem Stands.kind {client : Sasl.Client} (h : Stands said s) (hc : s.client = some client) :
    said = [client.kind] := by
  cases h with
  | fresh _ hnone => cases hc.symm.trans hnone
  | exchanging hm =>
    obtain ⟨_, _, hclient, -, rfl⟩ := hm
    cases hc.symm.trans hclient
    rfl
  | ended _ hnone => cases hc.symm.trans hnone

theorem Stands.not_selecting (h : Stands said s) : s.state ≠ .selecting := by
  intro hs
  cases h with
  | fresh hinit => cases hinit.symm.trans hs
  | exchanging hm =>
    obtain ⟨_, _, -, hround, -⟩ := hm
    cases hround.symm.trans hs
  | ended ho =>
    rw [hs] at ho
    cases ho

/-- A session with the credentials of another one. -/
theorem Kept.follow {s' : AuthSession} {said' : List Mechanism} (h : Kept config said gave s)
    (hgave : gave' ↔ gave) (hlogin : s'.login = s.login) (hu : s'.username = s.username)
    (hp : s'.password = s.password) (hs : Stands said' s') : Kept config said' gave' s' where
  login := hlogin.trans h.login
  stands := hs
  given hg := by
    rw [hu, hp]
    exact h.given (hgave.1 hg)
  held hg := by
    rw [hu, hp]
    exact h.held (mt hgave.2 hg)

/-- A session that gives its credentials away. -/
theorem Kept.bare {s' : AuthSession} {said' : List Mechanism} (h : Kept config said gave s) (hgave : gave')
    (hlogin : s'.login = s.login) (hu : s'.username = none) (hp : s'.password = none) (hs : Stands said' s') :
    Kept config said' gave' s' where
  login := hlogin.trans h.login
  stands := hs
  given _ := ⟨hu, hp⟩
  held hg := absurd hgave hg

/-- A call that fails the session, or is refused, reports no mechanism. -/
theorem Kept.fail (h : Kept config said gave s) (he : e.isWire = true) : Keeps config said gave (s.fail e) where
  kept := by
    rw [show begins? (s.fail e).1 = none from rfl, Option.toList_none, List.append_nil]
    exact h.follow .rfl rfl rfl rfl (.ended rfl rfl h.stands.length)
  reports m hm := by cases e <;> cases he <;> cases hm
  unsaid fault hm := by cases hm; cases he
  missing hm := by cases hm; cases he

theorem Kept.refuse (h : Kept config said gave s) (c : Call) :
    Keeps config said gave (.error (.invalidState (c.misuse s.state)), s) where
  kept := by
    rw [show begins? (.error (.invalidState (c.misuse s.state))) = none from rfl, Option.toList_none, List.append_nil]
    exact h
  reports m hm := by cases hm
  unsaid fault hm := by cases hm
  missing hm := by cases c <;> cases hm

theorem Started.keeps {r : Except Error AuthAction × AuthSession} (hs : Started s r) (h : Kept config [] gave s)
    (hc : s.client = none) (hgave : gave' ↔ gave ∨ config.login ≠ .disabled) : Keeps config [] gave' r := by
  have hgives : s.login ≠ .disabled → gave' := fun hd => hgave.2 (.inr (h.login ▸ hd))
  cases hs with
  | disabled hd =>
    have hsame : gave' ↔ gave := by simpa [← h.login, hd] using hgave
    exact ⟨h.follow hsame rfl rfl rfl (.ended rfl hc (Nat.zero_le 1)), by simp [succeed, reports?], by simp [succeed],
      by simp [succeed]⟩
  | forgone hd =>
    exact ⟨h.bare (hgives hd) rfl rfl rfl (.ended rfl hc (Nat.zero_le 1)), by simp [succeed, reports?],
      by simp [succeed], by simp [succeed]⟩
  | @failed e hd he =>
    refine ⟨h.bare (hgives hd) rfl rfl rfl (.ended rfl rfl (Nat.zero_le 1)), fun m hm => ?_, fun _ _ => rfl, ?_⟩
    · cases e <;> cases he <;> cases hm
    · rintro hm
      cases hm
      cases he
  | begins client hd =>
    exact ⟨h.bare (hgives hd) rfl rfl rfl (.exchanging ⟨client, 0, rfl, rfl, rfl⟩), by simp [reports?], by simp,
      by simp⟩

theorem Advanced.keeps {r : Except Error AuthAction × AuthSession} {client : Sasl.Client} (hs : Advanced s client r)
    (h : Kept config [client.kind] gave s) : Keeps config [client.kind] gave r := by
  cases hs with
  | accepted =>
    exact ⟨h.follow .rfl rfl rfl rfl (.ended rfl rfl (Nat.le_refl 1)), by simp [succeed, reports?], by simp [succeed],
      by simp [succeed]⟩
  | refused text =>
    exact ⟨h.follow .rfl rfl rfl rfl (.ended rfl rfl (Nat.le_refl 1)), by simp [fail, reports?], by simp [fail],
      by simp [fail]⟩
  | garbled fault => exact h.fail rfl
  | @answers next text round hk =>
    exact ⟨h.follow .rfl rfl rfl rfl (.exchanging ⟨next, round, rfl, rfl, hk⟩), by simp [reports?], by simp, by simp⟩

theorem Started.state {r : Except Error AuthAction × AuthSession} (h : Started s r) : r.2.state ≠ .init := by
  cases h <;> simp [succeed, AuthSession.fail]

theorem Kept.start (h : Kept config said gave s) (hs : s.state = .init) :
    Keeps config said (gave ∨ config.login ≠ .disabled ∧ Leaves (s, .start)) s.start := by
  have hstarted := start_started hs
  have hleaves : Leaves (s, .start) := ⟨rfl, hs, hstarted.state⟩
  cases h.stands with
  | fresh _ hc => exact hstarted.keeps h hc (by rw [and_iff_left hleaves])
  | exchanging hm =>
    obtain ⟨_, _, -, hround, -⟩ := hm
    cases hround.symm.trans hs
  | ended ho =>
    rw [hs] at ho
    cases ho

theorem Kept.advance (h : Kept config said gave s) (reply : Reply) : Keeps config said gave (s.advance reply) := by
  cases hx : (Call.advance reply).expected s.state with
  | false =>
    rw [advance_unexpected (Call.expected_reply reply hx)]
    exact h.refuse (.advance reply)
  | true =>
    cases h.stands with
    | fresh hs => simp [Call.expected, hs] at hx
    | exchanging hm =>
      obtain ⟨client, round, hc, hs, rfl⟩ := hm
      exact (advance_advanced hc hs reply).keeps h
    | ended ho => cases hs : s.state <;> simp_all [Call.expected, AuthState.over]

/-- **What one call does**: it keeps the invariant, and reports no other mechanism
than the one whose line was said. -/
theorem Kept.call (h : Kept config said gave s) (c : Call) :
    Keeps config said (gave ∨ config.login ≠ .disabled ∧ Leaves (s, c)) (s.call c) := by
  have hsame : c ≠ .start ∨ s.state ≠ .init → (gave ∨ config.login ≠ .disabled ∧ Leaves (s, c)) = gave := by
    rintro (hc | hs)
    · simp [Leaves, hc]
    · simp [Leaves, hs]
  cases c with
  | start =>
    by_cases hs : s.state = .init
    · exact h.start hs
    · rw [hsame (.inr hs), AuthSession.call, start_unexpected hs]
      exact h.refuse .start
  | advance reply =>
    rw [hsame (.inl (by simp))]
    exact h.advance reply
  | advanceLine line =>
    rw [hsame (.inl (by simp))]
    cases hf : (Call.advanceLine line).fault? with
    | some e =>
      rw [call_faulty s hf]
      exact h.fail (Call.fault?_isWire hf)
    | none =>
      obtain ⟨reply, hr⟩ := call_line hf
      rw [hr]
      exact h.advance reply

/-! ## Sequences of calls -/

theorem kept_new (config : Config) (advertised : List String) : Kept config [] False (new config advertised) where
  login := rfl
  stands := .fresh rfl rfl
  given := False.elim
  held _ := ⟨rfl, rfl⟩

theorem kept_after (config : Config) (advertised : List String) (calls : List Call) :
    let start := new config advertised
    Kept config (start.begun calls) (config.login ≠ .disabled ∧ ∃ t ∈ start.taken calls, Leaves t)
      (start.after calls) := by
  intro start
  induction calls using List.reverseRecOn with
  | nil =>
    have hnone : ¬ (config.login ≠ .disabled ∧ ∃ t ∈ start.taken [], Leaves t) := by simp [taken]
    exact (kept_new config advertised).follow (iff_of_false hnone id) rfl rfl rfl (.fresh rfl rfl)
  | append_singleton calls c ih =>
    have hkept := (ih.call c).kept
    rw [begun_concat, after_concat, taken_concat]
    refine hkept.follow ?_ rfl rfl rfl hkept.stands
    simp only [List.mem_append, List.mem_singleton, or_and_right, exists_or, exists_eq_left, and_or_left]

/-- **What every session keeps**, in every sequence of calls. It has a mechanism just
while it waits for a reply, and is never seen selecting one. Where it is to log in it
has no credentials any more once start has taken it out of its first state, and
otherwise those of the configuration. So no call misses a mechanism; at most one
exchange is begun, and whatever is reported, as the server accepted or refused it, is
the mechanism of its line. Credentials are refused before there is a line. -/
theorem after_kept (config : Config) (advertised : List String) (calls : List Call) :
    let start := new config advertised
    let s := start.after calls
    let gave := config.login ≠ .disabled ∧ ∃ t ∈ start.taken calls, Leaves t
    (s.client.isSome = true ↔ ∃ round, s.state = .exchanging round) ∧
    (∀ client, s.client = some client → start.begun calls = [client.kind]) ∧
    s.state ≠ .selecting ∧
    (gave → s.username = none ∧ s.password = none) ∧
    (¬ gave → s.username = config.username ∧ s.password = config.password) ∧
    (start.begun calls).length ≤ 1 ∧
    ∀ c, (s.call c).1 ≠ .error (.invalidState .mechanismMissing) ∧
      (∀ m, reports? (s.call c).1 = some m → start.begun calls = [m]) ∧
      ∀ fault, (s.call c).1 = .error (.invalidCredentials fault) → start.begun calls = [] := by
  intro start s gave
  have hkept : Kept config (start.begun calls) gave s := kept_after config advertised calls
  refine ⟨hkept.stands.client_iff, fun _ => hkept.stands.kind, hkept.stands.not_selecting, hkept.given, hkept.held,
    hkept.stands.length, fun c => ?_⟩
  have hcall := hkept.call c
  exact ⟨hcall.missing, hcall.reports, hcall.unsaid⟩

/-- A login that is refused in its second round. -/
theorem after_kept_refused :
    let config : Config := { host := "mx", username := some "ann", password := some "secret" }
    let start := new config ["LOGIN"]
    let calls := [.start, .advance ⟨⟨334⟩, ["VXNlcm5hbWU6"]⟩]
    let s := start.after calls
    (config.login ≠ .disabled ∧ ∃ t ∈ start.taken calls, Leaves t) ∧ s.username = none ∧ s.password = none ∧
    reports? (s.call (.advance ⟨⟨535⟩, ["no"]⟩)).1 = some .login ∧ start.begun calls = [.login] := by
  intro config start calls s
  have hgave : config.login ≠ .disabled ∧ ∃ t ∈ start.taken calls, Leaves t :=
    ⟨by decide, (start, .start), List.mem_cons_self, rfl, rfl, by decide⟩
  have hreported : reports? (s.call (.advance ⟨⟨535⟩, ["no"]⟩)).1 = some .login := by decide +kernel
  obtain ⟨-, -, -, hgiven, -, -, hcalls⟩ := after_kept config ["LOGIN"] calls
  exact ⟨hgave, (hgiven hgave).1, (hgiven hgave).2, hreported, (hcalls _).2.1 _ hreported⟩

end SmtpClient.AuthSession
