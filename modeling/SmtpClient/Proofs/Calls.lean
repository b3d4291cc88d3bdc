/-
Login sessions that are called in any order. A call that the state does not
expect is refused and changes nothing, unless it brings a line that spells no
reply: such a line fails the session in every state, also one that is over
(`call_faulty`). So each session has one outcome, and one more for every such
line that comes after it.
-/
import SmtpClient.Proofs.Login

namespace SmtpClient

/-- Nothing is left to do. -/
def AuthState.over : AuthState → Bool
  | .success | .failure => true
  | .init | .selecting | .exchanging _ => false

namespace AuthSession

/-! ## Calls -/

/-- A call to a session. -/
inductive Call where
  | start
  | advance (reply : Reply)
  | advanceLine (line : String)

/-- The call comes when the session waits for it. -/
def Call.expected (state : AuthState) : Call → Bool
  | .start => state = .init
  | .advance _ | .advanceLine _ =>
    match state with
    | .exchanging _ => true
    | _ => false

/-- What a call brings that is no reply. -/
def Call.fault? : Call → Option Error
  | .start | .advance _ => none
  | .advanceLine line =>
    match Reply.ofLines [line] with
    | .ok _ => none
    | .error e => some e

/-- Why a call is refused that comes at the wrong time. -/
def Call.misuse (state : AuthState) : Call → Misuse
  | .start => .authStarted state
  | .advance _ | .advanceLine _ => .noReplyExpected state

def call (s : AuthSession) : Call → Except Error AuthAction × AuthSession
  | .start => s.start
  | .advance reply => s.advance reply
  | .advanceLine line => s.advanceLine line

/-- The session after some calls. -/
def after (s : AuthSession) (calls : List Call) : AuthSession :=
  calls.foldl (fun s c => (s.call c).2) s

/-- Some calls, each with the session that takes it. -/
def taken (s : AuthSession) : List Call → List (AuthSession × Call)
  | [] => []
  | c :: calls => (s, c) :: (s.call c).2.taken calls

/-- A result that is the outcome of a session. -/
def isOutcome : Except Error AuthAction → Bool
  | .ok (.send _) | .error (.invalidState _) => false
  | .ok (.done _) | .error _ => true

/-- The call gives an outcome. -/
def Ends (t : AuthSession × Call) : Bool :=
  isOutcome (t.1.call t.2).1

/-- The call brings no reply, to a session that is over. -/
def Late (t : AuthSession × Call) : Bool :=
  t.1.state.over && t.2.fault?.isSome

variable {s : AuthSession} {c : Call} {e : Error} {reply : Reply}

/-! ## One call -/

theorem Call.fault?_isWire (h : c.fault? = some e) : e.isWire = true := by
  cases c with
  | start => cases h
  | advance reply => cases h
  | advanceLine line =>
    simp only [Call.fault?] at h
    split at h
    · cases h
    · next he => cases h; exact Reply.ofLines_error he

theorem isOutcome_fault (h : c.fault? = some e) : isOutcome (.error e) = true := by
  have hw := Call.fault?_isWire h
  cases e <;> first | rfl | cases hw

/-- A line that spells no reply fails the session, whatever its state. -/
theorem call_faulty (s : AuthSession) (h : c.fault? = some e) : s.call c = s.fail e := by
  cases c with
  | start => cases h
  | advance reply => cases h
  | advanceLine line =>
    simp only [Call.fault?] at h
    split at h
    · cases h
    · next he => cases h; simp only [call, advanceLine, he]

theorem start_unexpected (h : s.state ≠ .init) : s.start = (.error (.invalidState (.authStarted s.state)), s) := by
  rw [start, if_pos h]

theorem advance_unexpected (h : ∀ round, s.state ≠ .exchanging round) (reply : Reply) :
    s.advance reply = (.error (.invalidState (.noReplyExpected s.state)), s) := by
  unfold advance
  split
  · next round hs => exact absurd hs (h round)
  · rfl

theorem Call.expected_reply (reply : Reply) (hx : (Call.advance reply).expected s.state = false) (round : Nat) :
    s.state ≠ .exchanging round := by
  intro hs
  simp only [Call.expected, hs, Bool.true_eq_false] at hx

/-- A line that spells a reply is as good as the reply. -/
theorem call_line {line : String} (h : (Call.advanceLine line).fault? = none) :
    ∃ reply, ∀ s : AuthSession, s.call (.advanceLine line) = s.advance reply := by
  simp only [Call.fault?] at h
  split at h
  · next reply ho => exact ⟨reply, fun s => by simp only [call, advanceLine, ho]⟩
  · cases h

/-- Any other call that comes at the wrong time is refused and changes nothing. -/
theorem call_unexpected (hx : c.expected s.state = false) (hf : c.fault? = none) :
    s.call c = (.error (.invalidState (c.misuse s.state)), s) := by
  cases c with
  | start => exact start_unexpected (by simpa [Call.expected] using hx)
  | advance reply => exact advance_unexpected (Call.expected_reply reply hx) reply
  | advanceLine line =>
    obtain ⟨reply, hr⟩ := call_line hf
    rw [hr]
    exact advance_unexpected (Call.expected_reply reply hx) reply

/-! ## Sessions in use -/

/-- A session that has not begun, is over or waits for a reply. -/
def Formed (s : AuthSession) : Prop :=
  s.state = .init ∨ s.state.over = true ∨ ∃ m, Exchanging m s

/-- What a call comes to that was expected: the outcome, with which the session
is over, or a line of its exchange. -/
def Proceeds (r : Except Error AuthAction × AuthSession) : Prop :=
  (isOutcome r.1 = true ∧ r.2.state.over = true) ∨ (isOutcome r.1 = false ∧ ∃ m, Exchanging m r.2)

theorem Proceeds.fail (s : AuthSession) (h : isOutcome (.error e) = true) : Proceeds (s.fail e) :=
  .inl ⟨h, rfl⟩

theorem Proceeds.forgo (s : AuthSession) (h : isOutcome (.error e) = true) : Proceeds (s.forgo e) := by
  rw [forgo_eq]
  split
  · exact .fail s h
  · exact .inl ⟨rfl, rfl⟩

theorem begin_proceeds (s : AuthSession) (username password : String) : Proceeds (s.begin username password) := by
  simp only [begin, Sasl.choose]
  cases Sasl.preferred s.allowed with
  | none => exact .fail s rfl
  | some m =>
    rcases Sasl.Client.new_cases m username password with ⟨-, fault, hc⟩ | ⟨-, client, hc, -⟩
    · simp only [hc]
      exact .fail s rfl
    · simp only [hc]
      exact .inr ⟨rfl, client.kind, client, 0, rfl, rfl, rfl⟩

theorem start_proceeds (h : s.state = .init) : Proceeds s.start := by
  rw [start, if_neg (not_not_intro h)]
  by_cases hd : s.login = .disabled
  · rw [if_pos hd]
    exact .inl ⟨rfl, rfl⟩
  rw [if_neg hd]
  cases s.username with
  | none => exact .forgo _ rfl
  | some username =>
    cases s.password with
    | none => exact .forgo _ rfl
    | some password =>
      simp only
      by_cases hempty : s.allowed = []
      · rw [if_pos hempty]
        exact .forgo _ rfl
      · rw [if_neg hempty]
        exact begin_proceeds _ _ _

theorem Exchanging.proceeds {m : Mechanism} (h : Exchanging m s) (reply : Reply) : Proceeds (s.advance reply) := by
  obtain ⟨client, round, hc, hs, -⟩ := h
  simp only [AuthSession.advance, hs, hc]
  cases reply.kind with
  | success => exact .inl ⟨rfl, rfl⟩
  | failure => exact .fail s rfl
  | proceed =>
    simp only [respond, hc]
    split
    · exact .fail s rfl
    · exact .inr ⟨rfl, _, _, round + 1, rfl, rfl, rfl⟩

theorem call_expected (h : s.Formed) (hx : c.expected s.state = true) (hf : c.fault? = none) :
    Proceeds (s.call c) := by
  have hadvance : ∀ reply, (Call.advance reply).expected s.state = true → Proceeds (s.advance reply) := by
    intro reply hx
    rcases h with hs | ho | ⟨m, hm⟩
    · simp [Call.expected, hs] at hx
    · cases hs : s.state <;> simp_all [Call.expected, AuthState.over]
    · exact hm.proceeds reply
  cases c with
  | start => exact start_proceeds (of_decide_eq_true hx)
  | advance reply => exact hadvance reply hx
  | advanceLine line =>
    obtain ⟨reply, hr⟩ := call_line hf
    rw [hr]
    exact hadvance reply hx

theorem Proceeds.formed {r : Except Error AuthAction × AuthSession} (h : Proceeds r) : r.2.Formed :=
  h.elim (fun h => .inr (.inl h.2)) fun h => .inr (.inr h.2)

theorem Exchanging.not_over {m : Mechanism} (h : Exchanging m s) : s.state.over = false := by
  obtain ⟨_, _, -, hs, -⟩ := h
  rw [hs]
  rfl

/-- A session in use stays one, and a call gives an outcome just if the session
is over by it or the call is a line too late. -/
theorem call_ends (h : s.Formed) (c : Call) : (s.call c).2.Formed ∧
    ((Ends (s, c)).toNat + (s.state.over).toNat =
      ((s.call c).2.state.over).toNat + (Late (s, c)).toNat) := by
  cases hf : c.fault? with
  | some e =>
    simp only [Ends, Late, call_faulty s hf, hf]
    refine ⟨.inr (.inl rfl), ?_⟩
    simp [fail, isOutcome_fault hf, AuthState.over]
  | none =>
    cases hx : c.expected s.state with
    | true =>
      have hopen : s.state.over = false := by
        cases hs : s.state <;> cases c <;> simp_all [Call.expected, AuthState.over]
      have hp := call_expected h hx hf
      refine ⟨hp.formed, ?_⟩
      rcases hp with ⟨he, ho⟩ | ⟨he, m, hm⟩
      · simp [Ends, Late, hf, hopen, he, ho]
      · simp [Ends, Late, hf, hopen, he, hm.not_over]
    | false =>
      simp only [Ends, Late, call_unexpected hx hf, hf]
      exact ⟨h, by simp [isOutcome]⟩

/-! ## Sequences of calls -/

theorem countP_ends (h : s.Formed) (calls : List Call) :
    (s.taken calls).countP Ends + (s.state.over).toNat =
      ((s.after calls).state.over).toNat + (s.taken calls).countP Late := by
  induction calls generalizing s with
  | nil => simp [taken, after]
  | cons c calls ih =>
    obtain ⟨hformed, hcall⟩ := call_ends h c
    have hrest := ih hformed
    have hone : ∀ b : Bool, (if b = true then 1 else 0) = b.toNat := by decide
    have hafter : s.after (c :: calls) = (s.call c).2.after calls := rfl
    rw [taken, List.countP_cons, List.countP_cons, hone, hone, hafter]
    omega

/-- What a session that is over becomes: nothing else but a failed one. -/
theorem after_over (h : s.state.over = true) (later : List Call) :
    s.after later =
      if later.any fun c => c.fault?.isSome then { s with state := .failure, client := none } else s := by
  induction later generalizing s with
  | nil => rfl
  | cons c later ih =>
    have hstep : s.after (c :: later) = (s.call c).2.after later := rfl
    cases hf : c.fault? with
    | some e =>
      rw [hstep, call_faulty s hf, ih rfl]
      simp [hf, fail]
    | none =>
      have hx : c.expected s.state = false := by
        cases hs : s.state <;> cases c <;> simp_all [Call.expected, AuthState.over]
      rw [hstep, call_unexpected hx hf, ih h]
      simp [hf]

/-- **One outcome, but for stray lines.** In every sequence of calls: a call that
the state does not expect is refused and changes nothing, unless it brings a
line that spells no reply. Such a line fails the session in every state with an
error of its own. So a session that is over stays as it is as long as no such
line comes, and of all calls one gives an outcome if the session is over, and
each such line that came later. -/
theorem after_outcomes (config : Config) (advertised : List String) (calls : List Call) :
    let start := new config advertised
    let s := start.after calls
    (∀ c, c.expected s.state = false → c.fault? = none →
      s.call c = (.error (.invalidState (c.misuse s.state)), s)) ∧
    (∀ c e, c.fault? = some e → isOutcome (.error e) = true ∧
      s.call c = (.error e, { s with state := .failure, client := none })) ∧
    (s.state.over = true → ∀ later, s.after later =
      if later.any fun c => c.fault?.isSome then { s with state := .failure, client := none } else s) ∧
    (start.taken calls).countP Ends = (s.state.over).toNat + (start.taken calls).countP Late := by
  intro start s
  have hformed : start.Formed := .inl rfl
  have hcount := countP_ends hformed calls
  exact ⟨fun c => call_unexpected, fun c e hf => ⟨isOutcome_fault hf, call_faulty s hf⟩, after_over, hcount⟩

/-- A login that is skipped, and then a line that spells no reply. -/
theorem after_outcomes_skipped :
    let start := new { host := "mx", login := .disabled } []
    let s := start.after [.start]
    s.state = .success ∧
    s.call (.advance ⟨⟨235⟩, ["ok"]⟩) = (.error (.invalidState (.noReplyExpected .success)), s) ∧
    (s.after [.advanceLine "junk"]).state = .failure ∧
    (start.taken [.start, .advanceLine "junk"]).countP Ends = 2 := by
  intro start s
  have hstate : s.state = .success := by decide
  have hfault : (Call.advanceLine "junk").fault? = some (.protocol (.badCode "junk")) := by decide
  obtain ⟨hrefused, -, hover, -⟩ := after_outcomes { host := "mx", login := .disabled } [] [.start]
  have hcount := (after_outcomes { host := "mx", login := .disabled } [] [.start, .advanceLine "junk"]).2.2.2
  refine ⟨hstate, hrefused _ (by decide) rfl, ?_, ?_⟩
  · rw [hover (by decide)]
    rfl
  · rw [hcount]
    decide

end AuthSession

end SmtpClient
