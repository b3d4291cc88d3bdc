/-
Nothing that a server says in clear outlives STARTTLS, but for the name in its
greeting. From the connector's answer on, an attempt is decided by that name
and by what is delivered on the secured channel (`Attempt.Stage.sealed`); so
two attempts that agree in these agree in all that is heard, said and known
after it (`Attempt.follow_sealed`).
-/
import SmtpClient.Proofs.Fate
import SmtpClient.Proofs.Language

namespace SmtpClient

/-! ## Dialogues and connectors -/

namespace Dialogue

variable {σ β : Type} {d : Dialogue σ β} {answer : Except Error (List Arrival)}

/-- No dialogue asks the connector. -/
theorem upgrade_notMem_step (d : Dialogue σ β) (st : σ × ReplyReader) (out : Outbound) (byte : UInt8) :
    .upgrade answer ∉ (d.step st out byte).1 := by
  unfold step
  split
  · simp
  · simp
  · split
    · simp
    · simp
    · split <;> simp

theorem upgrade_notMem_events (d : Dialogue σ β) (st : σ × ReplyReader) (out : Outbound) (xs : List UInt8) :
    .upgrade answer ∉ d.events st out xs := by
  induction xs generalizing st out with
  | nil => exact List.not_mem_nil
  | cons byte xs ih =>
    have hstep : .upgrade answer ∉ (d.step st out byte).1 := upgrade_notMem_step d st out byte
    rw [events]
    generalize d.step st out byte = r at hstep ⊢
    obtain ⟨new, st' | result, out'⟩ := r
    · exact List.not_mem_append hstep (ih st' out')
    · exact hstep

theorem upgrade_notMem_outset (d : Dialogue σ β) (first : Except Error (Move σ β)) (out : Outbound)
    (met : List UInt8 × Ending) : .upgrade answer ∉ (d.outset first out met).1 := by
  rcases first with e | (⟨command, s⟩ | b)
  · exact List.not_mem_nil
  · simp only [outset]
    split
    · simpa [fate] using upgrade_notMem_events d _ _ _
    · simp
  · exact List.not_mem_nil

end Dialogue

/-! ## Attempts -/

theorem Outbound.room_adding (o : Outbound) (commands : List Command) :
    (o.adding commands).room = o.room.map (· - commands.length) := by
  simp only [room, adding, List.length_append, Option.map_map, Function.comp_def, Nat.sub_add_eq]

/-- Streams with the same room have the same room after the same lines. -/
theorem Outbound.adding_room {o o' : Outbound} (h : o.room = o'.room) (commands : List Command) :
    (o.adding commands).room = (o'.adding commands).room := by
  rw [room_adding, room_adding, h]

namespace Attempt

open Handshake

variable {config : Config} {peer : Peer} {stream : Stream} {now : Nat} {run : List Event × Progress}
  {before after : List Event} {answer : Except Error (List Arrival)} {result : Option (Except Error Established)}

/-- No later poll changes how far it came. -/
def Progress.settled : Progress → Bool
  | .pending wake _ => wake.isNone
  | _ => true

/-- What an attempt that is over came to. -/
def Progress.result? : Progress → Option (Except Error Established)
  | .pending .. => none
  | .opened session _ => some (.ok session)
  | .failed e _ => some (.error e)

/-- What a handshake in clear came to, where nothing is to follow on it. -/
def clearResult? : Except Error (Outcome .clear) → Option (Except Error Established)
  | .ok (.ready session) => some (.ok session)
  | .ok (.upgrade _) => none
  | .error e => some (.error e)

/-- What a handshake on a secured channel came to. -/
def securedResult? : Poll (Phase .secured × ReplyReader) (Outcome .secured) → Option (Except Error Established)
  | .pending .. => none
  | .ready (.ok (.ready session)) => some (.ok session)
  | .ready (.error e) => some (.error e)

theorem onSecured_result? (r : Poll (Phase .secured × ReplyReader) (Outcome .secured) × Transport) :
    (onSecured r).result? = securedResult? r.1 := by
  obtain ⟨(e | ⟨⟨session⟩⟩) | ⟨wake, state⟩, t⟩ := r <;> rfl

theorem onSecured_settled (r : Poll (Phase .secured × ReplyReader) (Outcome .secured) × Transport) :
    (onSecured r).settled = r.1.settled := by
  obtain ⟨(e | ⟨⟨session⟩⟩) | ⟨wake, state⟩, t⟩ := r <;> rfl

/-! ### What they come to -/

/-- What a handshake in clear comes to, given all that is delivered. -/
def clearFate (config : Config) (stream : Stream) : List Event × Poll (Phase .clear × ReplyReader) (Outcome .clear) :=
  Dialogue.fate (advance config) (.greeting, {}) stream.outbound (Transport.new stream).delivery

/-- What a handshake on a secured channel comes to, given all that is delivered
there. -/
def securedFate (config : Config) (hostname : String) (out : Outbound) (met : List UInt8 × Ending) :
    List Event × Poll (Phase .secured × ReplyReader) (Outcome .secured) :=
  (advance config).outset (.ok (sayEhlo config .secured hostname)) out met

/-- What follows on the connector's answer, given all that is delivered. -/
def sealedFate (config : Config) (hostname : String) (out : Outbound) :
    Except Error (List UInt8 × Ending) → List Event × Option (Except Error Established)
  | .error e => ([], some (.error e))
  | .ok met => ((securedFate config hostname out met).1, securedResult? (securedFate config hostname out met).2)

/-- What an attempt on a stream comes to in the end. -/
inductive Settled (config : Config) (stream : Stream) : List Event → Option (Except Error Established) → Prop where
  | clear {es : List Event} {p : Poll (Phase .clear × ReplyReader) (Outcome .clear)} :
    clearFate config stream = (es, p) → (∀ hostname, p ≠ .ready (.ok (.upgrade hostname))) →
    Settled config stream es (p.result?.bind clearResult?)
  | secured {es after : List Event} {hostname : String} {result : Option (Except Error Established)}
    {answer : Except Error (List Arrival)} : clearFate config stream = (es, .ready (.ok (.upgrade hostname))) →
    (after, result) = sealedFate config hostname (stream.outbound.adding (Event.lines es))
      (answer.map Arrival.delivery) → Settled config stream (es ++ .upgrade answer :: after) result

/-! ### Settled attempts -/

theorem onClear_settles {p : Poll (Phase .clear × ReplyReader) (Outcome .clear)}
    (hup : ∀ hostname, p ≠ .ready (.ok (.upgrade hostname))) (config : Config) (now : Nat) (peer : Peer)
    (t : Transport) : (onClear config now peer (p, t)).result? = p.result?.bind clearResult? ∧
      (onClear config now peer (p, t)).settled = p.settled := by
  rcases p with (e | session | hostname) | ⟨wake, state⟩
  · exact ⟨rfl, rfl⟩
  · exact ⟨rfl, rfl⟩
  · exact absurd rfl (hup hostname)
  · exact ⟨rfl, rfl⟩

theorem overClear_fate {later : List Nat} {es : List Event}
    {p : Poll (Phase .clear × ReplyReader) (Outcome .clear)} {t : Transport}
    (h : overClear config stream now later = (es, p, t)) (hs : p.settled = true) :
    clearFate config stream = (es, p) := by
  have hfate : (overClear config stream now later).2.1.settled = true →
      ((overClear config stream now later).1, (overClear config stream now later).2.1) = clearFate config stream :=
    Dialogue.listen_settled
  rw [h] at hfate
  exact (hfate hs).symm

theorem overSecured_fate {t : Transport} {arrivals : List Arrival} {hostname : String} {now : Nat} {later : List Nat}
    (hs : (onSecured (overSecured config t arrivals hostname now later).2).settled = true) :
    ((overSecured config t arrivals hostname now later).1,
        (onSecured (overSecured config t arrivals hostname now later).2).result?) =
      sealedFate config hostname t.stream.outbound (.ok (Arrival.delivery arrivals)) := by
  rw [onSecured_settled] at hs
  have hfate : ((overSecured config t arrivals hostname now later).1,
      (overSecured config t arrivals hostname now later).2.1) =
      securedFate config hostname t.stream.outbound (Arrival.delivery arrivals) := Dialogue.follow_settled hs
  rw [onSecured_result?]
  simp only [sealedFate, ← hfate]

/-- A settled attempt has come to it. -/
theorem Stage.settled (h : Stage config peer run) (hc : peer.connect = .ok stream) (hs : run.2.settled = true) :
    Settled config stream run.1 run.2.result? := by
  cases h with
  | connecting => cases hs
  | unconnected he => rw [he] at hc; cases hc
  | @clear stream' now later es p t hc' ho hup =>
    cases hc.symm.trans hc'
    obtain ⟨hresult, hsettled⟩ := onClear_settles hup config now peer t
    rw [hresult]
    exact .clear (overClear_fate ho (hsettled.symm.trans hs)) hup
  | @unsecured stream' now later es hostname t e hc' ho hu =>
    cases hc.symm.trans hc'
    exact .secured (overClear_fate ho rfl) rfl
  | @secured stream' now now' later later' es hostname t arrivals hc' ho hu =>
    cases hc.symm.trans hc'
    refine .secured (overClear_fate ho rfl) ?_
    rw [← overClear_outbound ho]
    exact overSecured_fate hs

theorem clearFate_came (config : Config) (stream : Stream) :
    Dialogue.Came (advance config) (Course config .clear) (clearFate config stream).1 (clearFate config stream).2 :=
  Dialogue.fate_came (course_bears config .clear) .silent _ _

theorem securedFate_came {hostname : String} (hf : clearFate config stream = (before, .ready (.ok (.upgrade hostname))))
    (arrivals : List Arrival) (out : Outbound) (met : List UInt8 × Ending) :
    Dialogue.Came (advance config) (Course config .secured)
      (before ++ .upgrade (.ok arrivals) :: (securedFate config hostname out met).1)
      (securedFate config hostname out met).2 := by
  have hclear := clearFate_came config stream
  rw [hf] at hclear
  rw [List.append_cons]
  exact Dialogue.outset_came (course_bears config .secured) (came_secured hclear arrivals) out met

/-! ### From the connector's answer on -/

theorem upgrade_notMem_clearFate (config : Config) (stream : Stream) : .upgrade answer ∉ (clearFate config stream).1 :=
  Dialogue.upgrade_notMem_events (advance config) _ _ _

theorem upgrade_notMem_sealedFate (config : Config) (hostname : String) (out : Outbound)
    (delivered : Except Error (List UInt8 × Ending)) :
    .upgrade answer ∉ (sealedFate config hostname out delivered).1 := by
  cases delivered with
  | error e => exact List.not_mem_nil
  | ok met => exact Dialogue.upgrade_notMem_outset (advance config) _ out met

/-- Where the connector was asked, the dialogue in clear was over; and what
follows is the handshake on the channel that the connector gave, if any. -/
theorem Settled.split (h : Settled config stream (before ++ .upgrade answer :: after) result) :
    ∃ hostname, clearFate config stream = (before, .ready (.ok (.upgrade hostname))) ∧
      (after, result) = sealedFate config hostname (stream.outbound.adding (Event.lines before))
        (answer.map Arrival.delivery) := by
  -- No handshake asks the connector, so the event splits the run between its two handshakes.
  have hclear : .upgrade answer ∉ (clearFate config stream).1 := upgrade_notMem_clearFate config stream
  generalize hall : before ++ .upgrade answer :: after = all at h
  cases h with
  | clear hf =>
    rw [hf, ← hall] at hclear
    simp at hclear
  | @secured es rest hostname result answer' hf hsealed =>
    rw [hf] at hclear
    have hsecured : .upgrade answer ∉ (rest, result).1 := hsealed ▸ upgrade_notMem_sealedFate config _ _ _
    obtain ⟨rfl, he, rfl⟩ := (List.append_cons_inj_of_notMem hclear hsecured).1 hall.symm
    cases he
    exact ⟨_, hf, hsealed⟩

/-- An attempt that asked the connector, at the point where it did. -/
theorem Stage.sealed {greeting : Reply} (h : Stage config peer run)
    (hrun : run.1 = .heard greeting :: before ++ .upgrade answer :: after) (hc : peer.connect = .ok stream)
    (hs : run.2.settled = true) :
    (after, run.2.result?) = sealedFate config (greetingName greeting)
      (stream.outbound.adding [.ehlo config.ehloHostname, .startTls]) (answer.map Arrival.delivery) := by
  have hsettled := h.settled hc hs
  rw [hrun] at hsettled
  obtain ⟨hostname, hf, hsealed⟩ := hsettled.split
  have hcame := clearFate_came config stream
  rw [hf] at hcame
  obtain ⟨earlier, ready, hbefore, hcourse, -⟩ := came_upgrade hcame
  obtain ⟨greeting', offer, rfl, rfl, -⟩ := hcourse.startTls
  simp only [List.cons_append, List.nil_append, List.cons.injEq, Event.heard.injEq] at hbefore
  obtain ⟨rfl, rfl⟩ := hbefore
  exact hsealed

/-- **Nothing received in clear outlives STARTTLS.** Two attempts with one
configuration ask the connector; their greetings have the same first word, it
gives them the same answer, up to the pace and the cut of what is delivered,
and their streams take equally many lines. Then they agree in everything that
follows and in what they come to, whatever was said before and left unread. -/
theorem follow_sealed {config : Config} {peer peer' : Peer} {begun begun' : Nat} {polls polls' : List Nat}
    {stream stream' : Stream} {greeting greeting' : Reply} {before before' after after' : List Event}
    {answer answer' : Except Error (List Arrival)}
    (hc : peer.connect = .ok stream) (hc' : peer'.connect = .ok stream')
    (hroom : stream.outbound.room = stream'.outbound.room)
    (hrun : (follow config peer begun polls).1 = .heard greeting :: before ++ .upgrade answer :: after)
    (hrun' : (follow config peer' begun' polls').1 = .heard greeting' :: before' ++ .upgrade answer' :: after')
    (hname : greetingName greeting = greetingName greeting')
    (hanswer : answer.map Arrival.delivery = answer'.map Arrival.delivery)
    (hs : (follow config peer begun polls).2.settled = true)
    (hs' : (follow config peer' begun' polls').2.settled = true) :
    after = after' ∧ (follow config peer begun polls).2.result? = (follow config peer' begun' polls').2.result? := by
  have hsealed := (follow_stage config peer begun polls).sealed hrun hc hs
  have hsealed' := (follow_stage config peer' begun' polls').sealed hrun' hc' hs'
  have hsame : sealedFate config (greetingName greeting)
      (stream.outbound.adding [.ehlo config.ehloHostname, .startTls]) (answer.map Arrival.delivery) =
      sealedFate config (greetingName greeting')
      (stream'.outbound.adding [.ehlo config.ehloHostname, .startTls]) (answer'.map Arrival.delivery) := by
    have hadding := Outbound.adding_room hroom [.ehlo config.ehloHostname, .startTls]
    rw [hname, hanswer]
    cases answer'.map Arrival.delivery with
    | error e => rfl
    | ok met => simp only [sealedFate, securedFate, Dialogue.outset_room _ _ hadding]
  exact Prod.mk.inj (hsealed.trans (hsame.trans hsealed'.symm))

/-! A server that offers logins in clear, slips in what could pass for answers
behind its permission for TLS, and takes its time; on the secured channel it
says what the other one does. -/

def baiting : Peer where
  delay := 3
  connect := .ok { arrivals := [
    .data "220 mx hello\r\n".toUTF8.toList, .delay 2,
    .data "250-other\r\n250-AUTH PLAIN\r\n250 STARTTLS\r\n".toUTF8.toList,
    .data "220 on\r\n250-mx\r\n250 AUTH PLAIN\r\n235 ok\r\n".toUTF8.toList] }
  upgrade := fun _ => .ok [
    .data "250-mx\r\n250 AUTH LOGIN\r\n3".toUTF8.toList, .delay 5,
    .data "34 VXNlcg==\r\n334 UGFzcw==\r\n235 ok\r\n".toUTF8.toList]

theorem follow_sealed_baited :
    let run := follow traveller wary 0 [0]
    let run' := follow traveller baiting 0 [3, 5, 10]
    run.1.take 6 ≠ run'.1.take 6 ∧
      run.2.result? = some (.ok ⟨{ hostname := "mx", extensions := [.auth ["LOGIN"]] }, .authenticated .login⟩) ∧
      run.1.drop 6 = run'.1.drop 6 ∧ run.2.result? = run'.2.result? := by
  have hsplit : (follow traveller wary 0 [0]).1 = .heard ⟨⟨220⟩, ["mx ready"]⟩ ::
      [.said (.ehlo "localhost"), .heard ⟨⟨250⟩, ["mx", "STARTTLS"]⟩, .said .startTls, .heard ⟨⟨220⟩, ["go"]⟩] ++
      .upgrade (wary.upgrade []) :: (follow traveller wary 0 [0]).1.drop 6 := by decide +kernel
  have hsplit' : (follow traveller baiting 0 [3, 5, 10]).1 = .heard ⟨⟨220⟩, ["mx hello"]⟩ ::
      [.said (.ehlo "localhost"), .heard ⟨⟨250⟩, ["other", "AUTH PLAIN", "STARTTLS"]⟩, .said .startTls,
        .heard ⟨⟨220⟩, ["on"]⟩] ++
      .upgrade (baiting.upgrade []) :: (follow traveller baiting 0 [3, 5, 10]).1.drop 6 := by decide +kernel
  refine ⟨by decide +kernel, by decide +kernel, ?_⟩
  exact follow_sealed rfl rfl rfl hsplit hsplit' (by decide +kernel) (by decide +kernel) (by decide +kernel)
    (by decide +kernel)

end Attempt

end SmtpClient
