/-
Dialogues that look alike to whoever sees the replies, the lines as logs show
them and the results. Where two dialogues make moves that look alike, they look
alike on any input (`Dialogue.fate_alike`, `Dialogue.outset_alike`), unless one
of them fails because its credentials are refused.
-/
import SmtpClient.Proofs.Sealing

namespace SmtpClient

variable {σ β : Type}

/-! ## What is seen -/

/-- What is seen of an event: of a line what logs show, and of a channel what is
delivered on it. -/
inductive Sight where
  | heard (reply : Reply)
  | said (line : String)
  | upgrade (answer : Except Error (List UInt8 × Ending))
  deriving DecidableEq

namespace Sight

def line? : Sight → Option String
  | said line => some line
  | _ => none

def reply? : Sight → Option Reply
  | heard reply => some reply
  | _ => none

end Sight

namespace Event

def sight : Event → Sight
  | heard reply => .heard reply
  | said command => .said command.masked
  | upgrade answer => .upgrade (answer.map Arrival.delivery)

/-- What is seen of events. -/
def sights (events : List Event) : List Sight :=
  events.map sight

/-- What is delivered on the channels that the connector gave, or why it gave
none. -/
def answers (events : List Event) : List (Except Error (List UInt8 × Ending)) :=
  events.filterMap fun
    | upgrade answer => some (answer.map Arrival.delivery)
    | _ => none

variable {events events' : List Event}

theorem mem_answers_split (before after : List Event) (answer : Except Error (List Arrival)) :
    answer.map Arrival.delivery ∈ answers (before ++ .upgrade answer :: after) :=
  List.mem_filterMap.2 ⟨.upgrade answer, List.mem_append_right _ List.mem_cons_self, rfl⟩

theorem sights_append (events later : List Event) : sights (events ++ later) = sights events ++ sights later :=
  List.map_append

/-- Who sees the same sees the same lines in the logs. -/
theorem masked_of_sights (h : sights events = sights events') :
    (lines events).map Command.masked = (lines events').map Command.masked := by
  have hseen : ∀ events, (lines events).map Command.masked = (sights events).filterMap Sight.line? := by
    intro events
    rw [lines, List.map_filterMap, sights, List.filterMap_map]
    exact congrArg (events.filterMap ·) (funext fun event => by cases event <;> rfl)
  rw [hseen, hseen, h]

theorem replies_of_sights (h : sights events = sights events') : replies events = replies events' := by
  have hseen : ∀ events, replies events = (sights events).filterMap Sight.reply? := by
    intro events
    rw [replies, sights, List.filterMap_map]
    exact congrArg (events.filterMap ·) (funext fun event => by cases event <;> rfl)
  rw [hseen, hseen, h]

end Event

/-- Streams with the same room have the same room after equally many lines. -/
theorem Outbound.adding_sights {o o' : Outbound} {events events' : List Event} (h : o.room = o'.room)
    (hs : Event.sights events = Event.sights events') :
    (o.adding (Event.lines events)).room = (o'.adding (Event.lines events')).room := by
  have hlength := congrArg List.length (Event.masked_of_sights hs)
  rw [List.length_map, List.length_map] at hlength
  rw [room_adding, room_adding, h, hlength]

/-- The logs of streams grow alike. -/
theorem Outbound.log_sights {o o' : Outbound} {events events' : List Event} (h : o.log = o'.log)
    (hs : Event.sights events = Event.sights events') :
    (o.adding (Event.lines events)).log = (o'.adding (Event.lines events')).log := by
  simp only [log, adding, List.map_append] at h ⊢
  rw [h, Event.masked_of_sights hs]

/-! ## Moves -/

/-- The credentials were refused. -/
def Refused {α : Type} (result : Except Error α) : Prop :=
  ∃ fault, result = .error (.invalidCredentials fault)

/-- Moves that look alike and lead to states that are alike, unless one of them
is that the credentials are refused. -/
inductive MovesAlike (like : σ → σ → Prop) : Except Error (Move σ β) → Except Error (Move σ β) → Prop where
  | fails (e : Error) : MovesAlike like (.error e) (.error e)
  | finishes (b : β) : MovesAlike like (.ok (.finish b)) (.ok (.finish b))
  | sends {command command' : Command} {s s' : σ} : command.masked = command'.masked → like s s' →
    MovesAlike like (.ok (.send command s)) (.ok (.send command' s'))
  | refused {move move' : Except Error (Move σ β)} : Refused move ∨ Refused move' → MovesAlike like move move'

/-- From states that are alike, two dialogues make moves that look alike. -/
def DialoguesAlike (like : σ → σ → Prop) (d d' : Dialogue σ β) : Prop :=
  ∀ s s' reply, like s s' → MovesAlike like (d s reply) (d' s' reply)

/-! ## On the same input -/

/-- What a byte does is alike, unless the credentials are refused. -/
inductive StepsAlike (like : σ → σ → Prop) : List Event × ((σ × ReplyReader) ⊕ Except Error β) × Outbound →
    List Event × ((σ × ReplyReader) ⊕ Except Error β) × Outbound → Prop where
  | goesOn {new new' : List Event} {s s' : σ} {reader : ReplyReader} {out out' : Outbound} :
    Event.sights new = Event.sights new' → like s s' → out.room = out'.room →
    StepsAlike like (new, .inl (s, reader), out) (new', .inl (s', reader), out')
  | ends {new new' : List Event} {result : Except Error β} {out out' : Outbound} :
    Event.sights new = Event.sights new' → StepsAlike like (new, .inr result, out) (new', .inr result, out')
  | refused {new new' : List Event} {next next' : (σ × ReplyReader) ⊕ Except Error β} {out out' : Outbound} :
    (∃ result, next = .inr result ∧ Refused result) ∨ (∃ result, next' = .inr result ∧ Refused result) →
    StepsAlike like (new, next, out) (new', next', out')

/-- A fate in which the credentials are refused. -/
def FateRefused (fate : List Event × Poll (σ × ReplyReader) β) : Prop :=
  ∃ result, fate.2 = .ready result ∧ Refused result

/-- Fates that look alike, unless the credentials are refused. -/
def FatesAlike (fate fate' : List Event × Poll (σ × ReplyReader) β) : Prop :=
  ¬ FateRefused fate → ¬ FateRefused fate' →
    Event.sights fate.1 = Event.sights fate'.1 ∧ fate.2.result? = fate'.2.result?

namespace Dialogue

variable {like : σ → σ → Prop} {d d' : Dialogue σ β} {s s' : σ} {out out' : Outbound}
  {first first' : Except Error (Move σ β)}

theorem step_alike (h : DialoguesAlike like d d') (hs : like s s') (hroom : out.room = out'.room)
    (reader : ReplyReader) (byte : UInt8) :
    StepsAlike like (d.step (s, reader) out byte) (d'.step (s', reader) out' byte) := by
  simp only [step]
  cases reader.feed byte with
  | more reader => exact .goesOn rfl hs hroom
  | done result =>
    cases result with
    | error e => exact .ends rfl
    | ok reply =>
      have hmoves := h s s' reply hs
      simp only
      generalize d s reply = move at hmoves ⊢
      generalize d' s' reply = move' at hmoves ⊢
      cases hmoves with
      | fails e => exact .ends rfl
      | finishes b => exact .ends rfl
      | @sends command command' s₁ s₁' hmasked hlike =>
        have hsights : Event.sights [.heard reply, .said command] = Event.sights [.heard reply, .said command'] := by
          simp only [Event.sights, List.map_cons, Event.sight, hmasked]
        obtain ⟨wrote, o, o', hw, hw', hroom'⟩ := Outbound.write_room hroom command command'
        simp only [hw, hw']
        cases wrote with
        | error e => exact .ends hsights
        | ok u => exact .goesOn hsights hlike hroom'
      | refused hrefused =>
        rcases hrefused with ⟨fault, rfl⟩ | ⟨fault, rfl⟩
        · exact .refused (.inl ⟨_, rfl, fault, rfl⟩)
        · exact .refused (.inr ⟨_, rfl, fault, rfl⟩)

/-- **Alike on the same input.** -/
theorem fate_alike (h : DialoguesAlike like d d') (hs : like s s') (hroom : out.room = out'.room)
    (reader : ReplyReader) (met : List UInt8 × Ending) :
    FatesAlike (d.fate (s, reader) out met) (d'.fate (s', reader) out' met) := by
  obtain ⟨bytes, ending⟩ := met
  induction bytes generalizing s s' reader out out' with
  | nil => cases ending <;> exact fun _ _ => ⟨rfl, rfl⟩
  | cons byte bytes ih =>
    have hstep := step_alike h hs hroom reader byte
    rw [fate_cons, fate_cons]
    generalize d.step (s, reader) out byte = r at hstep ⊢
    generalize d'.step (s', reader) out' byte = r' at hstep ⊢
    intro hr hr'
    cases hstep with
    | goesOn hsights hlike hroom' =>
      obtain ⟨hlater, hresult⟩ := ih hlike hroom' _ hr hr'
      simp only [Event.sights_append, hsights, hlater, hresult, and_self]
    | ends hsights => exact ⟨hsights, rfl⟩
    | refused hrefused =>
      rcases hrefused with ⟨result, rfl, hresult⟩ | ⟨result, rfl, hresult⟩
      · exact absurd ⟨result, rfl, hresult⟩ hr
      · exact absurd ⟨result, rfl, hresult⟩ hr'

theorem outset_alike (h : DialoguesAlike like d d') (hfirst : MovesAlike like first first')
    (hroom : out.room = out'.room) (met : List UInt8 × Ending) :
    FatesAlike (d.outset first out met) (d'.outset first' out' met) := by
  cases hfirst with
  | fails e => exact fun _ _ => ⟨rfl, rfl⟩
  | finishes b => exact fun _ _ => ⟨rfl, rfl⟩
  | @sends command command' s s' hmasked hlike =>
    have hsaid : ∀ es es', Event.sights es = Event.sights es' →
        Event.sights (.said command :: es) = Event.sights (.said command' :: es') := by
      intro es es' hes
      exact congrArg₂ List.cons (congrArg Sight.said hmasked) hes
    obtain ⟨wrote, o, o', hw, hw', hroom'⟩ := Outbound.write_room hroom command command'
    simp only [outset, hw, hw']
    cases wrote with
    | error e => exact fun _ _ => ⟨hsaid [] [] rfl, rfl⟩
    | ok u =>
      intro hr hr'
      obtain ⟨hsights, hresult⟩ := fate_alike h hlike hroom' {} met hr hr'
      exact ⟨hsaid _ _ hsights, hresult⟩
  | refused hrefused =>
    intro hr hr'
    rcases hrefused with ⟨fault, rfl⟩ | ⟨fault, rfl⟩
    · exact absurd ⟨_, rfl, fault, rfl⟩ hr
    · exact absurd ⟨_, rfl, fault, rfl⟩ hr'

end Dialogue

end SmtpClient
