/-
Dialogues: exchanges in which the client sends one line, waits for the reply
to it and then moves again. A dialogue is a function from its state and a
reply to its next move; it never sees bytes.
-/
import SmtpClient.Auth
import SmtpClient.Transport

namespace SmtpClient

/-- The client's move in a dialogue. -/
inductive Move (σ β : Type) where
  | send (command : Command) (state : σ)
  | finish (result : β)

/-- A dialogue: the move that follows a reply. -/
abbrev Dialogue (σ β : Type) := σ → Reply → Except Error (Move σ β)

namespace Dialogue

variable {σ β : Type}

/-- The dialogue over bytes: replies are read from their beginning, each after
the line that asked for it was written. -/
def conversation (d : Dialogue σ β) : Conversation (σ × ReplyReader) β where
  feed := fun (s, reader) byte =>
    match reader.feed byte with
    | .more reader => .more (s, reader)
    | .done (.error e) => .done (.error e)
    | .done (.ok reply) =>
      match d s reply with
      | .error e => .done (.error e)
      | .ok (.send command s) => .write command (s, {})
      | .ok (.finish result) => .done (.ok result)
  finish := fun (_, reader) => reader.finish

/-- Makes the first move of a dialogue and follows it as far as it goes. -/
def begin (d : Dialogue σ β) (first : Except Error (Move σ β)) (now : Nat) (t : Transport) :
    Poll (σ × ReplyReader) β × Transport :=
  match first with
  | .error e => (.ready (.error e), t)
  | .ok (.finish result) => (.ready (.ok result), t)
  | .ok (.send command s) =>
    match t.write command with
    | (.ok (), t) => t.poll d.conversation now (s, {})
    | (.error e, t) => (.ready (.error e), t)

end Dialogue

namespace AuthSession

/-- What the exchange wants, as a move. -/
def move : Except Error AuthAction × AuthSession → Except Error (Move AuthSession AuthOutcome)
  | (.error e, _) => .error e
  | (.ok (.send command), s) => .ok (.send command s)
  | (.ok (.done outcome), _) => .ok (.finish outcome)

/-- The login exchange as a dialogue. -/
def dialogue : Dialogue AuthSession AuthOutcome :=
  fun s reply => move (s.advance reply)

end AuthSession

/-- Runs the login exchange with a server that offers these mechanism names. -/
def Transport.authenticate (t : Transport) (config : Config) (advertised : List String) (now : Nat) :
    Poll (AuthSession × ReplyReader) AuthOutcome × Transport :=
  AuthSession.dialogue.begin (AuthSession.move (AuthSession.new config advertised).start) now t

end SmtpClient
