/-
The login exchange as a state machine (RFC 4954). It never touches the
network: it says which line to send next and takes the replies it is given.

    init → exchanging 0 → exchanging 1 → … → success or failure
    init → success (no login) or failure
-/
import SmtpClient.Command
import SmtpClient.Config
import SmtpClient.Reply.Lines
import SmtpClient.Sasl.Choice

namespace SmtpClient

/-- How a login phase that did not fail ended. -/
inductive AuthOutcome where
  | skipped
  | authenticated (mechanism : Mechanism)
  deriving DecidableEq

def AuthOutcome.describe : AuthOutcome → String
  | .skipped => "Skipped"
  | .authenticated mechanism => "Authenticated(" ++ mechanism.label ++ ")"

/-- What the exchange wants next. -/
inductive AuthAction where
  /-- Send this line and give the reply back. -/
  | send (command : Command)
  | done (outcome : AuthOutcome)
  deriving DecidableEq

/-- The login exchange of one connection. -/
structure AuthSession where
  login : LoginPolicy
  username : Option String
  password : Option String
  /-- The names that both sides accept. -/
  allowed : List String
  client : Option Sasl.Client := none
  state : AuthState := .init
  deriving DecidableEq

namespace AuthSession

/-- An exchange with a server that offers these mechanism names. -/
def new (config : Config) (advertised : List String) : AuthSession where
  login := config.login
  username := config.username
  password := config.password
  allowed := Sasl.selectable advertised config.authMethods

def succeed (s : AuthSession) (outcome : AuthOutcome) : Except Error AuthAction × AuthSession :=
  (.ok (.done outcome), { s with state := .success })

def fail (s : AuthSession) (e : Error) : Except Error AuthAction × AuthSession :=
  (.error e, { s with state := .failure, client := none })

/-- No login is possible: fatal if it is required, else it is skipped. -/
def forgo (s : AuthSession) (e : Error) : Except Error AuthAction × AuthSession :=
  if s.login = .required then s.fail e else s.succeed .skipped

/-- The line that begins an exchange; an empty opening is not sent. -/
def beginLine (client : Sasl.Client) : Command :=
  .auth client.kind (if client.opening.isEmpty then none else some (Text.Base64.encode client.opening))

/-- Begins the exchange with these credentials. -/
def begin (s : AuthSession) (username password : String) : Except Error AuthAction × AuthSession :=
  match Sasl.choose username password s.allowed with
  | .error e => s.fail e
  | .ok none => s.fail .noSupportedMechanism
  | .ok (some client) =>
    (.ok (.send (beginLine client)), { s with client := some client, state := .exchanging 0 })

/-- Decides whether to log in and, if so, says the first line. The session
gives its credentials away here, unless login is disabled. -/
def start (s : AuthSession) : Except Error AuthAction × AuthSession :=
  if s.state ≠ .init then (.error (.invalidState (.authStarted s.state)), s)
  else if s.login = .disabled then s.succeed .skipped
  else
    let bare := { s with username := none, password := none }
    match s.username, s.password with
    | some username, some password =>
      if s.allowed = [] then bare.forgo .noUsableMechanism
      else { bare with state := .selecting }.begin username password
    | _, _ => bare.forgo .missingCredentials

/-- Answers the challenge in a reply. -/
def respond (s : AuthSession) (round : Nat) (reply : Reply) : Except Error AuthAction × AuthSession :=
  let encoded := Text.trim reply.lastLine
  match Text.Base64.decode (Text.Utf8.encode encoded) with
  | .error fault => s.fail (.protocol (.badChallenge encoded fault))
  | .ok challenge =>
    match s.client with
    | none => s.fail (.invalidState .mechanismMissing)
    | some client =>
      let (answer, client) := client.answer challenge
      (.ok (.send (.response (Text.Base64.encode answer))),
        { s with client := some client, state := .exchanging (round + 1) })

/-- Takes the reply to the last line sent. -/
def advance (s : AuthSession) (reply : Reply) : Except Error AuthAction × AuthSession :=
  match s.state with
  | .exchanging round =>
    match s.client with
    | none => (.error (.invalidState .mechanismMissing), s)
    | some client =>
      match reply.kind with
      | .success => { s with client := none }.succeed (.authenticated client.kind)
      | .failure => s.fail (.auth client.kind (reply.code.text ++ " " ++ reply.text))
      | .proceed => s.respond round reply
  | state => (.error (.invalidState (.noReplyExpected state)), s)

/-- Takes a reply of one line as it came; a line that is no reply fails the
session. -/
def advanceLine (s : AuthSession) (line : String) : Except Error AuthAction × AuthSession :=
  match Reply.ofLines [line] with
  | .ok reply => s.advance reply
  | .error e => s.fail e

/-- The session without its credentials. -/
def describe (s : AuthSession) : String :=
  Text.openRecord "Authenticator" [
    ("login", s.login.describe),
    ("allowed", Text.quotedSet s.allowed),
    ("mechanism", Text.optional (s.client.map fun c => c.kind.label)),
    ("state", s.state.describe)]

end AuthSession

end SmtpClient
