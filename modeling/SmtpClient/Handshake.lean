/-
The handshake: greeting, EHLO or HELO, STARTTLS and login, as a dialogue.
It runs on a channel in clear and, after STARTTLS, once more on a secured
one. The channel is an index of the types, so a secured channel is never
upgraded again; and the only thing that passes from one to the other is the
name in the greeting.
-/
import SmtpClient.Dialogue
import SmtpClient.ServerInfo

namespace SmtpClient.Handshake

/-- What the dialogue runs on. -/
inductive Channel where
  | clear
  | secured
  deriving DecidableEq

/-- The reply that the handshake waits for. -/
inductive Phase : Channel → Type where
  | greeting : Phase .clear
  /-- `hostname` is the server's name in its greeting. -/
  | ehlo {ch : Channel} (hostname : String) : Phase ch
  | helo {ch : Channel} (hostname : String) : Phase ch
  | startTls (hostname : String) : Phase .clear
  | login {ch : Channel} (info : ServerInfo) (session : AuthSession) : Phase ch

/-- What is known after the handshake. -/
structure Established where
  info : ServerInfo
  auth : AuthOutcome
  deriving DecidableEq

/-- How a dialogue on a channel ends, if it does not fail. -/
inductive Outcome : Channel → Type where
  | ready {ch : Channel} (session : Established) : Outcome ch
  /-- The server is ready for TLS. -/
  | upgrade (hostname : String) : Outcome .clear

/-- A move on a channel. -/
abbrev Next (ch : Channel) := Move (Phase ch) (Outcome ch)

/-- Greeting and STARTTLS must be answered by this very code. -/
def expectReady (reply : Reply) : Except Error Unit :=
  if reply.code = .serviceReady then .ok ()
  else if reply.isSuccess then .error (.protocol (.unexpectedCode .serviceReady reply))
  else .error (.ofReply reply)

/-- The first word of the first line of a greeting. -/
def greetingName (reply : Reply) : String :=
  (Text.words (reply.message.headD "")).headD ""

/-- The move of the login exchange within a handshake. -/
def loginMove (ch : Channel) (info : ServerInfo) :
    Except Error AuthAction × AuthSession → Except Error (Next ch)
  | (.error e, _) => .error e
  | (.ok (.send command), s) => .ok (.send command (.login info s))
  | (.ok (.done auth), _) => .ok (.finish (.ready { info, auth }))

/-- Begins the login. -/
def beginLogin (config : Config) (ch : Channel) (info : ServerInfo) : Except Error (Next ch) :=
  loginMove ch info (AuthSession.new config info.authMechanisms).start

/-- Says EHLO. -/
def sayEhlo (config : Config) (ch : Channel) (hostname : String) : Next ch :=
  .send (.ehlo config.ehloHostname) (.ehlo hostname)

/-- What follows when the server's extensions are known: in clear, STARTTLS
if it is asked for; else the login. -/
def afterHello (config : Config) : (ch : Channel) → ServerInfo → Except Error (Next ch)
  | .clear, info =>
    if config.security = .startTls then
      if info.supportsStartTls then .ok (.send .startTls (.startTls info.hostname))
      else .error (.notSupported "STARTTLS")
    else beginLogin config .clear info
  | .secured, info => beginLogin config .secured info

/-- The move that follows a reply. A refused EHLO is repeated as HELO, which
offers no extensions. -/
def advance (config : Config) {ch : Channel} : Dialogue (Phase ch) (Outcome ch)
  | .greeting, reply => do
    expectReady reply
    return sayEhlo config .clear (greetingName reply)
  | .ehlo hostname, reply =>
    if reply.isSuccess then
      afterHello config ch { hostname, extensions := ServerInfo.extensionsOf (reply.message.drop 1) }
    else .ok (.send (.helo config.ehloHostname) (.helo hostname))
  | .helo hostname, reply =>
    if reply.isSuccess then afterHello config ch { hostname } else .error (.ofReply reply)
  | .startTls hostname, reply => do
    expectReady reply
    return .finish (.upgrade hostname)
  | .login info session, reply => loginMove ch info (session.advance reply)

end SmtpClient.Handshake
