/-
What can go wrong. Errors are causes; their wording is in `Error.message`
and the functions it calls, and nowhere else.
-/
import SmtpClient.Mechanism
import SmtpClient.Reply
import SmtpClient.Status
import SmtpClient.Text.Base64
import SmtpClient.Text.Utf8

namespace SmtpClient

/-- Why a read or write failed. -/
inductive StreamFault where
  /-- A line is not UTF-8. -/
  | encoding (fault : Text.Utf8.Fault)
  /-- The stream's own words. -/
  | other (text : String)
  deriving DecidableEq

/-- How the server broke the protocol. -/
inductive ProtocolFault where
  | emptyReply
  | badCode (line : String)
  | malformedLine (line : String)
  | lineTooLong
  | tooManyLines
  /-- A positive reply, but not the one that must stand here. -/
  | unexpectedCode (expected : ReplyCode) (reply : Reply)
  | badChallenge (text : String) (fault : Text.Base64.Fault)
  | other (text : String)
  deriving DecidableEq

/-- Why a mechanism refuses credentials. -/
inductive CredentialFault where
  /-- The separator of PLAIN occurs in them. -/
  | nul
  /-- The separator of the token mechanisms occurs in them. -/
  | separator (mechanism : Mechanism)
  | other (text : String)
  deriving DecidableEq

/-- Which call came at the wrong time. -/
inductive Misuse where
  | authStarted (state : AuthState)
  | noReplyExpected (state : AuthState)
  | mechanismMissing
  | unusable (id : Nat) (status : Status)
  | other (text : String)
  deriving DecidableEq

/-- The error of an operation. -/
inductive Error where
  | stream (fault : StreamFault)
  | tls (text : String)
  | connectionClosed
  | timeout (address : String)
  /-- The server answered in the negative. -/
  | rejected (code : Nat) (text : String)
  | protocol (fault : ProtocolFault)
  /-- The server refused the login; `reply` is its answer with the code. -/
  | auth (mechanism : Mechanism) (reply : String)
  | missingCredentials
  | noUsableMechanism
  | noSupportedMechanism
  | invalidCredentials (fault : CredentialFault)
  | poolClosed
  | notSupported (feature : String)
  | invalidState (misuse : Misuse)
  deriving DecidableEq

def StreamFault.message : StreamFault → String
  | .encoding fault => fault.message
  | .other text => text

def ProtocolFault.message : ProtocolFault → String
  | .emptyReply => "Empty reply"
  | .badCode line => "Invalid reply code: " ++ line
  | .malformedLine line => "Malformed reply line: " ++ line
  | .lineTooLong => "Reply line longer than " ++ toString Reply.maxLineBytes ++ " bytes"
  | .tooManyLines => "Reply longer than " ++ toString Reply.maxLines ++ " lines"
  | .unexpectedCode expected reply => "expected " ++ expected.text ++ ", got " ++ reply.summary
  | .badChallenge text fault => "Invalid AUTH challenge " ++ Text.quote text ++ ": " ++ fault.message
  | .other text => text

def CredentialFault.message : CredentialFault → String
  | .nul => "PLAIN credentials must not contain NUL"
  | .separator mechanism => mechanism.name ++ " credentials must not contain \\x01"
  | .other text => text

def Misuse.message : Misuse → String
  | .authStarted state => "AUTH already started (" ++ state.describe ++ ")"
  | .noReplyExpected state => "no AUTH reply expected (" ++ state.describe ++ ")"
  | .mechanismMissing => "AUTH mechanism missing"
  | .unusable id status => "connection " ++ toString id ++ " is " ++ status.describe
  | .other text => text

namespace Error

/-- The error as it is shown to people. -/
def message : Error → String
  | stream fault => "I/O error: " ++ fault.message
  | tls text => "TLS error: unexpected error: " ++ text
  | connectionClosed => "Connection closed by server"
  | timeout address => "Timed out connecting to " ++ address
  | rejected code text => "SMTP error " ++ toString code ++ ": " ++ text
  | protocol fault => "Protocol error: " ++ fault.message
  | auth mechanism reply => "AUTH " ++ mechanism.name ++ " failed: " ++ reply
  | missingCredentials => "Login is required, but no credentials supplied"
  | noUsableMechanism =>
    "Login is required, but no allowed AUTH methods available. You may need to do STARTTLS"
  | noSupportedMechanism => "Cannot find supported AUTH method"
  | invalidCredentials fault => "Invalid credentials for mechanism: " ++ fault.message
  | poolClosed => "Connection pool is closed"
  | notSupported feature => "Server does not support " ++ feature
  | invalidState misuse => "Invalid state for operation: " ++ misuse.message

/-- The negative reply that `r` is, as an error. -/
def ofReply (r : Reply) : Error :=
  rejected r.code.value r.text

/-- The server refused for good. -/
def isPermanent : Error → Bool
  | rejected code _ => (ReplyCode.mk code).isPermanent
  | _ => false

/-- The server refused for now. -/
def isTransient : Error → Bool
  | rejected code _ => (ReplyCode.mk code).isTransient
  | _ => false

/-- The stream can carry no more traffic. -/
def isTransport : Error → Bool
  | stream _ | tls _ | connectionClosed | timeout _ => true
  | _ => false

/-- The cause is the client's configuration, not the server. -/
def isConfiguration : Error → Bool
  | missingCredentials | noUsableMechanism | noSupportedMechanism | invalidCredentials _ => true
  | _ => false

end Error

end SmtpClient
