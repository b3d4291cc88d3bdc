/-
What is known of a server: the name in its greeting and the extensions of its
last EHLO reply. Each extension counts once.
-/
import SmtpClient.Extension

namespace SmtpClient

/-- A server's name and extensions. -/
structure ServerInfo where
  hostname : String := ""
  extensions : List Extension := []
  deriving DecidableEq

namespace ServerInfo

/-- The extensions that lines offer, each once. -/
def extensionsOf (lines : List String) : List Extension :=
  (lines.map Extension.parse).eraseDups

def supports (info : ServerInfo) (e : Extension) : Bool :=
  e ∈ info.extensions

def supportsStartTls (info : ServerInfo) : Bool :=
  info.supports .startTls

/-- The largest message the server accepts, if it says. -/
def maxMessageSize (info : ServerInfo) : Option Nat :=
  info.extensions.findSome? fun
    | .size limit => limit
    | _ => none

/-- The login mechanisms of all lines that offer some, each once. -/
def authMechanisms (info : ServerInfo) : List String :=
  (info.extensions.flatMap fun
    | .auth names => names
    | _ => []).eraseDups

/-- Texts in the order of their code points. -/
def sorted (texts : List String) : List String :=
  texts.mergeSort fun a b => decide (a ≤ b)

/-- The extensions as sorted lines. -/
def extensionLines (info : ServerInfo) : List String :=
  sorted (info.extensions.map Extension.describe)

/-- The names of the login mechanisms, sorted. -/
def mechanismNames (info : ServerInfo) : List String :=
  sorted info.authMechanisms

end ServerInfo

end SmtpClient
