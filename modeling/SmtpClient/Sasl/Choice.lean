/-
Which mechanism to run. Names are compared as sets of raised texts, so an
allow-list never widens what the server offers, and names that this client
cannot run stay in the set without ever being chosen.
-/
import SmtpClient.Sasl.Client

namespace SmtpClient.Sasl

/-- Mechanisms, the preferred one first. Digests do not show the password, so
they come before the mechanisms that do; the token mechanisms make sense only
when the password is a token, so they come last. -/
def priority : List Mechanism :=
  [.cramSha256, .cramSha1, .cramMd5, .login, .plain, .xoauth2, .oauthBearer]

/-- Puts a text into an ascending list, once. -/
def insertName (name : String) : List String → List String
  | [] => [name]
  | other :: names =>
    if name < other then name :: other :: names
    else if name = other then other :: names
    else other :: insertName name names

/-- Texts as an ascending list, each once. -/
def nameSet (names : List String) : List String :=
  names.foldr insertName []

/-- The raised names that both sides accept, ascending. An empty allow-list
accepts everything. -/
def selectable (advertised allowList : List String) : List String :=
  let allow := allowList.map Text.raiseAscii
  nameSet ((advertised.map Text.raiseAscii).filter fun name => allow.isEmpty || name ∈ allow)

/-- The preferred mechanism among allowed names. -/
def preferred (allowed : List String) : Option Mechanism :=
  priority.find? fun m => m.name ∈ allowed

/-- The client of the preferred mechanism; none if no allowed name can be run.
A mechanism that refuses the credentials is not replaced by another. -/
def choose (username password : String) (allowed : List String) : Except Error (Option Client) :=
  match preferred allowed with
  | none => .ok none
  | some kind => (Client.new kind username password).map some

end SmtpClient.Sasl
