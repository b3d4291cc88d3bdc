/-
The client's configuration, and the builder that fills in what is not said.
Times are in milliseconds.
-/
import SmtpClient.Mechanism
import SmtpClient.Text.Record

namespace SmtpClient

/-- How the connection is secured. -/
inductive Security where
  | none
  /-- Plain at first, then upgraded with STARTTLS. -/
  | startTls
  /-- TLS from the start. -/
  | implicit
  deriving DecidableEq

namespace Security

def describe : Security → String
  | none => "None"
  | startTls => "StartTls"
  | implicit => "Implicit"

def defaultPort : Security → Nat
  | none => 25
  | startTls => 587
  | implicit => 465

end Security

/-- Whether the client logs in. -/
inductive LoginPolicy where
  | disabled
  /-- Logs in where credentials and a usable mechanism exist. -/
  | optional
  | required
  deriving DecidableEq

def LoginPolicy.describe : LoginPolicy → String
  | .disabled => "Disabled"
  | .optional => "Optional"
  | .required => "Required"

/-- A span of time in milliseconds, in seconds from one second on. -/
def describeMillis (ms : Nat) : String :=
  if ms = 0 then "0ns"
  else if ms < 1000 then toString ms ++ "ms"
  else
    let fraction := [ms / 100 % 10, ms / 10 % 10, ms % 10]
    let shown := (fraction.reverse.dropWhile (· == 0)).reverse
    let digits := String.ofList (shown.map Nat.digitChar)
    toString (ms / 1000) ++ (if shown.isEmpty then "" else "." ++ digits) ++ "s"

/-- Everything that client and pool need to know. -/
structure Config where
  host : String
  port : Nat := 587
  security : Security := .startTls
  login : LoginPolicy := .optional
  username : Option String := none
  /-- The password, or the access token for the token mechanisms. -/
  password : Option String := none
  /-- The mechanisms that may be used, raised; empty means all. -/
  authMethods : List String := []
  /-- The name sent with EHLO and HELO. -/
  ehloHostname : String := "localhost"
  maxPoolSize : Nat := 10
  /-- Whether released connections are kept. -/
  keepAlive : Bool := true
  idleTimeout : Nat := 300000
  connectTimeout : Nat := 30000
  /-- Whether TLS settings of the caller's own are used. -/
  customTls : Bool := false
  /-- Whether any certificate is accepted. -/
  trustAll : Bool := false
  deriving DecidableEq

namespace Config

def hasCredentials (c : Config) : Bool :=
  c.username.isSome && c.password.isSome

/-- All settings; the password is masked. -/
def describe (c : Config) : String :=
  Text.record "Config" [
    ("host", Text.quote c.host),
    ("port", toString c.port),
    ("security", c.security.describe),
    ("login", c.login.describe),
    ("username", Text.optional (c.username.map Text.quote)),
    ("password", Text.optional (c.password.map fun _ => Text.quote "<redacted>")),
    ("auth_methods", Text.quotedList c.authMethods),
    ("ehlo_hostname", Text.quote c.ehloHostname),
    ("max_pool_size", toString c.maxPoolSize),
    ("keep_alive", toString c.keepAlive),
    ("idle_timeout", describeMillis c.idleTimeout),
    ("connect_timeout", describeMillis c.connectTimeout),
    ("tls", if c.customTls then Text.optional (some (Text.quote "<custom>")) else Text.optional none),
    ("trust_all", toString c.trustAll)]

/-- The endpoint that a connection over TCP goes to. -/
def describeEndpoint (c : Config) : String :=
  Text.openRecord "TcpConnector" [
    ("host", Text.quote c.host),
    ("port", toString c.port),
    ("security", c.security.describe)]

end Config

/-- Settings in the making: the port is open until `build`. -/
structure ConfigBuilder where
  settings : Config
  port : Option Nat := none

namespace ConfigBuilder

/-- A builder with the defaults. -/
def new (host : String) : ConfigBuilder :=
  { settings := { host } }

def withPort (b : ConfigBuilder) (port : Nat) : ConfigBuilder :=
  { b with port := some port }

def withSecurity (b : ConfigBuilder) (security : Security) : ConfigBuilder :=
  { b with settings := { b.settings with security } }

def withLogin (b : ConfigBuilder) (login : LoginPolicy) : ConfigBuilder :=
  { b with settings := { b.settings with login } }

def withCredentials (b : ConfigBuilder) (username password : String) : ConfigBuilder :=
  { b with settings := { b.settings with username := some username, password := some password } }

/-- Restricts login to a blank-separated list of names. Names that this
client cannot run count too: a list of only such names allows nothing. -/
def withAuthMethods (b : ConfigBuilder) (list : String) : ConfigBuilder :=
  { b with settings := { b.settings with authMethods := Mechanism.names list } }

def withEhloHostname (b : ConfigBuilder) (ehloHostname : String) : ConfigBuilder :=
  { b with settings := { b.settings with ehloHostname } }

/-- Sets the capacity; 0 is raised to 1. -/
def withMaxPoolSize (b : ConfigBuilder) (size : Nat) : ConfigBuilder :=
  { b with settings := { b.settings with maxPoolSize := max size 1 } }

def withKeepAlive (b : ConfigBuilder) (keepAlive : Bool) : ConfigBuilder :=
  { b with settings := { b.settings with keepAlive } }

def withIdleTimeout (b : ConfigBuilder) (idleTimeout : Nat) : ConfigBuilder :=
  { b with settings := { b.settings with idleTimeout } }

def withConnectTimeout (b : ConfigBuilder) (connectTimeout : Nat) : ConfigBuilder :=
  { b with settings := { b.settings with connectTimeout } }

def withCustomTls (b : ConfigBuilder) : ConfigBuilder :=
  { b with settings := { b.settings with customTls := true } }

def withTrustAll (b : ConfigBuilder) (trustAll : Bool) : ConfigBuilder :=
  { b with settings := { b.settings with trustAll } }

/-- The finished settings; without a port of its own the security decides it. -/
def build (b : ConfigBuilder) : Config :=
  { b.settings with port := b.port.getD b.settings.security.defaultPort }

def describe (b : ConfigBuilder) : String :=
  Text.openRecord "ConfigBuilder" [
    ("host", Text.quote b.settings.host),
    ("security", b.settings.security.describe),
    ("username", Text.optional (b.settings.username.map Text.quote))]

end ConfigBuilder

end SmtpClient
