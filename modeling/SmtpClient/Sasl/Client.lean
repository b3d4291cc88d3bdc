/-
The client's side of each login mechanism. A client answers the challenges
of one exchange; an empty first answer means that it waits for a challenge.

PLAIN and the token mechanisms separate their fields by one character, and
refuse credentials that contain it.
-/
import SmtpClient.Digest.Hmac
import SmtpClient.Error

namespace SmtpClient.Sasl

/-- One side of an exchange, with its credentials. -/
inductive Client where
  | plain (username password : String)
  /-- Has answered this many challenges. -/
  | login (username password : String) (answered : Nat)
  /-- A keyed digest of the challenge; `kind` chooses the hash function. -/
  | cram (kind : Mechanism) (username password : String)
  /-- Credentials with an access token; `kind` chooses the format. -/
  | bearer (kind : Mechanism) (username token : String)
  deriving DecidableEq

/-- The separator of PLAIN. -/
def nul : Char := '\x00'

/-- The separator of the token mechanisms. -/
def controlA : Char := '\x01'

namespace Client

def kind : Client → Mechanism
  | plain .. => .plain
  | login .. => .login
  | cram kind .. => kind
  | bearer kind .. => kind

def ofPlain (username password : String) : Except Error Client :=
  if nul ∈ username.toList ∨ nul ∈ password.toList then .error (.invalidCredentials .nul)
  else .ok (plain username password)

def ofBearer (kind : Mechanism) (username token : String) : Except Error Client :=
  if controlA ∈ username.toList ∨ controlA ∈ token.toList then
    .error (.invalidCredentials (.separator kind))
  else .ok (bearer kind username token)

/-- The client of a mechanism, if the mechanism can carry the credentials. -/
def new (kind : Mechanism) (username password : String) : Except Error Client :=
  match kind with
  | .plain => ofPlain username password
  | .login => .ok (login username password 0)
  | .cramMd5 | .cramSha1 | .cramSha256 => .ok (cram kind username password)
  | .xoauth2 | .oauthBearer => ofBearer kind username password

/-- The hash function of a challenge mechanism. -/
def hashOf : Mechanism → Digest.Hash
  | .cramSha1 => .sha1
  | .cramSha256 => .sha256
  | _ => .md5

/-- Bytes as pairs of digits in base 16. -/
def hexPairs (bytes : List UInt8) : List Char :=
  bytes.flatMap fun b => [Nat.digitChar (b.toNat / 16), Nat.digitChar (b.toNat % 16)]

/-- A name as OAUTHBEARER writes it (RFC 5801): `=` and `,` are escaped. -/
def saslName (s : String) : String :=
  String.ofList (s.toList.flatMap fun c =>
    if c = '=' then ['=', '3', 'D'] else if c = ',' then ['=', '2', 'C'] else [c])

/-- The separator, as a text. -/
def fieldEnd : String := String.ofList [controlA]

/-- The first message of PLAIN. -/
def plainMessage (username password : String) : String :=
  String.ofList (nul :: username.toList ++ nul :: password.toList)

/-- The first message of a token mechanism. -/
def bearerMessage (kind : Mechanism) (username token : String) : String :=
  (if kind = .oauthBearer then "n,a=" ++ saslName username ++ "," else "user=" ++ username) ++
    fieldEnd ++ "auth=Bearer " ++ token ++ fieldEnd ++ fieldEnd

/-- The answer of a challenge mechanism. -/
def cramAnswer (kind : Mechanism) (username password : String) (challenge : List UInt8) :
    List UInt8 :=
  let mac := Digest.hmac (hashOf kind) (Text.Utf8.encode password) challenge
  Text.Utf8.encode (username ++ String.ofList (' ' :: hexPairs mac))

/-- The message that opens the exchange. -/
def opening : Client → List UInt8
  | plain username password => Text.Utf8.encode (plainMessage username password)
  | bearer kind username token => Text.Utf8.encode (bearerMessage kind username token)
  | login .. | cram .. => []

/-- The answer to a challenge. PLAIN and the token mechanisms have said all:
a challenge there carries an error, and the empty answer ends the exchange. -/
def answer (c : Client) (challenge : List UInt8) : List UInt8 × Client :=
  match c with
  | login username password answered =>
    let text := if answered = 0 then username else if answered = 1 then password else ""
    (Text.Utf8.encode text, login username password (answered + 1))
  | cram kind username password => (cramAnswer kind username password challenge, c)
  | plain .. | bearer .. => ([], c)

/-- The next message: the opening without a challenge, else the answer to it. -/
def next (c : Client) : Option (List UInt8) → List UInt8 × Client
  | none => (c.opening, c)
  | some challenge => c.answer challenge

end Client

end SmtpClient.Sasl
