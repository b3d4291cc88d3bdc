/-
The names of the login mechanisms this client can run, and lists of such
names as servers and configurations write them. Lists keep names that this
client cannot run.
-/
import SmtpClient.Text.Blank
import SmtpClient.Text.Case

namespace SmtpClient

/-- The login mechanisms this client can run. -/
inductive Mechanism where
  | plain
  | login
  | cramMd5
  | cramSha1
  | cramSha256
  | xoauth2
  | oauthBearer
  deriving DecidableEq

namespace Mechanism

/-- The name on the wire. -/
def name : Mechanism → String
  | plain => "PLAIN"
  | login => "LOGIN"
  | cramMd5 => "CRAM-MD5"
  | cramSha1 => "CRAM-SHA1"
  | cramSha256 => "CRAM-SHA256"
  | xoauth2 => "XOAUTH2"
  | oauthBearer => "OAUTHBEARER"

/-- The name in descriptions. -/
def label : Mechanism → String
  | plain => "Plain"
  | login => "Login"
  | cramMd5 => "CramMd5"
  | cramSha1 => "CramSha1"
  | cramSha256 => "CramSha256"
  | xoauth2 => "XOAuth2"
  | oauthBearer => "OAuthBearer"

def all : List Mechanism :=
  [plain, login, cramMd5, cramSha1, cramSha256, xoauth2, oauthBearer]

/-- The mechanism whose name `s` is, in any letter case. -/
def ofName? (s : String) : Option Mechanism :=
  all.find? fun m => m.name == Text.upper s

/-- The members of a list without the ones that stand further ahead in it. -/
def distinct : List String → List String → List String
  | _, [] => []
  | seen, name :: names =>
    if name ∈ seen then distinct seen names else name :: distinct (name :: seen) names

/-- The names in a blank-separated list: raised, each once, in order. -/
def names (list : String) : List String :=
  distinct [] ((Text.words list).map Text.raiseAscii)

theorem mem_all (m : Mechanism) : m ∈ all := by
  cases m <;> decide

theorem name_injective {m n : Mechanism} (h : m.name = n.name) : m = n := by
  cases m <;> cases n <;> first | rfl | exact absurd h (by decide)

end Mechanism

end SmtpClient
