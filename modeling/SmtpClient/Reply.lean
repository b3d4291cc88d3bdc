/-
Server replies: a three-digit code and one text per line. The first digit of
the code decides what the reply means for the exchange.
-/

namespace SmtpClient

/-- The code of a reply. -/
structure ReplyCode where
  value : Nat
  deriving DecidableEq

/-- What a reply means for the exchange it answers. -/
inductive ReplyClass where
  | success
  /-- The server waits for another line. -/
  | proceed
  | failure
  deriving DecidableEq

namespace ReplyCode

/-- The service is ready: greeting and permission for TLS. -/
def serviceReady : ReplyCode := ⟨220⟩

/-- The service is going away. -/
def serviceUnavailable : ReplyCode := ⟨421⟩

def isSuccess (c : ReplyCode) : Bool :=
  200 ≤ c.value && c.value < 300

def isIntermediate (c : ReplyCode) : Bool :=
  300 ≤ c.value && c.value < 400

def isTransient (c : ReplyCode) : Bool :=
  400 ≤ c.value && c.value < 500

def isPermanent (c : ReplyCode) : Bool :=
  500 ≤ c.value && c.value < 600

/-- Codes outside 200 … 399 are failures, also those that no standard defines. -/
def kind (c : ReplyCode) : ReplyClass :=
  if c.isSuccess then .success else if c.isIntermediate then .proceed else .failure

def text (c : ReplyCode) : String :=
  toString c.value

end ReplyCode

/-- A complete reply; `message` holds the text of each line. -/
structure Reply where
  code : ReplyCode
  message : List String
  deriving DecidableEq

namespace Reply

/-- The longest line accepted, in bytes without its ending. -/
def maxLineBytes : Nat := 4096

/-- The most lines accepted in one reply. -/
def maxLines : Nat := 512

def isSuccess (r : Reply) : Bool :=
  r.code.isSuccess

def kind (r : Reply) : ReplyClass :=
  r.code.kind

/-- The text of all lines. -/
def text (r : Reply) : String :=
  "\n".intercalate r.message

/-- The text of the last line; empty if there is none. -/
def lastLine (r : Reply) : String :=
  r.message.getLast?.getD ""

/-- The code, and the last line where it says something. -/
def summary (r : Reply) : String :=
  if r.lastLine = "" then r.code.text else r.code.text ++ " " ++ r.lastLine

end Reply

end SmtpClient
