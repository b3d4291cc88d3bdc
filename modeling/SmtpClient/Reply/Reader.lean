/-
Reading lines and replies from bytes that come one at a time. A reader is a
value: it takes a byte and either wants more or is done, so nothing here
depends on how the bytes were cut into chunks.
-/
import SmtpClient.Reply.Lines

namespace SmtpClient

/-- What a reader says to a byte. -/
inductive Fed (σ α : Type) where
  | more (reader : σ)
  | done (result : α)

/-- The byte that ends a line. -/
def lineFeed : UInt8 := 10

/-- The most bytes one line may take, its ending included. -/
def lineLimit : Nat := Reply.maxLineBytes + 2

/-- A text without the line feeds and carriage returns at its end. -/
def dropLineEnd (s : String) : String :=
  String.ofList (s.toList.reverse.dropWhile fun c => c == '\r' || c == '\n').reverse

/-- A line of which these bytes were read. -/
structure LineReader where
  taken : Array UInt8 := #[]

namespace LineReader

/-- The line made of all bytes read. Bytes that are no text are that fault,
whatever else is wrong with the line. -/
def finish (r : LineReader) : Except Error String :=
  match Text.Utf8.decode r.taken.toList with
  | .error fault => .error (.stream (.encoding fault))
  | .ok text =>
    if r.taken.back? = some lineFeed then .ok (dropLineEnd text)
    else if r.taken.size = lineLimit then .error (.protocol .lineTooLong)
    else .error .connectionClosed

/-- Takes a byte; a line feed ends the line, and so does the limit. -/
def feed (r : LineReader) (byte : UInt8) : Fed LineReader (Except Error String) :=
  let r := { taken := r.taken.push byte }
  if byte = lineFeed ∨ r.taken.size = lineLimit then .done r.finish else .more r

end LineReader

/-- A reply of which these lines, and the beginning of another, were read. -/
structure ReplyReader where
  lines : Array String := #[]
  line : LineReader := {}

namespace ReplyReader

/-- Takes a complete line. Empty lines are skipped and do not count. -/
def take (r : ReplyReader) (line : String) : Fed ReplyReader (Except Error Reply) :=
  if line = "" then .more { lines := r.lines }
  else
    let lines := r.lines.push line
    if Reply.isLastLine line then .done (Reply.ofLines lines.toList)
    else if Reply.maxLines ≤ lines.size then .done (.error (.protocol .tooManyLines))
    else .more { lines }

/-- Takes a byte. -/
def feed (r : ReplyReader) (byte : UInt8) : Fed ReplyReader (Except Error Reply) :=
  match r.line.feed byte with
  | .more line => .more { r with line }
  | .done (.error e) => .done (.error e)
  | .done (.ok line) => r.take line

/-- The result when the stream ends here. -/
def finish (r : ReplyReader) : Error :=
  match r.line.finish with
  | .error e => e
  | .ok _ => .connectionClosed

end ReplyReader

end SmtpClient
