/-
Base64 with the standard alphabet and required padding. Reading is strict:
it accepts exactly what writing produces, so padding must be complete and
the bits that a short last group leaves over must be zero.
-/

namespace SmtpClient.Text.Base64

/-- Why a text is not base64; offsets count bytes. -/
inductive Fault where
  /-- A byte outside the alphabet, or a pad where none may stand. -/
  | symbol (byte : UInt8) (offset : Nat)
  /-- The last of `read` symbols is left over: alone it encodes no byte. -/
  | leftover (read : Nat)
  /-- The last symbol carries bits that belong to no byte. -/
  | lastSymbol (byte : UInt8) (offset : Nat)
  /-- The last group is not padded to four symbols. -/
  | padding
  deriving DecidableEq

def Fault.message : Fault → String
  | .symbol byte offset =>
    "Invalid symbol " ++ toString byte.toNat ++ ", offset " ++ toString offset ++ "."
  | .leftover read => "Invalid input length: " ++ toString read
  | .lastSymbol byte offset =>
    "Invalid last symbol " ++ toString byte.toNat ++ ", offset " ++ toString offset ++ "."
  | .padding => "Invalid padding"

/-- The symbol with value `n`, for `n < 64`. -/
def symbol (n : Nat) : Char :=
  if n < 26 then Char.ofNat (65 + n)
  else if n < 52 then Char.ofNat (97 + (n - 26))
  else if n < 62 then Char.ofNat (48 + (n - 52))
  else if n = 62 then '+'
  else '/'

/-- The value of a symbol. -/
def value? (b : UInt8) : Option Nat :=
  let n := b.toNat
  if 65 ≤ n && n ≤ 90 then some (n - 65)
  else if 97 ≤ n && n ≤ 122 then some (n - 97 + 26)
  else if 48 ≤ n && n ≤ 57 then some (n - 48 + 52)
  else if n = 43 then some 62
  else if n = 47 then some 63
  else none

/-- The byte of the pad `=`. -/
def pad : UInt8 := 61

/-- Three bytes make four symbols; a last group of one or two bytes is padded. -/
def symbols : List UInt8 → List Char
  | [] => []
  | [a] => [symbol (a.toNat / 4), symbol (a.toNat % 4 * 16), '=', '=']
  | [a, b] =>
    [symbol (a.toNat / 4), symbol (a.toNat % 4 * 16 + b.toNat / 16), symbol (b.toNat % 16 * 4), '=']
  | a :: b :: c :: rest =>
    symbol (a.toNat / 4) :: symbol (a.toNat % 4 * 16 + b.toNat / 16) ::
      symbol (b.toNat % 16 * 4 + c.toNat / 64) :: symbol (c.toNat % 64) :: symbols rest

/-- The base64 form of bytes. -/
def encode (bytes : List UInt8) : String :=
  String.ofList (symbols bytes)

/-- The values of symbols whose first one has offset `offset`. -/
def values (offset : Nat) : List UInt8 → Except Fault (List Nat)
  | [] => .ok []
  | b :: rest =>
    match value? b with
    | none => .error (.symbol b offset)
    | some v => (values (offset + 1) rest).map (v :: ·)

/-- The bytes of the last group, which alone may hold pads. -/
def decodeLast (offset : Nat) (group : List UInt8) : Except Fault (List UInt8) := do
  let body := group.takeWhile (· != pad)
  let pads := group.dropWhile (· != pad)
  let vs ← values offset body
  if pads ≠ [] ∧ (body.length < 2 ∨ pads.any (· != pad)) then
    throw (.symbol pad (offset + body.length))
  if group ≠ [] ∧ body.length < 2 then throw (.leftover (offset + body.length))
  if group.length % 4 ≠ 0 then throw .padding
  match vs with
  | [v, w] =>
    if w % 16 ≠ 0 then throw (.lastSymbol (body.getD 1 0) (offset + 1))
    return [UInt8.ofNat (v * 4 + w / 16)]
  | [v, w, x] =>
    if x % 4 ≠ 0 then throw (.lastSymbol (body.getD 2 0) (offset + 2))
    return [UInt8.ofNat (v * 4 + w / 16), UInt8.ofNat (w % 16 * 16 + x / 4)]
  | [v, w, x, y] =>
    return [UInt8.ofNat (v * 4 + w / 16), UInt8.ofNat (w % 16 * 16 + x / 4),
      UInt8.ofNat (x % 4 * 64 + y)]
  | _ => return []

/-- The bytes of the groups that begin at offset `offset`. -/
def decodeGroups (offset : Nat) : List UInt8 → Except Fault (List UInt8)
  | a :: b :: c :: d :: e :: rest => do
    let group ← decodeWhole [a, b, c, d]
    let others ← decodeGroups (offset + 4) (e :: rest)
    return group ++ others
  | group => decodeLast offset group
where
  /-- The bytes of a group that is not the last: four symbols, no pad. -/
  decodeWhole (group : List UInt8) : Except Fault (List UInt8) := do
    let _ ← values offset group
    decodeLast offset group

/-- The bytes that the UTF-8 form of a base64 text stands for. One byte too
many that is neither symbol nor pad, such as a line end, is named first. -/
def decode (text : List UInt8) : Except Fault (List UInt8) :=
  match text.getLast? with
  | some b =>
    if text.length % 4 = 1 ∧ b ≠ pad ∧ value? b = none then
      .error (.symbol b (text.length - 1))
    else decodeGroups 0 text
  | none => .ok []

end SmtpClient.Text.Base64
