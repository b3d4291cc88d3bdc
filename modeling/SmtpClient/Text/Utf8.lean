/-
Reading UTF-8. A byte sequence is accepted exactly when it is the UTF-8 form
of some characters; otherwise the fault says where the first bad sequence
begins and how many of its bytes were still possible.
-/

namespace SmtpClient.Text.Utf8

/-- Why bytes are not UTF-8; offsets count bytes from the start. -/
inductive Fault where
  /-- The bytes at `offset` begin no character; `length` of them belong to
  the broken sequence. -/
  | invalid (offset length : Nat)
  /-- The bytes end inside the character that begins at `offset`. -/
  | incomplete (offset : Nat)
  deriving DecidableEq

def Fault.message : Fault → String
  | .invalid offset length =>
    "invalid utf-8 sequence of " ++ toString length ++ " bytes from index " ++ toString offset
  | .incomplete offset => "incomplete utf-8 byte sequence from index " ++ toString offset

/-- A byte that continues a character. -/
def continues (b : UInt8) : Bool :=
  0x80 ≤ b && b ≤ 0xbf

/-- The second bytes that `lead` admits: no overlong form, no surrogate and
nothing above U+10FFFF. -/
def admits (lead second : UInt8) : Bool :=
  if lead == 0xe0 then 0xa0 ≤ second && second ≤ 0xbf
  else if lead == 0xed then 0x80 ≤ second && second ≤ 0x9f
  else if lead == 0xf0 then 0x90 ≤ second && second ≤ 0xbf
  else if lead == 0xf4 then 0x80 ≤ second && second ≤ 0x8f
  else continues second

/-- How many bytes the character has that `lead` begins; 0 if it begins none. -/
def width (lead : UInt8) : Nat :=
  if lead ≤ 0x7f then 1
  else if 0xc2 ≤ lead && lead ≤ 0xdf then 2
  else if 0xe0 ≤ lead && lead ≤ 0xef then 3
  else if 0xf0 ≤ lead && lead ≤ 0xf4 then 4
  else 0

/-- The low six bits of a continuing byte. -/
def bits (b : UInt8) : Nat :=
  b.toNat % 64

/-- Reads bytes whose first one has offset `offset`. -/
def decodeFrom (offset : Nat) : List UInt8 → Except Fault (List Char)
  | [] => .ok []
  | a :: rest =>
    match width a with
    | 1 => (decodeFrom (offset + 1) rest).map (Char.ofNat a.toNat :: ·)
    | 2 =>
      match rest with
      | [] => .error (.incomplete offset)
      | b :: rest =>
        if continues b then
          (decodeFrom (offset + 2) rest).map (Char.ofNat (a.toNat % 32 * 64 + bits b) :: ·)
        else .error (.invalid offset 1)
    | 3 =>
      match rest with
      | [] => .error (.incomplete offset)
      | b :: rest =>
        if admits a b then
          match rest with
          | [] => .error (.incomplete offset)
          | c :: rest =>
            if continues c then
              (decodeFrom (offset + 3) rest).map
                (Char.ofNat ((a.toNat % 16 * 64 + bits b) * 64 + bits c) :: ·)
            else .error (.invalid offset 2)
        else .error (.invalid offset 1)
    | 4 =>
      match rest with
      | [] => .error (.incomplete offset)
      | b :: rest =>
        if admits a b then
          match rest with
          | [] => .error (.incomplete offset)
          | c :: rest =>
            if continues c then
              match rest with
              | [] => .error (.incomplete offset)
              | d :: rest =>
                if continues d then
                  (decodeFrom (offset + 4) rest).map
                    (Char.ofNat (((a.toNat % 8 * 64 + bits b) * 64 + bits c) * 64 + bits d) :: ·)
                else .error (.invalid offset 3)
            else .error (.invalid offset 2)
        else .error (.invalid offset 1)
    | _ => .error (.invalid offset 1)

/-- The text that bytes spell. -/
def decode (bytes : List UInt8) : Except Fault String :=
  (decodeFrom 0 bytes).map String.ofList

/-- The UTF-8 form of a text. -/
def encode (s : String) : List UInt8 :=
  s.toList.flatMap String.utf8EncodeChar

end SmtpClient.Text.Utf8
