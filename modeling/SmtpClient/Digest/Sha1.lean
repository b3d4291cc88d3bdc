/-
The SHA-1 digest (FIPS 180).
-/
import SmtpClient.Digest.Blocks

namespace SmtpClient.Digest.Sha1

/-- The five words that a block updates. -/
structure State where
  a : UInt32 := 0x67452301
  b : UInt32 := 0xefcdab89
  c : UInt32 := 0x98badcfe
  d : UInt32 := 0x10325476
  e : UInt32 := 0xc3d2e1f0

/-- The sixteen words of a block, extended to eighty. -/
def schedule (block : Array UInt32) : Array UInt32 :=
  (List.range 64).foldl (fun w i =>
    w.push (rotateLeft
      (w.getD (i + 13) 0 ^^^ w.getD (i + 8) 0 ^^^ w.getD (i + 2) 0 ^^^ w.getD i 0) 1)) block

/-- The round function and the constant of step `i`. -/
def mix (i : Nat) (s : State) : UInt32 × UInt32 :=
  if i < 20 then (s.b &&& s.c ||| ~~~s.b &&& s.d, 0x5a827999)
  else if i < 40 then (s.b ^^^ s.c ^^^ s.d, 0x6ed9eba1)
  else if i < 60 then (s.b &&& s.c ||| s.b &&& s.d ||| s.c &&& s.d, 0x8f1bbcdc)
  else (s.b ^^^ s.c ^^^ s.d, 0xca62c1d6)

def step (s : State) (i : Nat) (w : UInt32) : State :=
  let (f, k) := mix i s
  { a := rotateLeft s.a 5 + f + s.e + k + w
    b := s.a
    c := rotateLeft s.b 30
    d := s.c
    e := s.d }

/-- Takes one block into the state. -/
def compress (s : State) (block : Array UInt32) : State :=
  let plan := (List.range 80).zip (schedule block).toList
  let t := plan.foldl (fun t (i, w) => step t i w) s
  { a := s.a + t.a, b := s.b + t.b, c := s.c + t.c, d := s.d + t.d, e := s.e + t.e }

/-- The twenty bytes of the digest. -/
def digest (message : List UInt8) : List UInt8 :=
  let (high, low) := lengthWords message.length
  let padded := message ++ padding message.length ++ highFirst high ++ highFirst low
  let s := (allBlocks (wordsHighFirst padded)).foldl compress {}
  highFirst s.a ++ highFirst s.b ++ highFirst s.c ++ highFirst s.d ++ highFirst s.e

end SmtpClient.Digest.Sha1
