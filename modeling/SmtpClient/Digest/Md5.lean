/-
The MD5 digest (RFC 1321).
-/
import SmtpClient.Digest.Blocks

namespace SmtpClient.Digest.Md5

/-- The four words that a block updates. -/
structure State where
  a : UInt32 := 0x67452301
  b : UInt32 := 0xefcdab89
  c : UInt32 := 0x98badcfe
  d : UInt32 := 0x10325476

/-- The whole parts of 2^32 · |sin i| for i = 1 … 64. -/
def sines : List UInt32 :=
  [0xd76aa478, 0xe8c7b756, 0x242070db, 0xc1bdceee, 0xf57c0faf, 0x4787c62a, 0xa8304613, 0xfd469501,
    0x698098d8, 0x8b44f7af, 0xffff5bb1, 0x895cd7be, 0x6b901122, 0xfd987193, 0xa679438e, 0x49b40821,
    0xf61e2562, 0xc040b340, 0x265e5a51, 0xe9b6c7aa, 0xd62f105d, 0x02441453, 0xd8a1e681, 0xe7d3fbc8,
    0x21e1cde6, 0xc33707d6, 0xf4d50d87, 0x455a14ed, 0xa9e3e905, 0xfcefa3f8, 0x676f02d9, 0x8d2a4c8a,
    0xfffa3942, 0x8771f681, 0x6d9d6122, 0xfde5380c, 0xa4beea44, 0x4bdecfa9, 0xf6bb4b60, 0xbebfbc70,
    0x289b7ec6, 0xeaa127fa, 0xd4ef3085, 0x04881d05, 0xd9d4d039, 0xe6db99e5, 0x1fa27cf8, 0xc4ac5665,
    0xf4292244, 0x432aff97, 0xab9423a7, 0xfc93a039, 0x655b59c3, 0x8f0ccc92, 0xffeff47d, 0x85845dd1,
    0x6fa87e4f, 0xfe2ce6e0, 0xa3014314, 0x4e0811a1, 0xf7537e82, 0xbd3af235, 0x2ad7d2bb, 0xeb86d391]

/-- The rotations of the four rounds, each repeated four times. -/
def rotations : List UInt32 :=
  [[7, 12, 17, 22], [5, 9, 14, 20], [4, 11, 16, 23], [6, 10, 15, 21]].flatMap fun round =>
    round ++ round ++ round ++ round

/-- Step `i` of the 64: the round function, and the word it takes. -/
def mix (i : Nat) (s : State) : UInt32 × Nat :=
  if i < 16 then (s.b &&& s.c ||| ~~~s.b &&& s.d, i)
  else if i < 32 then (s.d &&& s.b ||| ~~~s.d &&& s.c, (5 * i + 1) % 16)
  else if i < 48 then (s.b ^^^ s.c ^^^ s.d, (3 * i + 5) % 16)
  else (s.c ^^^ (s.b ||| ~~~s.d), 7 * i % 16)

def step (block : Array UInt32) (s : State) (i : Nat) (sine rotation : UInt32) : State :=
  let (f, g) := mix i s
  let sum := s.a + f + sine + block.getD g 0
  { a := s.d, b := s.b + rotateLeft sum rotation, c := s.b, d := s.c }

/-- Takes one block into the state. -/
def compress (s : State) (block : Array UInt32) : State :=
  let plan := (List.range 64).zip (sines.zip rotations)
  let t := plan.foldl (fun t (i, sine, rotation) => step block t i sine rotation) s
  { a := s.a + t.a, b := s.b + t.b, c := s.c + t.c, d := s.d + t.d }

/-- The sixteen bytes of the digest. -/
def digest (message : List UInt8) : List UInt8 :=
  let (high, low) := lengthWords message.length
  let padded := message ++ padding message.length ++ lowFirst low ++ lowFirst high
  let s := (allBlocks (wordsLowFirst padded)).foldl compress {}
  lowFirst s.a ++ lowFirst s.b ++ lowFirst s.c ++ lowFirst s.d

end SmtpClient.Digest.Md5
