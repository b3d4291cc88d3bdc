/-
What the three digests share: the message is padded to whole blocks of 64
bytes that end in its length, and each block is read as sixteen words.
-/

namespace SmtpClient.Digest

/-- The bytes of a word, highest first. -/
def highFirst (w : UInt32) : List UInt8 :=
  [(w >>> 24).toUInt8, (w >>> 16).toUInt8, (w >>> 8).toUInt8, w.toUInt8]

/-- The bytes of a word, lowest first. -/
def lowFirst (w : UInt32) : List UInt8 :=
  (highFirst w).reverse

/-- The word with these bytes, highest first. -/
def word (a b c d : UInt8) : UInt32 :=
  a.toUInt32 <<< 24 ||| b.toUInt32 <<< 16 ||| c.toUInt32 <<< 8 ||| d.toUInt32

/-- Bytes four at a time, highest first. -/
def wordsHighFirst : List UInt8 → List UInt32
  | a :: b :: c :: d :: rest => word a b c d :: wordsHighFirst rest
  | _ => []

/-- Bytes four at a time, lowest first. -/
def wordsLowFirst : List UInt8 → List UInt32
  | a :: b :: c :: d :: rest => word d c b a :: wordsLowFirst rest
  | _ => []

def rotateLeft (w : UInt32) (n : UInt32) : UInt32 :=
  w <<< n ||| w >>> (32 - n)

def rotateRight (w : UInt32) (n : UInt32) : UInt32 :=
  rotateLeft w (32 - n)

/-- A one bit, then zeros up to eight bytes before the end of a block. -/
def padding (length : Nat) : List UInt8 :=
  0x80 :: List.replicate ((119 - length % 64) % 64) 0

/-- The message length in bits, as two words, the higher one first. -/
def lengthWords (length : Nat) : UInt32 × UInt32 :=
  (UInt32.ofNat (length * 8 / 4294967296), UInt32.ofNat (length * 8))

/-- The first `n` blocks of sixteen words. -/
def blocks : Nat → List UInt32 → List (Array UInt32)
  | 0, _ => []
  | n + 1, ws => (ws.take 16).toArray :: blocks n (ws.drop 16)

/-- All blocks of a padded message, already read as words. -/
def allBlocks (ws : List UInt32) : List (Array UInt32) :=
  blocks (ws.length / 16) ws

end SmtpClient.Digest
