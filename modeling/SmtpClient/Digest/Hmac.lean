/-
Keyed digests (RFC 2104) over the three hash functions that the challenge
mechanisms use.
-/
import SmtpClient.Digest.Md5
import SmtpClient.Digest.Sha1
import SmtpClient.Digest.Sha256

namespace SmtpClient.Digest

/-- A hash function with blocks of 64 bytes. -/
inductive Hash where
  | md5
  | sha1
  | sha256
  deriving DecidableEq

def Hash.digest : Hash → List UInt8 → List UInt8
  | .md5 => Md5.digest
  | .sha1 => Sha1.digest
  | .sha256 => Sha256.digest

/-- The key filled up with zeros to a block; a longer one is hashed first. -/
def blockKey (hash : Hash) (key : List UInt8) : List UInt8 :=
  let key := if key.length > 64 then hash.digest key else key
  key ++ List.replicate (64 - key.length) 0

/-- The keyed digest of a message. Keys of any length are accepted. -/
def hmac (hash : Hash) (key message : List UInt8) : List UInt8 :=
  let key := blockKey hash key
  hash.digest (key.map (· ^^^ 0x5c) ++ hash.digest (key.map (· ^^^ 0x36) ++ message))

end SmtpClient.Digest
