import SenderRatchet.Crypto.Sha2

/-!
# HMAC

The keyed hash over any hash with 32-byte output and a given block width. A key longer than a
block is hashed first; every key is then filled up to a block with zeros, so a short key and the
same key with zeros behind it are one key.
-/

namespace SenderRatchet.Hmac

def blockKey (hash : Bytes → Digest) (width : Nat) (key : Bytes) : Bytes :=
  let short := if width < key.length then (hash key).toList else key
  short ++ Bytes.zeros (width - short.length)

def mac (hash : Bytes → Digest) (width : Nat) (key message : Bytes) : Digest :=
  let full := blockKey hash width key
  let inner := hash (full.map (· ^^^ 0x36) ++ message)
  hash (full.map (· ^^^ 0x5c) ++ inner.toList)

end SenderRatchet.Hmac

namespace SenderRatchet

def hmacSha256 (key message : Bytes) : Digest := Hmac.mac sha256 64 key message

end SenderRatchet
