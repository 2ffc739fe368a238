import Jose.Hash.Sha2

/-! Message authentication with a hash function. A key longer than a block is hashed
first, so any key will do. -/
namespace Jose.Hash

def hmacBlockKey (hash : Sha2) (key : Bytes) : Bytes :=
  let short := if key.length ≤ hash.blockBytes then key else hash.digest key
  short ++ List.replicate (hash.blockBytes - short.length) 0

def hmac (hash : Sha2) (key message : Bytes) : Bytes :=
  let k := hmacBlockKey hash key
  hash.digest (k.map (· ^^^ 0x5c) ++ hash.digest (k.map (· ^^^ 0x36) ++ message))

end Jose.Hash
