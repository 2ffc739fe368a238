import Jose.Cipher.Aes

/-! Cipher block chaining over AES, with padding that says its own length: between one and
sixteen bytes, each of which is their number. -/
namespace Jose.Cipher.Cbc

def blockBytes : Nat := 16

def pad (bs : Bytes) : Bytes :=
  let n := blockBytes - bs.length % blockBytes
  bs ++ List.replicate n (UInt8.ofNat n)

/-- Takes the padding off, if it is whole and uniform. -/
def unpad (bs : Bytes) : Option Bytes :=
  match bs.getLast? with
  | none => none
  | some b =>
    let n := b.toNat
    let kept := bs.take (bs.length - n)
    if 0 < n && n ≤ blockBytes && n ≤ bs.length && bs.drop (bs.length - n) =
      List.replicate n b then
      some kept
    else none

def chain (cipher : Block → Block) : (previous : Block) → List Block → List Block
  | _, [] => []
  | previous, b :: bs =>
    let c := cipher (b.xor previous)
    c :: chain cipher c bs

def unchain (decipher : Block → Block) : (previous : Block) → List Block → List Block
  | _, [] => []
  | previous, c :: cs => (decipher c).xor previous :: unchain decipher c cs

/-- `none` unless the vector is one block. -/
def encrypt (key iv plaintext : Bytes) : Option Bytes :=
  match Block.split iv, Block.split (pad plaintext) with
  | some [v], some bs => some (Block.join (chain (Aes.encrypt (Aes.schedule key)) v bs))
  | _, _ => none

/-- `none` unless the vector is one block and the ciphertext whole blocks with proper
padding. -/
def decrypt (key iv ciphertext : Bytes) : Option Bytes :=
  match Block.split iv, Block.split ciphertext with
  | some [v], some cs => unpad (Block.join (unchain (Aes.decrypt (Aes.schedule key)) v cs))
  | _, _ => none

end Jose.Cipher.Cbc
