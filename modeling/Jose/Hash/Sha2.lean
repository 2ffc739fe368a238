import Jose.Bytes

/-! The SHA-2 hash functions. SHA-384 and SHA-512 work on words of 64 bits and SHA-256 on
words of 32; apart from the rotations they are one construction, so it is written once for
any word size. -/
namespace Jose.Hash

/-- Three rotation counts; in the message schedule the third one is a plain shift. -/
structure Mixer where
  first : Nat
  second : Nat
  third : Nat

namespace Mixer

def rotating {w : Nat} (m : Mixer) (x : BitVec w) : BitVec w :=
  x.rotateRight m.first ^^^ x.rotateRight m.second ^^^ x.rotateRight m.third

def shifting {w : Nat} (m : Mixer) (x : BitVec w) : BitVec w :=
  x.rotateRight m.first ^^^ x.rotateRight m.second ^^^ x >>> m.third

end Mixer

structure Rounds (w : Nat) where
  high : Mixer
  low : Mixer
  scheduleHigh : Mixer
  scheduleLow : Mixer
  constants : List (BitVec w)

structure Digest (w : Nat) where
  (a b c d e f g h : BitVec w)

namespace Digest
variable {w : Nat}

def words (s : Digest w) : List (BitVec w) := [s.a, s.b, s.c, s.d, s.e, s.f, s.g, s.h]

def add (s t : Digest w) : Digest w :=
  ⟨s.a + t.a, s.b + t.b, s.c + t.c, s.d + t.d, s.e + t.e, s.f + t.f, s.g + t.g, s.h + t.h⟩

end Digest

namespace Rounds
variable {w : Nat}

/-- One round with the word `x`, to which the round constant is already added. -/
def step (r : Rounds w) (s : Digest w) (x : BitVec w) : Digest w :=
  let choice := (s.e &&& s.f) ^^^ (~~~s.e &&& s.g)
  let majority := (s.a &&& s.b) ^^^ (s.a &&& s.c) ^^^ (s.b &&& s.c)
  let t := s.h + r.high.rotating s.e + choice + x
  ⟨t + r.low.rotating s.a + majority, s.a, s.b, s.c, s.d + t, s.e, s.f, s.g⟩

/-- The word that follows sixteen others in the message schedule. -/
def nextWord (r : Rounds w) (window : List (BitVec w)) : BitVec w :=
  r.scheduleHigh.shifting (window.getD 14 0) + window.getD 9 0 +
    r.scheduleLow.shifting (window.getD 1 0) + window.getD 0 0

/-- One round for each constant; the window holds the next sixteen words of the
schedule. -/
def run (r : Rounds w) : List (BitVec w) → List (BitVec w) → Digest w → Digest w
  | [], _, s => s
  | k :: ks, window, s =>
    r.run ks (window.drop 1 ++ [r.nextWord window]) (r.step s (window.getD 0 0 + k))

def wordBytes (_ : Rounds w) : Nat := w / 8

def blockBytes (r : Rounds w) : Nat := 16 * r.wordBytes

def wordsOf (r : Rounds w) (block : Bytes) : List (BitVec w) :=
  (Bytes.chunks (r.wordBytes - 1) block).map fun bs => .ofNat w (Bytes.toNat bs)

def compress (r : Rounds w) (s : Digest w) (block : Bytes) : Digest w :=
  s.add (r.run r.constants (r.wordsOf block) s)

/-- A one bit, zeros, and the length in bits on two words, up to a whole block. -/
def padding (r : Rounds w) (length : Nat) : Bytes :=
  let used := length + 1 + 2 * r.wordBytes
  let zeros := (r.blockBytes - used % r.blockBytes) % r.blockBytes
  0x80 :: List.replicate zeros 0 ++ Bytes.ofNat (2 * r.wordBytes) (8 * length)

def digest (r : Rounds w) (start : Digest w) (message : Bytes) : Bytes :=
  let blocks := Bytes.chunks (r.blockBytes - 1) (message ++ r.padding message.length)
  (blocks.foldl r.compress start).words.flatMap fun x => Bytes.ofNat r.wordBytes x.toNat

end Rounds

/-- The fractions of the cube roots of the first eighty primes. -/
def cubeRoots : List (BitVec 64) :=
  [0x428a2f98d728ae22, 0x7137449123ef65cd, 0xb5c0fbcfec4d3b2f, 0xe9b5dba58189dbbc,
   0x3956c25bf348b538, 0x59f111f1b605d019, 0x923f82a4af194f9b, 0xab1c5ed5da6d8118,
   0xd807aa98a3030242, 0x12835b0145706fbe, 0x243185be4ee4b28c, 0x550c7dc3d5ffb4e2,
   0x72be5d74f27b896f, 0x80deb1fe3b1696b1, 0x9bdc06a725c71235, 0xc19bf174cf692694,
   0xe49b69c19ef14ad2, 0xefbe4786384f25e3, 0x0fc19dc68b8cd5b5, 0x240ca1cc77ac9c65,
   0x2de92c6f592b0275, 0x4a7484aa6ea6e483, 0x5cb0a9dcbd41fbd4, 0x76f988da831153b5,
   0x983e5152ee66dfab, 0xa831c66d2db43210, 0xb00327c898fb213f, 0xbf597fc7beef0ee4,
   0xc6e00bf33da88fc2, 0xd5a79147930aa725, 0x06ca6351e003826f, 0x142929670a0e6e70,
   0x27b70a8546d22ffc, 0x2e1b21385c26c926, 0x4d2c6dfc5ac42aed, 0x53380d139d95b3df,
   0x650a73548baf63de, 0x766a0abb3c77b2a8, 0x81c2c92e47edaee6, 0x92722c851482353b,
   0xa2bfe8a14cf10364, 0xa81a664bbc423001, 0xc24b8b70d0f89791, 0xc76c51a30654be30,
   0xd192e819d6ef5218, 0xd69906245565a910, 0xf40e35855771202a, 0x106aa07032bbd1b8,
   0x19a4c116b8d2d0c8, 0x1e376c085141ab53, 0x2748774cdf8eeb99, 0x34b0bcb5e19b48a8,
   0x391c0cb3c5c95a63, 0x4ed8aa4ae3418acb, 0x5b9cca4f7763e373, 0x682e6ff3d6b2b8a3,
   0x748f82ee5defb2fc, 0x78a5636f43172f60, 0x84c87814a1f0ab72, 0x8cc702081a6439ec,
   0x90befffa23631e28, 0xa4506cebde82bde9, 0xbef9a3f7b2c67915, 0xc67178f2e372532b,
   0xca273eceea26619c, 0xd186b8c721c0c207, 0xeada7dd6cde0eb1e, 0xf57d4f7fee6ed178,
   0x06f067aa72176fba, 0x0a637dc5a2c898a6, 0x113f9804bef90dae, 0x1b710b35131c471b,
   0x28db77f523047d84, 0x32caab7b40c72493, 0x3c9ebe0a15c9bebc, 0x431d67c49c100d4c,
   0x4cc5d4becb3e42b6, 0x597f299cfc657e2a, 0x5fcb6fab3ad6faec, 0x6c44198c4a475817]

/-- The fractions of the square roots of the first eight primes. -/
def squareRoots : Digest 64 :=
  ⟨0x6a09e667f3bcc908, 0xbb67ae8584caa73b, 0x3c6ef372fe94f82b, 0xa54ff53a5f1d36f1,
   0x510e527fade682d1, 0x9b05688c2b3e6c1f, 0x1f83d9abfb41bd6b, 0x5be0cd19137e2179⟩

/-- The fractions of the square roots of the next eight primes. -/
def furtherSquareRoots : Digest 64 :=
  ⟨0xcbbb9d5dc1059ed8, 0x629a292a367cd507, 0x9159015a3070dd17, 0x152fecd8f70e5939,
   0x67332667ffc00b31, 0x8eb44a8768581511, 0xdb0c2e0d64f98fa7, 0x47b5481dbefa4fa4⟩

def leading32 (x : BitVec 64) : BitVec 32 := .ofNat 32 (x.toNat >>> 32)

def rounds32 : Rounds 32 where
  high := ⟨6, 11, 25⟩
  low := ⟨2, 13, 22⟩
  scheduleHigh := ⟨17, 19, 10⟩
  scheduleLow := ⟨7, 18, 3⟩
  constants := (cubeRoots.take 64).map leading32

def rounds64 : Rounds 64 where
  high := ⟨14, 18, 41⟩
  low := ⟨28, 34, 39⟩
  scheduleHigh := ⟨19, 61, 6⟩
  scheduleLow := ⟨1, 8, 7⟩
  constants := cubeRoots

def start32 : Digest 32 :=
  let s := squareRoots
  ⟨leading32 s.a, leading32 s.b, leading32 s.c, leading32 s.d, leading32 s.e, leading32 s.f,
    leading32 s.g, leading32 s.h⟩

inductive Sha2 where
  | sha256
  | sha384
  | sha512
  deriving DecidableEq, Repr

namespace Sha2

def digest : Sha2 → Bytes → Bytes
  | sha256, message => rounds32.digest start32 message
  | sha384, message => (rounds64.digest furtherSquareRoots message).take 48
  | sha512, message => rounds64.digest squareRoots message

def digestBytes : Sha2 → Nat
  | sha256 => 32
  | sha384 => 48
  | sha512 => 64

def blockBytes : Sha2 → Nat
  | sha256 => 64
  | sha384 | sha512 => 128

end Sha2
end Jose.Hash
