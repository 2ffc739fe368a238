import Jose.Hash.Hmac
import Jose.PublicKey.Curve

/-! Signatures on the curves, as the numbers `r` and `s` side by side. The number that
must never be used twice is drawn from the key and the message, so signing gives the same
signature every time. -/
namespace Jose.PublicKey.Ecdsa
open Jose.Hash

/-- The private number of a key pair; in range, so that every public point exists. -/
structure SigningKey where
  curve : Curve
  scalar : Nat
  deriving DecidableEq, Repr

structure VerifyingKey where
  curve : Curve
  point : Point
  deriving DecidableEq, Repr

def SigningKey.verifyingKey (key : SigningKey) : VerifyingKey :=
  ⟨key.curve, (key.curve.multiple? key.scalar).getD key.curve.base⟩

/-- The state of the generator: a key and a block. -/
structure Generator where
  key : Bytes
  block : Bytes

namespace Generator

def reseed (hash : Sha2) (g : Generator) (data : Bytes) : Generator :=
  let key := hmac hash g.key (g.block ++ data)
  ⟨key, hmac hash key g.block⟩

/-- A hash is as wide as a scalar of its curve, so each block is one candidate. -/
def draw (c : Curve) : (fuel : Nat) → Generator → Option Nat
  | 0, _ => none
  | fuel + 1, g =>
    let g : Generator := ⟨g.key, hmac c.hash g.key g.block⟩
    let k := Bytes.toNat g.block
    if 0 < k && k < c.order then some k else draw c fuel (g.reseed c.hash [0])

def start (c : Curve) (seed : Bytes) : Generator :=
  let g : Generator := ⟨List.replicate c.fieldBytes 0, List.replicate c.fieldBytes 1⟩
  (g.reseed c.hash (0 :: seed)).reseed c.hash (1 :: seed)

end Generator

/-- How many candidates are drawn at most; each one fails with a chance below `2 ^
(-32)`. -/
def maxDraws : Nat := 100

def nonce? (key : SigningKey) (digest : Bytes) : Option Nat :=
  let c := key.curve
  let seed := Bytes.ofNat c.fieldBytes key.scalar ++ digest
  (Generator.start c seed).draw c maxDraws

def sign? (key : SigningKey) (message : Bytes) : Option Bytes := do
  let c := key.curve
  let digest := c.hash.digest message
  let k ← nonce? key digest
  let p ← c.multiple? k
  let r := p.x % c.order
  let s := inverseMod c.order k * (Bytes.toNat digest + r * key.scalar) % c.order
  guard (r ≠ 0 ∧ s ≠ 0)
  return Bytes.ofNat c.fieldBytes r ++ Bytes.ofNat c.fieldBytes s

/-- Both numbers must be in range, and the lengths exact. -/
def verify (key : VerifyingKey) (signature message : Bytes) : Bool :=
  let c := key.curve
  let r := Bytes.toNat (signature.take c.fieldBytes)
  let s := Bytes.toNat (signature.drop c.fieldBytes)
  if signature.length = 2 * c.fieldBytes && 0 < r && r < c.order && 0 < s && s < c.order then
    let z := Bytes.toNat (c.hash.digest message)
    let w := inverseMod c.order s
    match c.combination? (z * w % c.order) (r * w % c.order) key.point with
    | some p => p.x % c.order = r
    | none => false
  else false

end Jose.PublicKey.Ecdsa
