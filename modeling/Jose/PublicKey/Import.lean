import Jose.PublicKey.Der
import Jose.PublicKey.Ecdsa
import Jose.PublicKey.Rsa

/-! Keys from their encodings: PKCS #8 for private keys and SubjectPublicKeyInfo for
public ones. A key is taken only if its numbers fit together. -/
namespace Jose.PublicKey.Import
open Der

def rsaId : Bytes := [0x2a, 0x86, 0x48, 0x86, 0xf7, 0x0d, 0x01, 0x01, 0x01]

def ecId : Bytes := [0x2a, 0x86, 0x48, 0xce, 0x3d, 0x02, 0x01]

def curveId : Curve → Bytes
  | .p256 => [0x2a, 0x86, 0x48, 0xce, 0x3d, 0x03, 0x01, 0x07]
  | .p384 => [0x2b, 0x81, 0x04, 0x00, 0x22]

/-- The kind of a key: an identifier, and what it is qualified by. -/
structure Kind where
  id : Bytes
  parameters : Option Element
  deriving DecidableEq, Repr

def rsaKind : Kind := ⟨rsaId, some ⟨nullTag, []⟩⟩

def ecKind (c : Curve) : Kind := ⟨ecId, some ⟨objectIdTag, curveId c⟩⟩

def kindOf (content : Bytes) : Option Kind := do
  let (id, rest) ← readTagged objectIdTag content
  match rest with
  | [] => return ⟨id, none⟩
  | _ =>
    let (e, rest) ← read rest
    guard (rest = [])
    return ⟨id, some e⟩

/-- The inner encoding of a private key of the kind. A public key beside it goes with
version one. -/
def privateKey? (kind : Kind) (der : Bytes) : Option Bytes := do
  let content ← only sequenceTag der
  let (version, rest) ← readNatural content
  let (algorithm, rest) ← readTagged sequenceTag rest
  let (key, rest) ← readTagged octetStringTag rest
  let (publicKey, rest) ← readField 1 rest.length rest
  guard (version ≤ 1 ∧ (← kindOf algorithm) = kind)
  guard ((version = 1) = (publicKey.isSome = true) ∧ onlyFields rest.length rest)
  match publicKey with
  | none => return key
  | some e =>
    guard (!isConstructed e.tag ∧ (wholeBits e.content).isSome)
    return key

/-- The bits of a public key of the kind. -/
def publicKey? (kind : Kind) (der : Bytes) : Option Bytes := do
  let content ← only sequenceTag der
  let (algorithm, rest) ← readTagged sequenceTag content
  guard ((← kindOf algorithm) = kind)
  wholeBits (← only bitStringTag rest)

def maxModulusBits : Nat := 4096

def maxExponent : Nat := 0x1ffffffff

def isSound (key : Rsa.VerifyingKey) : Bool :=
  key.modulus < 1 <<< maxModulusBits && key.exponent < key.modulus && key.modulus % 2 = 1 &&
    key.exponent % 2 = 1 && 2 ≤ key.exponent && key.exponent ≤ maxExponent

def rsaVerifyingKey? (der : Bytes) : Option Rsa.VerifyingKey := do
  match ← readNaturals 2 (← only sequenceTag (← publicKey? rsaKind der)) with
  | ([n, e], []) =>
    let key : Rsa.VerifyingKey := ⟨n, e⟩
    guard (isSound key)
    return key
  | _ => none

/-- The exponents must be inverse to each other modulo `p - 1` for both primes `p`. -/
def rsaSigningKey? (der : Bytes) : Option Rsa.SigningKey := do
  match ← readNaturals 9 (← only sequenceTag (← privateKey? rsaKind der)) with
  | ([0, n, e, d, p, q, _, _, _], []) =>
    let key : Rsa.VerifyingKey := ⟨n, e⟩
    guard (isSound key ∧ p * q = n)
    guard (e * d % (p - 1) = 1 % (p - 1) ∧ e * d % (q - 1) = 1 % (q - 1))
    return ⟨key, d⟩
  | _ => none

def minScalarBytes : Nat := 24

/-- A scalar may be short of leading zeros, down to 24 bytes. -/
def scalar? (c : Curve) (bs : Bytes) : Option Ecdsa.SigningKey :=
  let n := Bytes.toNat bs
  if minScalarBytes ≤ bs.length && bs.length ≤ c.fieldBytes && 0 < n && n < c.order then
    some ⟨c, n⟩
  else none

def uncompressed (c : Curve) (p : Point) : Bytes :=
  4 :: Bytes.ofNat c.fieldBytes p.x ++ Bytes.ofNat c.fieldBytes p.y

def compressed (c : Curve) (p : Point) : Bytes :=
  (if p.y % 2 = 0 then 2 else 3) :: Bytes.ofNat c.fieldBytes p.x

/-- A point with both coordinates, or with one and the parity of the other. Form five
leaves the parity out, and the even one is taken. -/
def point? (c : Curve) : Bytes → Option Point
  | [] => none
  | form :: bs =>
    let x := Bytes.toNat (bs.take c.fieldBytes)
    let y := Bytes.toNat (bs.drop c.fieldBytes)
    if form = 4 && bs.length = 2 * c.fieldBytes then
      (c.lift? x (y % 2 = 1)).filter (·.y = y)
    else if (form = 2 || form = 3 || form = 5) && bs.length = c.fieldBytes then
      c.lift? x (form = 3)
    else none

def matchesKey (key : Ecdsa.SigningKey) (bs : Bytes) : Bool :=
  let p := key.verifyingKey.point
  bs = uncompressed key.curve p || bs = compressed key.curve p

/-- The curve and the public point may be given again, and must then be the same. -/
def ecSigningKeyOn? (c : Curve) (der : Bytes) : Option Ecdsa.SigningKey := do
  let content ← only sequenceTag (← privateKey? (ecKind c) der)
  let (version, rest) ← readNatural content
  let (scalar, rest) ← readTagged octetStringTag rest
  let (parameters, rest) ← readField 0 rest.length rest
  let (publicKey, rest) ← readField 1 rest.length rest
  guard (version = 1 ∧ rest = [])
  if let some e := parameters then
    guard ((← e.explicit? objectIdTag) = curveId c)
  let key ← scalar? c scalar
  if let some e := publicKey then
    guard (matchesKey key (← wholeBits (← e.explicit? bitStringTag)))
  return key

def ecSigningKey? (der : Bytes) : Option Ecdsa.SigningKey :=
  ecSigningKeyOn? .p256 der <|> ecSigningKeyOn? .p384 der

def ecVerifyingKeyOn? (c : Curve) (der : Bytes) : Option Ecdsa.VerifyingKey := do
  return ⟨c, ← point? c (← publicKey? (ecKind c) der)⟩

def ecVerifyingKey? (der : Bytes) : Option Ecdsa.VerifyingKey :=
  ecVerifyingKeyOn? .p256 der <|> ecVerifyingKeyOn? .p384 der

end Jose.PublicKey.Import
