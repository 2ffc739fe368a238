import Jose.Hash.Sha2
import Jose.PublicKey.Modular

/-! RSA signatures with the padding of PKCS #1 version 1.5. -/
namespace Jose.PublicKey.Rsa
open Jose.Hash

structure VerifyingKey where
  modulus : Nat
  exponent : Nat
  deriving DecidableEq, Repr

structure SigningKey where
  verifyingKey : VerifyingKey
  privateExponent : Nat
  deriving DecidableEq, Repr

/-- Bytes of the modulus, and of every signature. -/
def VerifyingKey.size (key : VerifyingKey) : Nat := Bytes.widthOf key.modulus

def digestNumber : Sha2 → UInt8
  | .sha256 => 1
  | .sha384 => 2
  | .sha512 => 3

/-- The digest with the identifier of its hash in front. -/
def digestInfo (hash : Sha2) (message : Bytes) : Bytes :=
  let n := UInt8.ofNat hash.digestBytes
  [0x30, 17 + n, 0x30, 0x0d, 0x06, 0x09, 0x60, 0x86, 0x48, 0x01, 0x65, 0x03, 0x04, 0x02,
    digestNumber hash, 0x05, 0x00, 0x04, n] ++ hash.digest message

/-- `none` when there is no room for eight bytes of padding. -/
def encoded? (hash : Sha2) (size : Nat) (message : Bytes) : Option Bytes :=
  let info := digestInfo hash message
  if info.length + 11 ≤ size then
    some (0 :: 1 :: List.replicate (size - info.length - 3) 0xff ++ 0 :: info)
  else none

def apply (key : VerifyingKey) (n : Nat) : Nat := powMod key.modulus n key.exponent

inductive SigningFault where
  | messageTooLong
  | internal
  deriving DecidableEq, Repr

def SigningFault.message : SigningFault → String
  | .messageTooLong => "message too long"
  | .internal => "internal error"

/-- The result is checked against the public exponent before it is given out. -/
def sign (hash : Sha2) (key : SigningKey) (message : Bytes) : Except SigningFault Bytes :=
  let size := key.verifyingKey.size
  match encoded? hash size message with
  | none => .error .messageTooLong
  | some em =>
    let m := Bytes.toNat em
    let s := powMod key.verifyingKey.modulus m key.privateExponent
    if apply key.verifyingKey s = m then .ok (Bytes.ofNat size s) else .error .internal

def verify (hash : Sha2) (key : VerifyingKey) (signature message : Bytes) : Bool :=
  let s := Bytes.toNat signature
  s < key.modulus && signature.length = key.size &&
    some (Bytes.ofNat key.size (apply key s)) = encoded? hash key.size message

end Jose.PublicKey.Rsa
