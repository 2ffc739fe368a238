import Jose.Proofs.Algorithm.Signature
import Jose.Proofs.Bytes

/-! The check on the size of an RSA modulus counts whole bytes. So the bound of 2048 bits
is in effect one of 256 bytes, which a modulus of 2041 bits already fills. -/
namespace Jose

namespace Key
open PublicKey

/-- The modulus of a key for RSA, be it private or public. -/
def modulus? : Key → Option Nat
  | rsaPrivate k => some k.verifyingKey.modulus
  | rsaPublic k => some k.modulus
  | symmetric _ | ecPrivate _ | ecPublic _ => none

theorem rsaBits?_eq (key : Key) :
    key.rsaBits? = key.modulus?.map fun n => Bytes.widthOf n * 8 := by
  cases key <;> rfl

theorem validateRsaSize_eq_ok_iff {id : String} {key : Key} {n : Nat}
    (h : key.modulus? = some n) :
    validateRsaSize id key = .ok () ↔ minRsaBits ≤ Bytes.widthOf n * 8 := by
  rw [validateRsaSize, rsaBits?_eq, h]
  show (if Bytes.widthOf n * 8 < minRsaBits then _ else _) = _ ↔ _
  split
  · next hshort => simp [Nat.not_le.mpr hshort]
  · next hlong => simp [Nat.not_lt.mp hlong]

theorem minRsaBits_le_iff (n : Nat) : minRsaBits ≤ Bytes.widthOf n * 8 ↔ 2 ^ 2040 ≤ n := by
  have hbytes : minRsaBits ≤ Bytes.widthOf n * 8 ↔ 255 < Bytes.widthOf n := by
    rw [minRsaBits]
    omega
  have hpow : 2 ^ 2040 = 256 ^ 255 := by rw [show 256 = 2 ^ 8 from rfl, ← Nat.pow_mul]
  rw [hbytes, hpow]
  exact Bytes.lt_widthOf_iff (by decide)

end Key

namespace SignatureAlgorithm
open PublicKey Hash

theorem rsa_validateVerificationKey_iff (hash : Sha2) (key : Key) :
    (rsa hash).validateVerificationKey (some key) = .ok () ↔
      ∃ n ∈ key.modulus?, Key.minRsaBits ≤ Bytes.widthOf n * 8 := by
  cases key with
  | rsaPrivate k =>
    show Key.validateRsaSize _ (.rsaPublic k.verifyingKey) = .ok () ↔ _
    rw [Key.validateRsaSize_eq_ok_iff (n := k.verifyingKey.modulus) rfl]
    simp [Key.modulus?]
  | rsaPublic k =>
    show Key.validateRsaSize _ (.rsaPublic k) = .ok () ↔ _
    rw [Key.validateRsaSize_eq_ok_iff (n := k.modulus) rfl]
    simp [Key.modulus?]
  | symmetric | ecPrivate | ecPublic =>
    show Except.error _ = Except.ok () ↔ _
    simp [Key.modulus?]

theorem rsa_validateSigningKey_iff (hash : Sha2) (key : Key) :
    (rsa hash).validateSigningKey (some key) = .ok () ↔
      (∃ n ∈ key.modulus?, Key.minRsaBits ≤ Bytes.widthOf n * 8) ∧ key.isPrivate = true := by
  cases key with
  | rsaPrivate k =>
    show Key.validateRsaSize _ (.rsaPrivate k) = .ok () ↔ _
    rw [Key.validateRsaSize_eq_ok_iff (n := k.verifyingKey.modulus) rfl]
    simp [Key.modulus?, Key.isPrivate]
  | rsaPublic | symmetric | ecPrivate | ecPublic =>
    show Except.error _ = Except.ok () ↔ _
    simp [Key.modulus?, Key.isPrivate]

/-- A key for RSA passes the check for verification exactly if its modulus has at least
2041 bits, which take 256 bytes, and the check for signing if it is private besides. -/
theorem rsa_modulus_accepted_iff (hash : Sha2) (key : Key) :
    ((rsa hash).validateVerificationKey (some key) = .ok () ↔
      ∃ n ∈ key.modulus?, 2 ^ 2040 ≤ n) ∧
    ((rsa hash).validateSigningKey (some key) = .ok () ↔
      (∃ n ∈ key.modulus?, 2 ^ 2040 ≤ n) ∧ key.isPrivate = true) := by
  simp only [← Key.minRsaBits_le_iff]
  exact ⟨rsa_validateVerificationKey_iff hash key, rsa_validateSigningKey_iff hash key⟩

/-- A modulus of 2041 bits, seven short of the bound. -/
def shortModulus : Rsa.VerifyingKey := ⟨2 ^ 2040 + 1, 65537⟩

theorem short_modulus_accepted :
    Import.isSound shortModulus = true ∧ shortModulus.modulus < 2 ^ 2047 ∧
      (rsa .sha256).validateVerificationKey (some (.rsaPublic shortModulus)) = .ok () :=
  ⟨by decide +kernel, by decide +kernel, by decide +kernel⟩

end SignatureAlgorithm
end Jose
