import Jose.Hash.Hmac
import Jose.Proofs.Bytes

/-! A digest, and so a message authentication code, is as long as its hash says. -/
namespace Jose.Hash

theorem Rounds.length_digest {w : Nat} (r : Rounds w) (start : Digest w) (message : Bytes) :
    (r.digest start message).length = 8 * r.wordBytes := by
  simp only [Rounds.digest, Digest.words, List.length_flatMap, Bytes.length_ofNat,
    List.map_cons, List.map_nil, List.sum_cons, List.sum_nil]
  omega

theorem Sha2.length_digest (hash : Sha2) (message : Bytes) :
    (hash.digest message).length = hash.digestBytes := by
  cases hash with
  | sha256 => rw [Sha2.digest, Rounds.length_digest]; rfl
  | sha384 => rw [Sha2.digest, List.length_take, Rounds.length_digest]; rfl
  | sha512 => rw [Sha2.digest, Rounds.length_digest]; rfl

theorem length_hmac (hash : Sha2) (key message : Bytes) :
    (hmac hash key message).length = hash.digestBytes := Sha2.length_digest ..

end Jose.Hash
