import Jose.Algorithm.KeyManagement
import Jose.Proofs.Result

/-! Direct encryption gives the shared secret as it is, if it has the length that the
content encryption needs, and only where nothing was sent in its place. -/
namespace Jose.KeyManagement
open Result

theorem secretOf_eq_ok_iff {m : KeyManagement} {key : Option Key} {secret : Bytes} :
    m.secretOf key = .ok secret ↔ key = some (.symmetric secret) := by
  unfold secretOf
  cases key with
  | none => simp [Key.required, bind, Except.bind]
  | some key =>
    cases key <;> simp [Key.required, Key.secret?, bind, Except.bind, pure_eq_ok_iff]

theorem sharedKey_eq_ok_iff {m : KeyManagement} {key : Option Key} {x : ContentEncryption}
    {secret : Bytes} :
    m.sharedKey key x = .ok secret ↔
      key = some (.symmetric secret) ∧ secret.length = x.keyBytes := by
  unfold sharedKey
  simp only [bind_eq_ok_iff, secretOf_eq_ok_iff]
  constructor
  · rintro ⟨shared, hshared, h⟩
    split at h
    · next hlength =>
      cases h
      exact ⟨hshared, hlength⟩
    · cases h
  · rintro ⟨hshared, hlength⟩
    refine ⟨secret, hshared, ?_⟩
    rw [if_pos hlength]
    rfl

theorem validateKey_eq_ok_iff {m : KeyManagement} {key : Option Key} {x : ContentEncryption} :
    m.validateKey key x = .ok () ↔ ∃ secret, m.sharedKey key x = .ok secret := by
  rw [validateKey]
  exact map_eq_ok_iff.trans (exists_congr fun secret => and_iff_left rfl)

theorem forEncryption_eq_ok_iff {m : KeyManagement} {key : Option Key} {x : ContentEncryption}
    {keys : ContentKey} :
    m.forEncryption key x = .ok keys ↔
      m.sharedKey key x = .ok keys.key ∧ keys.encryptedKey = [] := by
  unfold forEncryption
  simp only [bind_eq_ok_iff, pure_eq_ok_iff]
  constructor
  · rintro ⟨secret, hsecret, rfl⟩
    exact ⟨hsecret, rfl⟩
  · rintro ⟨hsecret, hempty⟩
    exact ⟨keys.key, hsecret, by rw [← hempty]⟩

theorem forDecryption_eq_ok_iff {m : KeyManagement} {key : Option Key} {encryptedKey : Bytes}
    {x : ContentEncryption} {secret : Bytes} :
    m.forDecryption key encryptedKey x = .ok secret ↔
      encryptedKey = [] ∧ m.sharedKey key x = .ok secret := by
  rw [forDecryption]
  cases encryptedKey <;> simp

end Jose.KeyManagement
