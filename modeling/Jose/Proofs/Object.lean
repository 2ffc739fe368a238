import Jose.Object
import Jose.Proofs.Encrypted
import Jose.Proofs.Signed.Basic

/-! The number of segments tells which kind a token is, so each kind is read exactly where
its own reader accepts. -/
namespace Jose.Object
open Result

theorem length_split_of_signed {config : Config} {token : String} {s : Signed}
    (h : Signed.parse config token = .ok s) : (Compact.split token).length = 3 := by
  obtain ⟨_, _, _, _, _, _, hsplit, _⟩ := Signed.parse_eq_ok_iff.mp h
  rw [hsplit]
  rfl

theorem length_split_of_encrypted {token : String} {e : Encrypted}
    (h : Encrypted.parse token = .ok e) : (Compact.split token).length = 5 := by
  obtain ⟨_, _, _, _, _, _, _, _, hsplit, _⟩ := Encrypted.parse_eq_ok_iff.mp h
  rw [hsplit]
  rfl

theorem parse_eq_ok_signed_iff {config : Config} {token : String} {s : Signed} :
    parse config token = .ok (signed s) ↔ Signed.parse config token = .ok s := by
  constructor
  · intro h
    rw [parse] at h
    split at h
    · obtain ⟨s', hs', heq⟩ := map_eq_ok_iff.mp h
      cases heq
      exact hs'
    · obtain ⟨e, -, heq⟩ := map_eq_ok_iff.mp h
      cases heq
    · cases h
  · intro h
    rw [parse, length_split_of_signed h]
    exact map_eq_ok_iff.mpr ⟨s, h, rfl⟩

theorem parse_eq_ok_encrypted_iff {config : Config} {token : String} {e : Encrypted} :
    parse config token = .ok (encrypted e) ↔ Encrypted.parse token = .ok e := by
  constructor
  · intro h
    rw [parse] at h
    split at h
    · obtain ⟨s, -, heq⟩ := map_eq_ok_iff.mp h
      cases heq
    · obtain ⟨e', he', heq⟩ := map_eq_ok_iff.mp h
      cases heq
      exact he'
    · cases h
  · intro h
    rw [parse, length_split_of_encrypted h]
    exact map_eq_ok_iff.mpr ⟨e, h, rfl⟩

/-- One more than the periods. -/
def segmentCount (token : String) : Nat := token.toList.count '.' + 1

theorem segmentCount_eq (token : String) :
    segmentCount token = (Compact.split token).length :=
  (Compact.length_split token).symm

theorem parse_of_three {config : Config} {token : String} (h : segmentCount token = 3) :
    parse config token = signed <$> Signed.parse config token := by
  rw [segmentCount_eq] at h
  rw [parse, h]
  rfl

theorem parse_of_five {config : Config} {token : String} (h : segmentCount token = 5) :
    parse config token = encrypted <$> Encrypted.parse token := by
  rw [segmentCount_eq] at h
  rw [parse, h]
  rfl

theorem not_signed_and_encrypted {config : Config} {token : String} {s : Signed}
    {e : Encrypted}
    (hs : Signed.parse config token = .ok s) (he : Encrypted.parse token = .ok e) :
    False := by
  have hthree := length_split_of_signed hs
  have hfive := length_split_of_encrypted he
  omega

/-- A token is read as a kind exactly if the reader of that kind accepts it, with the same
envelope; no token is accepted by both readers, be it under different configurations; and
where the token has three or five segments, periods counted wherever they stand, a failure
is the one that the reader gives. -/
theorem parse_agrees_with_readers (config : Config) (token : String) :
    (∀ s, parse config token = .ok (signed s) ↔ Signed.parse config token = .ok s) ∧
    (∀ e, parse config token = .ok (encrypted e) ↔ Encrypted.parse token = .ok e) ∧
    (∀ config' s e, ¬(Signed.parse config' token = .ok s ∧ Encrypted.parse token = .ok e)) ∧
    (segmentCount token = 3 → ∀ error,
      parse config token = .error error ↔ Signed.parse config token = .error error) ∧
    (segmentCount token = 5 → ∀ error,
      parse config token = .error error ↔ Encrypted.parse token = .error error) := by
  refine ⟨fun s => parse_eq_ok_signed_iff, fun e => parse_eq_ok_encrypted_iff,
    fun config' s e h => ?_, fun hthree error => ?_, fun hfive error => ?_⟩
  · exact not_signed_and_encrypted h.1 h.2
  · rw [parse_of_three hthree]
    exact map_eq_error_iff
  · rw [parse_of_five hfive]
    exact map_eq_error_iff

/-- A leading and a repeated period are segments like any other, and the layout refuses
them. -/
theorem parse_agrees_with_readers_dotted :
    segmentCount ".a." = 3 ∧ parse .secure ".a." = .error Compact.emptySegment ∧
      segmentCount "a...b." = 5 ∧ parse .secure "a...b." = .error Compact.emptySegment := by
  have hthree : segmentCount ".a." = 3 := by decide
  have hfive : segmentCount "a...b." = 5 := by decide
  obtain ⟨-, -, -, hsigned, -⟩ := parse_agrees_with_readers .secure ".a."
  obtain ⟨-, -, -, -, hencrypted⟩ := parse_agrees_with_readers .secure "a...b."
  exact ⟨hthree, (hsigned hthree _).mpr rfl, hfive, (hencrypted hfive _).mpr rfl⟩

end Jose.Object
