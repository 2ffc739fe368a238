import Jose.Cipher.Aes
import Mathlib.Data.FinEnum

/-! Enciphering and deciphering a block under one schedule undo each other. Every layer of
a round has its inverse; for the mixing of a column this only needs that doubling
distributes over exclusive or, for the fourth power of the mixing is the identity then,
whatever the doubling is. -/
namespace Jose.Cipher

theorem UInt8.xor_xor_cancel_left (a b : UInt8) : a ^^^ (a ^^^ b) = b := by
  rw [← UInt8.xor_assoc, UInt8.xor_self, UInt8.zero_xor]

theorem UInt8.xor_xor_cancel_right (a b : UInt8) : a ^^^ b ^^^ b = a := by
  rw [UInt8.xor_assoc, UInt8.xor_self, UInt8.xor_zero]

theorem UInt8.xor_left_comm (a b c : UInt8) : a ^^^ (b ^^^ c) = b ^^^ (a ^^^ c) := by
  rw [← UInt8.xor_assoc, UInt8.xor_comm a b, UInt8.xor_assoc]

theorem Column.xor_cancel (c d : Column) : (c.xor d).xor d = c := by
  simp only [Column.xor, UInt8.xor_xor_cancel_right]

theorem Block.xor_cancel (a b : Block) : (a.xor b).xor b = a := by
  simp only [Block.xor, Column.xor_cancel]

theorem Block.map_map_id {f g : UInt8 → UInt8} (h : ∀ x, g (f x) = x) (b : Block) :
    (b.map f).map g = b := by
  simp only [Block.map, Block.mapColumns, Column.map, h]

theorem Block.mapColumns_id {f g : Column → Column} (h : ∀ c, g (f c) = c) (b : Block) :
    (b.mapColumns f).mapColumns g = b := by
  simp only [Block.mapColumns, h]

namespace Aes

/-- A table and a function that takes its entries back to their places. -/
private theorem table_inverse {table : Array UInt8} {f : UInt8 → UInt8}
    (h : table.toList.map f = (List.range 256).map UInt8.ofNat) (b : UInt8) :
    f (table.getD b.toNat 0) = b := by
  have hsize : table.size = 256 := by simpa using congrArg List.length h
  have hb : b.toNat < table.size := by
    rw [hsize]
    exact b.toNat_lt
  have hentry := congrArg (·[b.toNat]?) h
  simpa [Array.getD, hb, b.toNat_lt] using hentry

private theorem substitution_inverse :
    substitution.toList.map unsubstitute = (List.range 256).map UInt8.ofNat := by
  have hlist : unsubstitute = fun b => inverseSubstitution.toList.getD b.toNat 0 := by
    funext b
    simp [unsubstitute, Array.getD_eq_getD_getElem?]
  rw [hlist]
  decide +kernel

theorem unsubstitute_substitute (b : UInt8) : unsubstitute (substitute b) = b :=
  table_inverse substitution_inverse b

/-- Every byte is in the table, for no two entries are the same. -/
theorem substitute_unsubstitute (b : UInt8) : substitute (unsubstitute b) = b := by
  have hinverse : Function.LeftInverse unsubstitute substitute := unsubstitute_substitute
  have hsurjective : Function.Surjective substitute :=
    Finite.injective_iff_surjective.mp hinverse.injective
  exact hinverse.rightInverse_of_surjective hsurjective b

theorem unshiftRows_shiftRows (b : Block) : unshiftRows (shiftRows b) = b := rfl

theorem shiftRows_unshiftRows (b : Block) : shiftRows (unshiftRows b) = b := rfl

/-! ## Mixing a column -/

private theorem lt_128_iff_msb (b : UInt8) : b < 0x80 ↔ b.toBitVec.msb = false := by
  rw [UInt8.lt_iff_toNat_lt, BitVec.msb_eq_decide]
  simp

theorem double_xor (a b : UInt8) : double (a ^^^ b) = double a ^^^ double b := by
  have hshift : (a ^^^ b) <<< 1 = a <<< 1 ^^^ b <<< 1 := by
    apply UInt8.toBitVec_inj.mp
    simp [BitVec.shiftLeft_xor_distrib]
  have hmsb : (a ^^^ b).toBitVec.msb = (a.toBitVec.msb ^^ b.toBitVec.msb) := by
    simp
  simp only [double, hshift, lt_128_iff_msb, hmsb]
  generalize a <<< 1 = x
  generalize b <<< 1 = y
  cases a.toBitVec.msb <;> cases b.toBitVec.msb <;>
    simp [UInt8.xor_assoc, UInt8.xor_comm, UInt8.xor_left_comm]

/-- The sum of a column is the sum of the mixed column. -/
private theorem sum_mixed (a b c d s : UInt8) :
    (a ^^^ s ^^^ double (a ^^^ b)) ^^^ (b ^^^ s ^^^ double (b ^^^ c)) ^^^
      (c ^^^ s ^^^ double (c ^^^ d)) ^^^ (d ^^^ s ^^^ double (d ^^^ a)) =
        a ^^^ b ^^^ c ^^^ d := by
  simp only [double_xor, UInt8.xor_assoc, UInt8.xor_comm, UInt8.xor_left_comm,
    UInt8.xor_xor_cancel_left, UInt8.xor_self, UInt8.xor_zero]

private theorem mixed_mixed (a b c s : UInt8) :
    (a ^^^ s ^^^ double (a ^^^ b)) ^^^ s ^^^
      double ((a ^^^ s ^^^ double (a ^^^ b)) ^^^ (b ^^^ s ^^^ double (b ^^^ c))) =
      a ^^^ double (double (a ^^^ c)) := by
  simp only [double_xor, UInt8.xor_assoc, UInt8.xor_comm, UInt8.xor_left_comm,
    UInt8.xor_xor_cancel_left]

/-- Twice the mixing only adds the difference to the opposite byte, doubled twice. -/
theorem mixColumn_mixColumn (c : Column) :
    mixColumn (mixColumn c) =
      ⟨c.r0 ^^^ double (double (c.r0 ^^^ c.r2)), c.r1 ^^^ double (double (c.r1 ^^^ c.r3)),
        c.r2 ^^^ double (double (c.r2 ^^^ c.r0)),
          c.r3 ^^^ double (double (c.r3 ^^^ c.r1))⟩ := by
  simp only [mixColumn, sum_mixed, mixed_mixed]

private theorem opposite_cancel (a c : UInt8) :
    (a ^^^ double (double (a ^^^ c))) ^^^
      double (double
        ((a ^^^ double (double (a ^^^ c))) ^^^ (c ^^^ double (double (c ^^^ a))))) =
      a := by
  rw [UInt8.xor_comm c a]
  generalize hd : double (double (a ^^^ c)) = d
  have hsum : (a ^^^ d) ^^^ (c ^^^ d) = a ^^^ c := by
    rw [UInt8.xor_assoc, UInt8.xor_left_comm d, UInt8.xor_self, UInt8.xor_zero]
  rw [hsum, hd, UInt8.xor_xor_cancel_right]

theorem mixColumn_four (c : Column) :
    mixColumn (mixColumn (mixColumn (mixColumn c))) = c := by
  rw [mixColumn_mixColumn, mixColumn_mixColumn]
  simp only [opposite_cancel]

theorem unmixColumn_mixColumn (c : Column) : unmixColumn (mixColumn c) = c := mixColumn_four c

theorem mixColumn_unmixColumn (c : Column) : mixColumn (unmixColumn c) = c := mixColumn_four c

/-! ## Rounds -/

theorem innerRoundBack_innerRound (b key : Block) :
    innerRoundBack (innerRound b key) key = b := by
  rw [innerRoundBack, innerRound, Block.xor_cancel, Block.mapColumns_id unmixColumn_mixColumn,
    unshiftRows_shiftRows, Block.map_map_id unsubstitute_substitute]

theorem innerRound_innerRoundBack (b key : Block) :
    innerRound (innerRoundBack b key) key = b := by
  rw [innerRoundBack, innerRound, Block.map_map_id substitute_unsubstitute,
    shiftRows_unshiftRows, Block.mapColumns_id mixColumn_unmixColumn, Block.xor_cancel]

theorem foldl_innerRoundBack (keys : List Block) (b : Block) :
    keys.reverse.foldl innerRoundBack (keys.foldl innerRound b) = b := by
  induction keys generalizing b with
  | nil => rfl
  | cons key keys ih =>
    rw [List.reverse_cons, List.foldl_append, List.foldl_cons (l := keys), ih]
    exact innerRoundBack_innerRound b key

theorem foldl_innerRound (keys : List Block) (b : Block) :
    keys.foldl innerRound (keys.reverse.foldl innerRoundBack b) = b := by
  induction keys generalizing b with
  | nil => rfl
  | cons key keys ih =>
    rw [List.reverse_cons, List.foldl_append, List.foldl_cons]
    change keys.foldl innerRound (innerRound (innerRoundBack _ key) key) = b
    rw [innerRound_innerRoundBack, ih]

theorem decrypt_encrypt (s : Schedule) (b : Block) : decrypt s (encrypt s b) = b := by
  rw [decrypt, encrypt, Block.xor_cancel, unshiftRows_shiftRows,
    Block.map_map_id unsubstitute_substitute, foldl_innerRoundBack, Block.xor_cancel]

theorem encrypt_decrypt (s : Schedule) (b : Block) : encrypt s (decrypt s b) = b := by
  rw [encrypt, decrypt, Block.xor_cancel, foldl_innerRound,
    Block.map_map_id substitute_unsubstitute, shiftRows_unshiftRows, Block.xor_cancel]

end Aes
end Jose.Cipher
