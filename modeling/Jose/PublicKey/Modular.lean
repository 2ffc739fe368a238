/-! Powers modulo a number, by squaring along the bits of the exponent. -/
namespace Jose.PublicKey

/-- One bit: the product of the powers taken so far, and the next square. -/
def powModStep (m e : Nat) (state : Nat × Nat) (i : Nat) : Nat × Nat :=
  (if e.testBit i then state.1 * state.2 % m else state.1, state.2 * state.2 % m)

def powMod (m base e : Nat) : Nat :=
  ((List.range (e.log2 + 1)).foldl (powModStep m e) (1 % m, base % m)).1

/-- The inverse modulo a prime, by the little theorem of Fermat. -/
def inverseMod (p a : Nat) : Nat := powMod p a (p - 2)

end Jose.PublicKey
