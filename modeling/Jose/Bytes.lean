/-! Byte strings as lists, and the big-endian reading of numbers as bytes of a fixed
width. -/
namespace Jose

abbrev Bytes := List UInt8

namespace Bytes

def toNat (bs : Bytes) : Nat := bs.foldl (fun n b => n * 256 + b.toNat) 0

/-- The last `width` base-256 digits of `n`, most significant first. -/
def ofNat : (width n : Nat) → Bytes
  | 0, _ => []
  | width + 1, n => ofNat width (n / 256) ++ [UInt8.ofNat n]

def xor (a b : Bytes) : Bytes := List.zipWith (· ^^^ ·) a b

/-- The fewest bytes that hold `n`, at least one. -/
def widthOf (n : Nat) : Nat := (Nat.log2 n) / 8 + 1

/-- Cuts off one piece of `width + 1` bytes for each unit of fuel. -/
def chunksWithin (width : Nat) : (fuel : Nat) → Bytes → List Bytes
  | 0, _ => []
  | _, [] => []
  | fuel + 1, b :: rest => (b :: rest.take width) :: chunksWithin width fuel (rest.drop width)

/-- Consecutive pieces of `width + 1` bytes; the last one may be shorter. -/
def chunks (width : Nat) (bs : Bytes) : List Bytes := chunksWithin width bs.length bs

end Bytes
end Jose
