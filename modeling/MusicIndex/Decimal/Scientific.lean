import MusicIndex.Decimal.Binary64

namespace MusicIndex.Decimal

/-- The number nearest to `digits * 10 ^ exponent`, or `none` beyond the finite ones. Decimals far
outside the range are settled by their size alone. -/
def ofScientific? (negative : Bool) (digits : Nat) (exponent : Int) : Option Binary64 :=
  let size := exponent + (Nat.toDigits 10 digits).length
  if digits = 0 ∨ size < -400 then some (Binary64.zero.withSign negative)
  else if 400 < size then none
  else Binary64.nearest negative (digits * Nat.pow 10 exponent.toNat) (Nat.pow 10 (-exponent).toNat)

end MusicIndex.Decimal
