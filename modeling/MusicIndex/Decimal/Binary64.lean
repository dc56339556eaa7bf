namespace MusicIndex

abbrev Binary64.top : Nat := 2047 * Nat.pow 2 52

/-- A finite double-precision number: a sign, and the other 63 bits as a natural number, which
orders the magnitudes. -/
structure Binary64 where
  negative : Bool
  magnitude : Nat
  finite : magnitude < Binary64.top
deriving DecidableEq

namespace Binary64

def zero : Binary64 := ⟨false, 0, by decide⟩

instance : Inhabited Binary64 := ⟨zero⟩

/-- A magnitude in multiples of `2 ^ -1074`. -/
def unitsOf (magnitude : Nat) : Nat :=
  if magnitude < Nat.pow 2 52 then magnitude
  else (Nat.pow 2 52 + magnitude % Nat.pow 2 52) * Nat.pow 2 (magnitude / Nat.pow 2 52 - 1)

def units (x : Binary64) : Nat :=
  unitsOf x.magnitude

/-- The whole number nearest to a quotient, of two the even one. -/
def roundDiv (num den : Nat) : Nat :=
  let quotient := num / den
  let twice := 2 * (num % den)
  if twice < den then quotient
  else if den < twice then quotient + 1
  else quotient + quotient % 2

/-- The number nearest to a signed quotient, or `none` beyond the finite ones. -/
def nearest (negative : Bool) (num den : Nat) : Option Binary64 :=
  let scaled := num * Nat.pow 2 1074
  let step := (scaled / den).log2 - 52
  let magnitude := step * Nat.pow 2 52 + roundDiv scaled (den * Nat.pow 2 step)
  if h : magnitude < top then some ⟨negative, magnitude, h⟩ else none

def ofNat? (n : Nat) : Option Binary64 :=
  nearest false n 1

def mul? (x y : Binary64) : Option Binary64 :=
  nearest (x.negative != y.negative) (x.units * y.units) (Nat.pow 2 2148)

def div? (x y : Binary64) : Option Binary64 :=
  nearest (x.negative != y.negative) x.units y.units

def isZero (x : Binary64) : Bool :=
  x.magnitude == 0

/-- With the sign `+` on a zero. -/
def plainZero (x : Binary64) : Binary64 :=
  if x.isZero then zero else x

def withSign (negative : Bool) (x : Binary64) : Binary64 :=
  { x with negative }

def inRange (n : Nat) (x : Binary64) : Bool :=
  x.isZero || (!x.negative && x.units ≤ n * Nat.pow 2 1074)

end Binary64

/-- A double-precision number as it may be handed over; what is no number is told apart no
further. -/
inductive Double where
  | nan
  | infinite (negative : Bool)
  | finite (x : Binary64)
deriving DecidableEq

namespace Double

def finite? : Double → Option Binary64
  | finite x => some x
  | nan | infinite _ => none

def inRange (n : Nat) : Double → Bool
  | finite x => x.inRange n
  | nan | infinite _ => false

end Double

class ToDouble (α : Type) where
  toDouble : α → Double

instance : ToDouble Double := ⟨id⟩

instance : ToDouble Binary64 := ⟨.finite⟩

end MusicIndex
