import MusicIndex.Decimal.Binary64

namespace MusicIndex.Decimal

structure Scaled where
  digits : Nat
  exponent : Int
deriving DecidableEq

inductive Tie where
  | up
  | even

def digitCount (n : Nat) : Nat :=
  (Nat.toDigits 10 n).length

/-- The interval that rounds to a magnitude, in quarters of the smallest positive number: its lower
end, the magnitude itself, its upper end. -/
def interval (magnitude : Nat) : Nat × Nat × Nat :=
  let value := 4 * Binary64.unitsOf magnitude
  let step := Nat.pow 2 (magnitude / Nat.pow 2 52 - 1)
  let below := if magnitude % Nat.pow 2 52 = 0 ∧ Nat.pow 2 52 < magnitude then step else 2 * step
  (value - below, value, value + 2 * step)

/-- The exponent `p` with `10 ^ (p - 1) ≤ value < 10 ^ p`, for a value in quarters of the smallest
positive number. -/
def decimalExponent (value : Nat) : Int :=
  (digitCount (value * Nat.pow 10 400 / Nat.pow 2 1076) : Int) - 400

def onGrid (tie : Tie) (closed : Bool) (low value high : Nat) (exponent : Int) : Option Nat :=
  let up := Nat.pow 10 (-exponent).toNat
  let unit := Nat.pow 2 1076 * Nat.pow 10 exponent.toNat
  let inside (n : Nat) : Bool :=
    let x := n * unit
    if closed then low * up ≤ x && x ≤ high * up else low * up < x && x < high * up
  let floor := value * up / unit
  let gap := value * up - floor * unit
  let floorNearer : Bool :=
    match tie with
    | .up => decide (2 * gap < unit)
    | .even => decide (2 * gap < unit) || (2 * gap == unit && floor % 2 == 0)
  match inside floor, inside (floor + 1) with
  | true, true => some (if floorNearer then floor else floor + 1)
  | true, false => some floor
  | false, true => some (floor + 1)
  | false, false => none

def dropZeros : Nat → Scaled → Scaled
  | 0, d => d
  | fuel + 1, d =>
    if d.digits ≠ 0 ∧ d.digits % 10 = 0 then dropZeros fuel ⟨d.digits / 10, d.exponent + 1⟩ else d

/-- The shortest decimal that reads back as a positive magnitude. -/
def shortest (tie : Tie) (magnitude : Nat) : Scaled :=
  let (low, value, high) := interval magnitude
  let point := decimalExponent value
  let found := (List.range 17).findSome? fun n =>
    let exponent := point - (n + 1 : Nat)
    (onGrid tie (magnitude % 2 == 0) low value high exponent).map (Scaled.mk · exponent)
  dropZeros 18 (found.getD ⟨0, 0⟩)

end MusicIndex.Decimal
