import MusicIndex.Decimal.Binary64

namespace MusicIndex.Json

structure Numeral where
  negative : Bool
  whole : List Nat
  fraction : List Nat
  exponent : Option (Bool × List Nat)

inductive Number where
  | integer (n : Int)
  | real (x : Binary64)
deriving DecidableEq

namespace Numeral

def prefixBelow (bound : Nat) : Nat → List Nat → Nat × List Nat
  | n, [] => (n, [])
  | n, d :: rest =>
    if n * 10 + d < bound then prefixBelow bound (n * 10 + d) rest else (n, d :: rest)

def ofDigits (digits : List Nat) : Nat :=
  digits.foldl (fun n d => n * 10 + d) 0

/-- The leading digits as a number below `2 ^ 64`, and the power of ten that goes with them. -/
def significand (x : Numeral) : Nat × Int :=
  let (n, dropped) := prefixBelow (Nat.pow 2 64) 0 x.whole
  let (m, unread) := prefixBelow (Nat.pow 2 64) n x.fraction
  (m, (dropped.length : Int) - (x.fraction.length - unread.length : Nat))

def timesPower (x : Binary64) (exponent : Int) : Option Binary64 := do
  let power ← Binary64.ofNat? (Nat.pow 10 exponent.natAbs)
  if 0 ≤ exponent then x.mul? power else x.div? power

/-- A whole number below `2 ^ 64` scaled by a power of ten; one smaller than every positive real is
zero. -/
def scaled (n : Nat) (exponent : Int) : Option Binary64 := do
  let x ← Binary64.ofNat? n
  if n = 0 then some x
  else if 308 < exponent then none
  else if -308 ≤ exponent then timesPower x exponent
  else if -616 ≤ exponent then timesPower (← timesPower x (-308)) (exponent + 308)
  else some Binary64.zero

def real? (x : Numeral) : Option Binary64 := do
  let (n, power) := x.significand
  let magnitude ←
    match x.exponent with
    | none => scaled n power
    | some (minus, digits) =>
      let e := ofDigits digits
      if e < Nat.pow 2 31 then scaled n (if minus then power - e else power + e)
      else if n = 0 ∨ minus then some Binary64.zero
      else none
  return magnitude.withSign x.negative

def number? (x : Numeral) : Option Number :=
  let n := ofDigits x.whole
  let isWhole := x.fraction.isEmpty && x.exponent.isNone
  if isWhole && !x.negative && n < Nat.pow 2 64 then some (.integer n)
  else if isWhole && x.negative && 0 < n && n ≤ Nat.pow 2 63 then some (.integer (-n))
  else x.real?.map .real

end Numeral

end MusicIndex.Json
