import MusicIndex.Decimal.Shortest

namespace MusicIndex.Decimal

/-- How shortest digits are written. A number whose decimal point falls between `leastPoint` and
`greatestPoint` places after the first digit is written without an exponent; `none` is no bound.
`plus` stands before an exponent that is not negative. -/
structure Layout where
  tie : Tie
  leastPoint : Option Int
  greatestPoint : Option Int
  wholeMark : String
  plus : String

def Layout.plain : Layout := ⟨.up, none, none, "", ""⟩

/-- Numbers in JSON: an exponent with its sign below `1e-5` and from `1e+16` on, and a mark on a
whole number. -/
def Layout.json : Layout := ⟨.even, some (-4), some 16, ".0", "+"⟩

def positional (wholeMark : String) (digits : String) (point : Int) : String :=
  let zeros (n : Int) := String.ofList (List.replicate n.toNat '0')
  let count : Int := digits.length
  if point ≤ 0 then "0." ++ zeros (-point) ++ digits
  else if count ≤ point then digits ++ zeros (point - count) ++ wholeMark
  else
    let cs := digits.toList
    String.ofList (cs.take point.toNat) ++ "." ++ String.ofList (cs.drop point.toNat)

def exponential (plus : String) (digits : String) (point : Int) : String :=
  let mantissa :=
    match digits.toList with
    | [] => ""
    | [c] => String.ofList [c]
    | c :: rest => String.ofList (c :: '.' :: rest)
  mantissa ++ "e" ++ (if point < 1 then "" else plus) ++ toString (point - 1)

def Layout.magnitude (layout : Layout) (magnitude : Nat) : String :=
  let d := shortest layout.tie magnitude
  let digits := toString d.digits
  let point : Int := d.exponent + digits.length
  let small := layout.leastPoint.any fun least => point < least
  let large := layout.greatestPoint.any fun greatest => greatest < point
  if small || large then exponential layout.plus digits point
  else positional layout.wholeMark digits point

def Layout.text (layout : Layout) (x : Binary64) : String :=
  let body := if x.isZero then "0" ++ layout.wholeMark else layout.magnitude x.magnitude
  if x.negative then "-" ++ body else body

end MusicIndex.Decimal

namespace MusicIndex.Binary64

def text (x : Binary64) : String :=
  Decimal.Layout.plain.text x

end MusicIndex.Binary64

def MusicIndex.Double.text : Double → String
  | nan => "NaN"
  | infinite negative => if negative then "-inf" else "inf"
  | finite x => x.text
