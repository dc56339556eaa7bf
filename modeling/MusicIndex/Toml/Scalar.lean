import MusicIndex.Decimal.Scientific
import MusicIndex.Toml.Edition
import MusicIndex.Toml.Value

namespace MusicIndex.Toml

/-- Digits in groups: one underscore may stand between two digits. The first argument tells whether
a digit has been read. -/
def grouped (isDigit : Char → Bool) (started : Bool) : List Char → List Char × List Char
  | [] => ([], [])
  | '_' :: c :: rest =>
    if started && isDigit c then
      let (cs, rest) := grouped isDigit true rest
      (c :: cs, rest)
    else ([], '_' :: c :: rest)
  | c :: rest =>
    if isDigit c then
      let (cs, rest) := grouped isDigit true rest
      (c :: cs, rest)
    else ([], c :: rest)

def ofDigits (base : Nat) (digits : List Char) : Nat :=
  digits.foldl (fun n c =>
    n * base + (if c.isDigit then c.toNat - 48 else c.toLower.toNat - 87)) 0

def integer? (n : Int) : Option Value :=
  if -Nat.pow 2 63 ≤ n ∧ n < Nat.pow 2 63 then some (.integer n) else none

def based? (base : Nat) (isDigit : Char → Bool) (s : List Char) : Option (Value × List Char) :=
  match grouped isDigit false s with
  | ([], _) => none
  | (digits, rest) => (integer? (ofDigits base digits)).map (·, rest)

/-- A decimal with an exponent as a float. One above all finite floats is refused. -/
def float? (edition : Edition) (negative : Bool) (whole fraction : List Char) (exponent : Int) :
    Option Value :=
  match Decimal.ofScientific? negative (ofDigits 10 (whole ++ fraction))
      (exponent - fraction.length) with
  | some x => some (.float (some x))
  | none => if negative && edition.hasFloatsBelow then some (.float none) else none

def floatFrom? (edition : Edition) (negative : Bool) (whole fraction s : List Char) :
    Option (Value × List Char) :=
  let signed (sign : Int) (s : List Char) : Option (Value × List Char) :=
    match grouped Char.isDigit false s with
    | ([], _) => none
    | (digits, rest) =>
      (float? edition negative whole fraction (sign * ofDigits 10 digits)).map (·, rest)
  match s with
  | c :: rest =>
    if c = 'e' ∨ c = 'E' then
      match rest with
      | '+' :: rest => signed 1 rest
      | '-' :: rest => signed (-1) rest
      | rest => signed 1 rest
    else (float? edition negative whole fraction 0).map (·, s)
  | [] => (float? edition negative whole fraction 0).map (·, [])

def decimal? (edition : Edition) (negative : Bool) (s : List Char) : Option (Value × List Char) :=
  match s with
  | 'i' :: 'n' :: 'f' :: rest => some (.float none, rest)
  | 'n' :: 'a' :: 'n' :: rest => some (.float none, rest)
  | s =>
    match grouped Char.isDigit false s with
    | ([], _) => none
    | ('0' :: _ :: _, _) => none
    | (whole, '.' :: rest) =>
      match grouped Char.isDigit false rest with
      | ([], _) => none
      | (fraction, rest) => floatFrom? edition negative whole fraction rest
    | (whole, rest) =>
      if rest.head?.any fun c => c == 'e' || c == 'E' then
        floatFrom? edition negative whole [] rest
      else
        let n : Int := ofDigits 10 whole
        (integer? (if negative then -n else n)).map (·, rest)

def number? (edition : Edition) : List Char → Option (Value × List Char)
  | '0' :: 'x' :: rest =>
    based? 16 (fun c => c.isDigit || ('a' ≤ c.toLower && c.toLower ≤ 'f')) rest
  | '0' :: 'o' :: rest => based? 8 (fun c => '0' ≤ c && c ≤ '7') rest
  | '0' :: 'b' :: rest => based? 2 (fun c => c == '0' || c == '1') rest
  | '+' :: rest => decimal? edition false rest
  | '-' :: rest => decimal? edition true rest
  | s => decimal? edition false s

def fixed? (count : Nat) (s : List Char) : Option (Nat × List Char) :=
  let digits := s.take count
  if digits.length = count ∧ digits.all Char.isDigit then some (ofDigits 10 digits, s.drop count)
  else none

def pair? (least greatest : Nat) (s : List Char) : Option (Nat × List Char) := do
  let (n, rest) ← fixed? 2 s
  if least ≤ n ∧ n ≤ greatest then some (n, rest) else none

def expect? (c : Char) : List Char → Option (List Char)
  | [] => none
  | d :: rest => if d = c then some rest else none

def daysIn (year month : Nat) : Nat :=
  if month = 2 then
    if year % 4 = 0 ∧ (year % 100 ≠ 0 ∨ year % 400 = 0) then 29 else 28
  else if month = 4 ∨ month = 6 ∨ month = 9 ∨ month = 11 then 30
  else 31

def date? (s : List Char) : Option (Date × List Char) := do
  let (year, s) ← fixed? 4 s
  let s ← expect? '-' s
  let (month, s) ← pair? 1 12 s
  let s ← expect? '-' s
  let (day, s) ← pair? 1 (daysIn year month) s
  return (⟨year, month, day⟩, s)

def fraction (s : List Char) : List Nat × List Char :=
  match s with
  | '.' :: rest =>
    match rest.takeWhile Char.isDigit with
    | [] => ([], s)
    | digits => (digits.map fun c => c.toNat - 48, rest.dropWhile Char.isDigit)
  | s => ([], s)

/-- A time of day; a minute may have a leap second. -/
def time? (edition : Edition) (s : List Char) : Option (Time × List Char) := do
  let (hour, s) ← pair? 0 23 s
  let s ← expect? ':' s
  let (minute, s) ← pair? 0 59 s
  if edition.hasShortTimes && s.head? != some ':' then return (⟨hour, minute, 0, []⟩, s)
  let s ← expect? ':' s
  let (second, s) ← pair? 0 60 s
  let (digits, s) := fraction s
  return (⟨hour, minute, second, digits⟩, s)

def offset? (s : List Char) : Option (Int × List Char) :=
  let hoursAndMinutes (sign : Int) (s : List Char) : Option (Int × List Char) := do
    let (hours, s) ← pair? 0 23 s
    let s ← expect? ':' s
    let (minutes, s) ← pair? 0 59 s
    return (sign * (hours * 60 + minutes : Nat), s)
  match s with
  | 'Z' :: rest => some (0, rest)
  | 'z' :: rest => some (0, rest)
  | '+' :: rest => hoursAndMinutes 1 rest
  | '-' :: rest => hoursAndMinutes (-1) rest
  | _ => none

def isDateEnd (c : Char) : Bool :=
  c == 'T' || c == 't' || c == ' '

def momentAfter (edition : Edition) (date : Date) (s : List Char) : Moment × List Char :=
  match s with
  | [] => (⟨some date, none, none⟩, [])
  | c :: rest =>
    if isDateEnd c then
      match time? edition rest with
      | none => (⟨some date, none, none⟩, s)
      | some (time, rest) =>
        match offset? rest with
        | none => (⟨some date, some time, none⟩, rest)
        | some (offset, rest) => (⟨some date, some time, some offset⟩, rest)
    else (⟨some date, none, none⟩, s)

def moment? (edition : Edition) (s : List Char) : Option (Moment × List Char) :=
  match date? s with
  | some (date, rest) => some (momentAfter edition date rest)
  | none => (time? edition s).map fun (time, rest) => (⟨none, some time, none⟩, rest)

def scalar? (edition : Edition) (s : List Char) : Option (Value × List Char) :=
  match s with
  | 't' :: 'r' :: 'u' :: 'e' :: rest => some (.boolean true, rest)
  | 'f' :: 'a' :: 'l' :: 's' :: 'e' :: rest => some (.boolean false, rest)
  | s =>
    match moment? edition s with
    | some (m, rest) => some (.moment m, rest)
    | none => number? edition s

end MusicIndex.Toml
