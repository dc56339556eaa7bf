import MusicIndex.Json.Fault
import MusicIndex.Json.Numeral
import MusicIndex.Json.Value
import MusicIndex.Text.Hexadecimal

namespace MusicIndex.Json

/-- What a text spells, up to its first fault. Where the text breaks a reading stands in the place
of what should come next, so whoever goes through it from the left meets the faults in the order of
the text. -/
inductive Reading where
  | null
  | bool (b : Bool)
  | integer (n : Int)
  | real (x : Binary64)
  | string (s : String)
  /-- Well formed, but of no use as data. -/
  | unreadable (fault : Fault)
  | array (items : List Reading)
  | object (members : List (Reading × Reading))
  /-- The text ends where a value should begin. -/
  | absent
  /-- The text breaks here: the fault when used, and the fault when passed over. -/
  | broken (used skipped : Fault)

namespace Reading

instance : Inhabited Reading := ⟨.null⟩

def fails (fault : Fault) : Reading :=
  .broken fault fault

mutual
def ofJson : Json → Reading
  | .null => .null
  | .bool b => .bool b
  | .integer n => .integer n
  | .real x => .real x
  | .string s => .string s
  | .array items => .array (ofJsonItems items)
  | .object members => .object (ofJsonMembers members)

def ofJsonItems : List Json → List Reading
  | [] => []
  | item :: rest => ofJson item :: ofJsonItems rest

def ofJsonMembers : List (String × Json) → List (Reading × Reading)
  | [] => []
  | (name, value) :: rest => (.string name, ofJson value) :: ofJsonMembers rest
end

def isSpace (c : Char) : Bool :=
  c == ' ' || c == '\n' || c == '\t' || c == '\r'

def skipSpace (s : List Char) : List Char :=
  s.dropWhile isSpace

def ofWord (value : Reading) : List Char → List Char → Reading × List Char
  | [], s => (value, s)
  | _ :: _, [] => (fails .endOfValue, [])
  | c :: word, d :: s => if c = d then ofWord value word s else (fails .noWord, [])

def hexValue4? (a b c d : Char) : Option Nat := do
  let values ← [a, b, c, d].mapM Text.hexValue?
  return values.foldl (fun n v => n * 16 + v) 0

/-- The fault of an escape without four hexadecimal digits: the text must have four bytes more. -/
def hexFault (s : List Char) : Fault :=
  if 4 ≤ ((s.take 4).map Char.utf8Size).foldl (· + ·) 0 then .badEscape else .endOfString

def simpleEscape? : Char → Option Char
  | '\"' => some '\"'
  | '\\' => some '\\'
  | '/' => some '/'
  | 'b' => some '\x08'
  | 'f' => some '\x0c'
  | 'n' => some '\n'
  | 'r' => some '\r'
  | 't' => some '\t'
  | _ => none

/-- How far a string is read: its characters, last first; the first half of a pair of escapes that
waits for the second; the first fault that only counts when the string is used. -/
structure Progress where
  reversed : List Char
  half : Option Nat
  fault : Option Fault

namespace Progress

def start : Progress := ⟨[], none, none⟩

def unpaired (p : Progress) (fault : Fault) : Progress :=
  match p.half with
  | none => p
  | some _ => { p with half := none, fault := p.fault <|> some fault }

def push (p : Progress) (c : Char) : Progress :=
  let p := p.unpaired .unpairedEscape
  { p with reversed := c :: p.reversed }

def pushUnit (p : Progress) (n : Nat) : Progress :=
  let isSecond := 0xDC00 ≤ n && n ≤ 0xDFFF
  match p.half with
  | some high =>
    if isSecond then
      let c := Char.ofNat (0x10000 + (high - 0xD800) * 0x400 + (n - 0xDC00))
      { p with reversed := c :: p.reversed, half := none }
    else p.unpaired .loneSurrogate
  | none =>
    if p.fault.isSome then p
    else if isSecond then { p with fault := some .loneSurrogate }
    else if 0xD800 ≤ n && n ≤ 0xDBFF then { p with half := some n }
    else { p with reversed := Char.ofNat n :: p.reversed }

def close (p : Progress) : Reading :=
  match (p.unpaired .unpairedEscape).fault with
  | some fault => .unreadable fault
  | none => .string (String.ofList p.reversed.reverse)

def fail (p : Progress) (fault : Fault) : Reading :=
  .broken (p.fault.getD fault) fault

end Progress

def ofString (p : Progress) : List Char → Reading × List Char
  | [] => (p.fail .endOfString, [])
  | '\"' :: rest => (p.close, rest)
  | ['\\'] => (p.fail .endOfString, [])
  | '\\' :: 'u' :: a :: b :: c :: d :: rest =>
    match hexValue4? a b c d with
    | some n => ofString (p.pushUnit n) rest
    | none => (p.fail (hexFault (a :: b :: c :: d :: rest)), [])
  | '\\' :: 'u' :: rest => (p.fail (hexFault rest), [])
  | '\\' :: c :: rest =>
    match simpleEscape? c with
    | some c => ofString (p.push c) rest
    | none => ((p.unpaired .unpairedEscape).fail .badEscape, [])
  | c :: rest =>
    if c.toNat < 0x20 then ((p.unpaired .unpairedEscape).fail .controlCharacter, [])
    else ofString (p.push c) rest

def digits (s : List Char) : List Nat × List Char :=
  ((s.takeWhile Char.isDigit).map fun c => c.toNat - 48, s.dropWhile Char.isDigit)

def noDigit : List Char → Reading
  | [] => .broken .endOfValue .badNumber
  | _ :: _ => fails .badNumber

def ofNumeral (x : Numeral) : Reading :=
  match x.number? with
  | some (.integer n) => .integer n
  | some (.real x) => .real x
  | none => .unreadable .numberTooLarge

def ofExponent (x : Numeral) (s : List Char) : Reading × List Char :=
  let signed (minus : Bool) (s : List Char) : Reading × List Char :=
    match digits s with
    | ([], _) => (noDigit s, [])
    | (ds, rest) => (ofNumeral { x with exponent := some (minus, ds) }, rest)
  match s with
  | c :: s =>
    if c = 'e' ∨ c = 'E' then
      match s with
      | '+' :: s => signed false s
      | '-' :: s => signed true s
      | s => signed false s
    else (ofNumeral x, c :: s)
  | [] => (ofNumeral x, [])

def ofUnsigned (negative : Bool) (s : List Char) : Reading × List Char :=
  match digits s with
  | ([], _) => (noDigit s, [])
  | (0 :: _ :: _, _) => (fails .badNumber, [])
  | (whole, '.' :: s) =>
    match digits s with
    | ([], _) => (noDigit s, [])
    | (fraction, rest) => ofExponent ⟨negative, whole, fraction, none⟩ rest
  | (whole, rest) => ofExponent ⟨negative, whole, [], none⟩ rest

mutual
/-- Reads a value. The fuel bounds the steps. -/
def ofValue : Nat → List Char → Reading × List Char
  | 0, _ => (fails .tooDeep, [])
  | fuel + 1, s =>
    match skipSpace s with
    | [] => (.absent, [])
    | 'n' :: rest => ofWord .null "ull".toList rest
    | 't' :: rest => ofWord (.bool true) "rue".toList rest
    | 'f' :: rest => ofWord (.bool false) "alse".toList rest
    | '\"' :: rest => ofString .start rest
    | '[' :: rest =>
      let (items, rest) := ofItems fuel true rest
      (.array items, rest)
    | '\x7b' :: rest =>
      let (members, rest) := ofMembers fuel true rest
      (.object members, rest)
    | '-' :: rest => ofUnsigned true rest
    | c :: rest => if c.isDigit then ofUnsigned false (c :: rest) else (fails .noValue, [])

def ofItems : Nat → Bool → List Char → List Reading × List Char
  | 0, _, _ => ([fails .tooDeep], [])
  | fuel + 1, isFirst, s =>
    let item (s : List Char) : List Reading × List Char :=
      let (value, rest) := ofValue fuel s
      let (items, rest) := ofItems fuel false rest
      (value :: items, rest)
    match skipSpace s with
    | [] => ([fails .endOfList], [])
    | ']' :: rest => ([], rest)
    | c :: rest =>
      if isFirst then item (c :: rest)
      else if c = ',' then
        match skipSpace rest with
        | ']' :: _ => ([.broken .trailingComma .noValue], [])
        | rest => item rest
      else ([fails .noListEnd], [])

def ofMembers : Nat → Bool → List Char → List (Reading × Reading) × List Char
  | 0, _, _ => ([(fails .tooDeep, .null)], [])
  | fuel + 1, isFirst, s =>
    let member (s : List Char) : List (Reading × Reading) × List Char :=
      match s with
      | '\"' :: rest =>
        let (name, rest) := ofString .start rest
        match skipSpace rest with
        | ':' :: rest =>
          let (value, rest) := ofValue fuel rest
          let (members, rest) := ofMembers fuel false rest
          ((name, value) :: members, rest)
        | [] => ([(name, fails .endOfObject)], [])
        | _ => ([(name, fails .noColon)], [])
      | _ => ([(fails .keyNotString, .null)], [])
    match skipSpace s with
    | [] => ([(fails .endOfObject, .null)], [])
    | '\x7d' :: rest => ([], rest)
    | c :: rest =>
      if isFirst then member (c :: rest)
      else if c = ',' then
        match skipSpace rest with
        | [] => ([(.broken .endOfValue .endOfObject, .null)], [])
        | '\x7d' :: _ => ([(.broken .trailingComma .keyNotString, .null)], [])
        | rest => member rest
      else ([(fails .noObjectEnd, .null)], [])
end

def ofText (s : List Char) : Reading × List Char :=
  ofValue (2 * s.length + 2) s

mutual
def skipFault : Reading → Option Fault
  | .broken _ fault => some fault
  | .absent => some .endOfValue
  | .array items => skipFaultItems items
  | .object members => skipFaultMembers members
  | _ => none

def skipFaultItems : List Reading → Option Fault
  | [] => none
  | item :: rest => skipFault item <|> skipFaultItems rest

def skipFaultMembers : List (Reading × Reading) → Option Fault
  | [] => none
  | (name, value) :: rest => skipFault name <|> skipFault value <|> skipFaultMembers rest
end

def skip (r : Reading) : Except Fault Unit :=
  match r.skipFault with
  | some fault => .error fault
  | none => .ok ()

def found : Reading → Except Fault Found
  | .null => .ok .null
  | .bool b => .ok (.bool b)
  | .integer n => .ok (.integer n)
  | .real x => .ok (.real x)
  | .string s => .ok (.string s)
  | .array _ => .ok .sequence
  | .object _ => .ok .map
  | .unreadable fault => .error fault
  | .absent => .error .endOfValue
  | .broken fault _ => .error fault

def mismatch {α : Type} (expected : String) (r : Reading) : Except Fault α :=
  match r.found with
  | .ok found => .error (.wrongType found expected)
  | .error fault => .error fault

def name : Reading → Except Fault String
  | .string s => .ok s
  | .unreadable fault => .error fault
  | .broken fault _ => .error fault
  | _ => .error .keyNotString

def enter : Nat → Except Fault Nat
  | depth + 2 => .ok (depth + 1)
  | _ => .error .tooDeep

mutual
/-- The whole value, with at most the given depth of arrays and objects. -/
def value (depth : Nat) : Reading → Except Fault Json
  | .null => .ok .null
  | .bool b => .ok (.bool b)
  | .integer n => .ok (.integer n)
  | .real x => .ok (.real x)
  | .string s => .ok (.string s)
  | .array items => do
    let depth ← enter depth
    return .array (← values depth items)
  | .object members => do
    let depth ← enter depth
    return .object (← memberValues depth members)
  | .unreadable fault => .error fault
  | .absent => .error .endOfValue
  | .broken fault _ => .error fault

def values (depth : Nat) : List Reading → Except Fault (List Json)
  | [] => .ok []
  | item :: rest => do
    let item ← value depth item
    let rest ← values depth rest
    return item :: rest

def memberValues (depth : Nat) : List (Reading × Reading) → Except Fault (List (String × Json))
  | [] => .ok []
  | (key, item) :: rest => do
    let key ← name key
    let item ← value depth item
    let rest ← memberValues depth rest
    return (key, item) :: rest
end

end Reading

end MusicIndex.Json
