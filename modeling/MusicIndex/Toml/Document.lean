import MusicIndex.Toml.Quoted
import MusicIndex.Toml.Scalar
import MusicIndex.Toml.Table

namespace MusicIndex.Toml

def skipSpaces (s : List Char) : List Char :=
  s.dropWhile isSpace

def skipComment (s : List Char) : List Char :=
  match s with
  | '#' :: rest => rest.dropWhile isPlain
  | s => s

def lineEnd? (s : List Char) : Option (List Char) :=
  match s with
  | [] => some []
  | '\n' :: rest => some rest
  | '\r' :: '\n' :: rest => some rest
  | _ => none

def finishLine? (s : List Char) : Option (List Char) :=
  lineEnd? (skipComment (skipSpaces s))

def skipLines : Nat → List Char → List Char
  | 0, s => s
  | fuel + 1, s =>
    let s := skipSpaces s
    match skipComment s with
    | '\n' :: rest => skipLines fuel rest
    | '\r' :: '\n' :: rest => skipLines fuel rest
    | _ => s

def isBare (c : Char) : Bool :=
  c.isAlphanum || c == '_' || c == '-'

def keyPart? (edition : Edition) (s : List Char) : Option (String × List Char) :=
  let named (part : Option (List Char × List Char)) : Option (String × List Char) :=
    part.map fun (cs, rest) => (String.ofList cs, rest)
  match s with
  | '\"' :: rest => named (basicString edition rest)
  | '\x27' :: rest => named (literalString rest)
  | s =>
    match s.takeWhile isBare with
    | [] => none
    | cs => some (String.ofList cs, s.dropWhile isBare)

/-- A key of at most so many parts: those before the last one, and the last one. -/
def keyWithin? (edition : Edition) : Nat → List Char → Option (List String × String × List Char)
  | 0, _ => none
  | fuel + 1, s => do
    let (part, rest) ← keyPart? edition (skipSpaces s)
    match skipSpaces rest with
    | '.' :: rest =>
      let (path, last, rest) ← keyWithin? edition fuel rest
      return (part :: path, last, rest)
    | rest => return ([], part, rest)

def key? (edition : Edition) (s : List Char) : Option (List String × String × List Char) :=
  keyWithin? edition edition.maxDepth s

def skipGap (edition : Edition) (s : List Char) : List Char :=
  if edition.hasLongTables then skipLines s.length s else skipSpaces s

def string? (edition : Edition) (s : List Char) : Option (Value × List Char) :=
  (quotedValue? edition s).map fun (cs, rest) => (.string (String.ofList cs), rest)

mutual
/-- A value. The fuel bounds the steps, the depth the arrays and inline tables. -/
def value? (edition : Edition) : Nat → Nat → List Char → Option (Value × List Char)
  | 0, _, _ => none
  | fuel + 1, depth, s =>
    match s, depth with
    | '[' :: _, 0 => none
    | '\x7b' :: _, 0 => none
    | '[' :: rest, depth + 1 => do
      let (items, rest) ← items? edition fuel depth rest
      return (.array items, rest)
    | '\x7b' :: rest, depth + 1 =>
      match skipGap edition rest with
      | '\x7d' :: rest => some (.table [], rest)
      | rest => do
        let (table, rest) ← pairs? edition fuel depth ⟨.header, []⟩ rest
        return (table.toValue, rest)
    | '\"' :: _, _ => string? edition s
    | '\x27' :: _, _ => string? edition s
    | s, _ => scalar? edition s

def items? (edition : Edition) : Nat → Nat → List Char → Option (List Value × List Char)
  | 0, _, _ => none
  | fuel + 1, depth, s =>
    match skipLines s.length s with
    | ']' :: rest => some ([], rest)
    | s => do
      let (item, rest) ← value? edition fuel depth s
      match skipLines rest.length rest with
      | ',' :: rest =>
        let (items, rest) ← items? edition fuel depth rest
        return (item :: items, rest)
      | ']' :: rest => return ([item], rest)
      | _ => none

def pairs? (edition : Edition) : Nat → Nat → Table Node → List Char →
    Option (Table Node × List Char)
  | 0, _, _, _ => none
  | fuel + 1, depth, table, s => do
    let (path, key, rest) ← key? edition s
    let rest ← expect? '=' (skipGap edition rest)
    let (value, rest) ← value? edition fuel depth (skipGap edition rest)
    let table ← table.put path key value
    match skipGap edition rest with
    | ',' :: rest =>
      match edition.hasLongTables, skipGap edition rest with
      | true, '\x7d' :: rest => return (table, rest)
      | _, rest => pairs? edition fuel depth table rest
    | '\x7d' :: rest => return (table, rest)
    | _ => none
end

structure Draft where
  table : Table Node
  path : List String

inductive Line where
  | header (path : List String) (key : String)
  | item (path : List String) (key : String)
  | pair (path : List String) (key : String) (value : Value)

def header? (edition : Edition) (s : List Char) : Option (Line × List Char) :=
  match s with
  | '[' :: rest => do
    let (path, key, rest) ← key? edition rest
    let rest ← expect? ']' rest
    let rest ← expect? ']' rest
    return (.item path key, rest)
  | s => do
    let (path, key, rest) ← key? edition s
    let rest ← expect? ']' rest
    return (.header path key, rest)

def line? (edition : Edition) (s : List Char) : Option (Line × List Char) :=
  match s with
  | '[' :: rest => header? edition rest
  | s => do
    let (path, key, rest) ← key? edition s
    let rest ← expect? '=' rest
    let (value, rest) ← value? edition (2 * s.length + 2) edition.maxDepth (skipSpaces rest)
    return (.pair path key value, rest)

def Draft.apply (d : Draft) : Line → Option Draft
  | .header path key => (d.table.openTable path key).map (⟨·, path ++ [key]⟩)
  | .item path key => (d.table.openItem path key).map (⟨·, path ++ [key]⟩)
  | .pair path key value =>
    (d.table.alter .passage (·.put path key value) d.path).map (⟨·, d.path⟩)

def lines? (edition : Edition) : Nat → Draft → List Char → Option (Table Node)
  | 0, _, _ => none
  | fuel + 1, d, s =>
    match skipLines s.length s with
    | [] => some d.table
    | '#' :: rest => if (rest.dropWhile isPlain).isEmpty then some d.table else none
    | s => do
      let (line, rest) ← line? edition s
      let d ← d.apply line
      let rest ← finishLine? rest
      lines? edition fuel d rest

/-- The table that a document spells, as a value. A byte order mark may come first. -/
def read? (edition : Edition) (text : String) : Option Value :=
  let s := text.toList
  let s := if s.head? = some '\ufeff' then s.tail else s
  (lines? edition (s.length + 1) ⟨.root, []⟩ s).map (·.toValue)

end MusicIndex.Toml
