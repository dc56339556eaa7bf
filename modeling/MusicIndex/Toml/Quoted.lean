import MusicIndex.Text.Hexadecimal
import MusicIndex.Toml.Edition

namespace MusicIndex.Toml

def isPlain (c : Char) : Bool :=
  c == '\t' || (0x20 ≤ c.toNat && c.toNat != 0x7F)

def isSpace (c : Char) : Bool :=
  c == ' ' || c == '\t'

def numbered? (digits : List Char) : Option Char := do
  let values ← digits.mapM Text.hexValue?
  let n := values.foldl (fun n d => n * 16 + d) 0
  if n.isValidChar then some (Char.ofNat n) else none

def escaped? (edition : Edition) : Char → Option Char
  | 'b' => some '\x08'
  | 't' => some '\t'
  | 'n' => some '\n'
  | 'f' => some '\x0c'
  | 'r' => some '\r'
  | '\"' => some '\"'
  | '\\' => some '\\'
  | 'e' => if edition.hasShortEscapes then some '\x1b' else none
  | _ => none

def shortEscape? (edition : Edition) (a b : Char) : Option Char :=
  if edition.hasShortEscapes then numbered? [a, b] else none

def within (c : Char) : Option (List Char × List Char) → Option (List Char × List Char)
  | some (cs, rest) => some (c :: cs, rest)
  | none => none

def basicString (edition : Edition) : List Char → Option (List Char × List Char)
  | [] => none
  | '\"' :: rest => some ([], rest)
  | '\\' :: 'u' :: a :: b :: c :: d :: rest => do
    within (← numbered? [a, b, c, d]) (basicString edition rest)
  | '\\' :: 'U' :: a :: b :: c :: d :: e :: f :: g :: h :: rest => do
    within (← numbered? [a, b, c, d, e, f, g, h]) (basicString edition rest)
  | '\\' :: 'x' :: a :: b :: rest => do
    within (← shortEscape? edition a b) (basicString edition rest)
  | '\\' :: c :: rest => do within (← escaped? edition c) (basicString edition rest)
  | c :: rest => if isPlain c then within c (basicString edition rest) else none

def literalString : List Char → Option (List Char × List Char)
  | [] => none
  | '\x27' :: rest => some ([], rest)
  | c :: rest => if isPlain c then within c (literalString rest) else none

def endsLine (s : List Char) : Bool :=
  match s.dropWhile isSpace with
  | '\n' :: _ => true
  | '\r' :: '\n' :: _ => true
  | _ => false

/-- A basic string of several lines. A backslash at the end of a line drops the line break and all
blanks and line breaks after it, which is when `skipping` is true. -/
def basicLines (edition : Edition) (skipping : Bool) : List Char → Option (List Char × List Char)
  | [] => none
  | '\"' :: '\"' :: '\"' :: '\"' :: '\"' :: rest => some (['\"', '\"'], rest)
  | '\"' :: '\"' :: '\"' :: '\"' :: rest => some (['\"'], rest)
  | '\"' :: '\"' :: '\"' :: rest => some ([], rest)
  | '\\' :: 'u' :: a :: b :: c :: d :: rest => do
    within (← numbered? [a, b, c, d]) (basicLines edition false rest)
  | '\\' :: 'U' :: a :: b :: c :: d :: e :: f :: g :: h :: rest => do
    within (← numbered? [a, b, c, d, e, f, g, h]) (basicLines edition false rest)
  | '\\' :: 'x' :: a :: b :: rest => do
    within (← shortEscape? edition a b) (basicLines edition false rest)
  | '\\' :: c :: rest =>
    if endsLine (c :: rest) then basicLines edition true rest
    else do within (← escaped? edition c) (basicLines edition false rest)
  | '\r' :: '\n' :: rest =>
    if skipping then basicLines edition true rest else within '\n' (basicLines edition false rest)
  | c :: rest =>
    if skipping && (isSpace c || c == '\n') then basicLines edition true rest
    else if isPlain c || c == '\n' then within c (basicLines edition false rest)
    else none

def literalLines : List Char → Option (List Char × List Char)
  | [] => none
  | '\x27' :: '\x27' :: '\x27' :: '\x27' :: '\x27' :: rest => some (['\x27', '\x27'], rest)
  | '\x27' :: '\x27' :: '\x27' :: '\x27' :: rest => some (['\x27'], rest)
  | '\x27' :: '\x27' :: '\x27' :: rest => some ([], rest)
  | '\r' :: '\n' :: rest => within '\n' (literalLines rest)
  | c :: rest => if isPlain c || c == '\n' then within c (literalLines rest) else none

def dropBreak : List Char → List Char
  | '\n' :: rest => rest
  | '\r' :: '\n' :: rest => rest
  | s => s

def quotedValue? (edition : Edition) : List Char → Option (List Char × List Char)
  | '\"' :: '\"' :: '\"' :: rest => basicLines edition false (dropBreak rest)
  | '\"' :: rest => basicString edition rest
  | '\x27' :: '\x27' :: '\x27' :: rest => literalLines (dropBreak rest)
  | '\x27' :: rest => literalString rest
  | _ => none

end MusicIndex.Toml
