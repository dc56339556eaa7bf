import MusicIndex.Decimal.Layout
import MusicIndex.Json.Value

namespace MusicIndex.Json

def hexDigit (n : Nat) : Char :=
  if n < 10 then Char.ofNat (48 + n) else Char.ofNat (87 + n)

def escapeChar (c : Char) : List Char :=
  match c with
  | '\"' => ['\\', '\"']
  | '\\' => ['\\', '\\']
  | '\n' => ['\\', 'n']
  | '\r' => ['\\', 'r']
  | '\t' => ['\\', 't']
  | '\x08' => ['\\', 'b']
  | '\x0c' => ['\\', 'f']
  | c =>
    if c.toNat < 0x20 then
      ['\\', 'u', '0', '0', hexDigit (c.toNat / 16), hexDigit (c.toNat % 16)]
    else [c]

def stringText (s : String) : List Char :=
  '\"' :: s.toList.flatMap escapeChar ++ ['\"']

mutual
def compact : Json → List Char
  | .null => "null".toList
  | .bool b => (if b then "true" else "false").toList
  | .integer n => (toString n).toList
  | .real x => (Decimal.Layout.json.text x).toList
  | .string s => stringText s
  | .array items => '[' :: compactItems items
  | .object members => '\x7b' :: compactMembers members

def compactItems : List Json → List Char
  | [] => [']']
  | [item] => compact item ++ [']']
  | item :: rest => compact item ++ ',' :: compactItems rest

def compactMembers : List (String × Json) → List Char
  | [] => ['\x7d']
  | [(name, value)] => stringText name ++ ':' :: compact value ++ ['\x7d']
  | (name, value) :: rest => stringText name ++ ':' :: compact value ++ ',' :: compactMembers rest
end

def lineStart (level : Nat) : List Char :=
  '\n' :: List.replicate (2 * level) ' '

mutual
/-- The text of a value whose lines after the first stand at a level of indentation or deeper. -/
def indented (level : Nat) : Json → List Char
  | .null => "null".toList
  | .bool b => (if b then "true" else "false").toList
  | .integer n => (toString n).toList
  | .real x => (Decimal.Layout.json.text x).toList
  | .string s => stringText s
  | .array [] => "[]".toList
  | .array (item :: rest) => '[' :: indentedItems (level + 1) (item :: rest)
  | .object [] => ['\x7b', '\x7d']
  | .object (member :: rest) => '\x7b' :: indentedMembers (level + 1) (member :: rest)

def indentedItems (level : Nat) : List Json → List Char
  | [] => lineStart (level - 1) ++ [']']
  | item :: rest =>
    lineStart level ++ indented level item ++ (if rest.isEmpty then [] else [',']) ++
      indentedItems level rest

def indentedMembers (level : Nat) : List (String × Json) → List Char
  | [] => lineStart (level - 1) ++ ['\x7d']
  | (name, value) :: rest =>
    lineStart level ++ stringText name ++ ':' :: ' ' :: indented level value ++
      (if rest.isEmpty then [] else [',']) ++ indentedMembers level rest
end

def text (v : Json) : String :=
  String.ofList (compact v)

def prettyText (v : Json) : String :=
  String.ofList (indented 0 v)

end MusicIndex.Json
