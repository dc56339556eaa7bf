import MusicIndex.Decimal.Binary64

namespace MusicIndex.Toml

def setEntry {α : Type} (key : String) (a : α) : List (String × α) → List (String × α)
  | [] => [(key, a)]
  | (other, b) :: rest =>
    if other = key then (key, a) :: rest else (other, b) :: setEntry key a rest

structure Date where
  year : Nat
  month : Nat
  day : Nat
deriving DecidableEq

structure Time where
  hour : Nat
  minute : Nat
  second : Nat
  fraction : List Nat
deriving DecidableEq

structure Moment where
  date : Option Date
  time : Option Time
  offset : Option Int
deriving DecidableEq

/-- A value of a document. A float that is not finite is `none`. -/
inductive Value where
  | string (s : String)
  | integer (n : Int)
  | float (x : Option Binary64)
  | boolean (b : Bool)
  | moment (m : Moment)
  | array (items : List Value)
  | table (entries : List (String × Value))

namespace Value

instance : Inhabited Value := ⟨.table []⟩

def get? (key : String) : Value → Option Value
  | .table entries => entries.lookup key
  | _ => none

def isTable : Value → Bool
  | .table _ => true
  | _ => false

mutual
def nesting : Value → Nat
  | .array items => nestingOfItems items + 1
  | .table entries => nestingOfEntries entries + 1
  | _ => 0

def nestingOfItems : List Value → Nat
  | [] => 0
  | item :: rest => max (nesting item) (nestingOfItems rest)

def nestingOfEntries : List (String × Value) → Nat
  | [] => 0
  | (_, v) :: rest => max (nesting v) (nestingOfEntries rest)
end

mutual
/-- True of a value below so many keys that a document can hold within a limit. A table, and an
array of nothing but tables, stands under a header with all keys that lead to it; any other array is
written after its key. Neither headers nor nested arrays go beyond the limit. -/
def isWritable (limit keys : Nat) : Value → Bool
  | .table entries => keys ≤ limit && areEntriesWritable limit keys entries
  | .array items =>
    if !items.isEmpty && items.all isTable then areItemsWritable limit keys items
    else nesting (.array items) ≤ limit
  | _ => true

def areItemsWritable (limit keys : Nat) : List Value → Bool
  | [] => true
  | item :: rest => isWritable limit keys item && areItemsWritable limit keys rest

def areEntriesWritable (limit keys : Nat) : List (String × Value) → Bool
  | [] => true
  | (_, v) :: rest => isWritable limit (keys + 1) v && areEntriesWritable limit keys rest
end

end Value

end MusicIndex.Toml
