namespace MusicIndex

structure Row (α : Type) where
  id : Nat
  content : α
deriving DecidableEq

/-- Rows in the order in which they came. A new row gets the number after the largest one. -/
structure Table (α : Type) where
  rows : List (Row α)
deriving DecidableEq

namespace Table

variable {α : Type}

def empty : Table α := ⟨[]⟩

instance : Inhabited (Table α) := ⟨empty⟩

def size (t : Table α) : Nat :=
  t.rows.length

def contents (t : Table α) : List α :=
  t.rows.map (·.content)

def largestId (t : Table α) : Nat :=
  t.rows.foldl (fun n row => max n row.id) 0

def insert (t : Table α) (content : α) : Table α :=
  ⟨t.rows ++ [⟨t.largestId + 1, content⟩]⟩

def find? (t : Table α) (test : α → Bool) : Option (Row α) :=
  t.rows.find? fun row => test row.content

def get? (t : Table α) (id : Nat) : Option α :=
  (t.rows.find? (·.id == id)).map (·.content)

def modify (t : Table α) (id : Nat) (f : α → α) : Table α :=
  ⟨t.rows.map fun row => if row.id = id then { row with content := f row.content } else row⟩

/-- The number of the row whose content passes a test, after inserting one if there is none. -/
def ensure (t : Table α) (test : α → Bool) (content : α) : Nat × Table α :=
  match t.find? test with
  | some row => (row.id, t)
  | none => (t.largestId + 1, t.insert content)

end Table

end MusicIndex
