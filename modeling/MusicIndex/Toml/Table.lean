import MusicIndex.Toml.Value

namespace MusicIndex.Toml

/-- How a table came about: as a passage to another, by a dotted key, or by a header or in braces.
Dotted keys extend only what dotted keys made, and a header takes over only passages. -/
inductive Origin where
  | passage
  | dotted
  | header
deriving DecidableEq

structure Table (N : Type) where
  origin : Origin
  entries : List (String × N)

/-- What stands under a key: a value, a table, or a list of tables, the newest of which is open. -/
inductive Node where
  | value (v : Value)
  | table (t : Table Node)
  | tables (earlier : List (Table Node)) (newest : Table Node)

namespace Table

def root : Table Node := ⟨.header, []⟩

instance : Inhabited (Table Node) := ⟨root⟩

def set (t : Table Node) (key : String) (node : Node) : Table Node :=
  { t with entries := setEntry key node t.entries }

/-- Changes the table at the end of a path. Tables missing on the way are made, with the given
origin; a dotted path does not lead through the table of a header. -/
def alter (made : Origin) (change : Table Node → Option (Table Node)) :
    List String → Table Node → Option (Table Node)
  | [], t => change t
  | key :: path, t =>
    match t.entries.lookup key with
    | none => (alter made change path ⟨made, []⟩).map fun child => t.set key (.table child)
    | some (.value _) => none
    | some (.table child) =>
      if made = .dotted ∧ child.origin = .header then none
      else (alter made change path child).map fun child => t.set key (.table child)
    | some (.tables earlier newest) =>
      (alter made change path newest).map fun newest => t.set key (.tables earlier newest)

def putHere (key : String) (v : Value) (isDotted : Bool) (t : Table Node) : Option (Table Node) :=
  if (t.origin == .dotted) != isDotted then none
  else
    match t.entries.lookup key with
    | some _ => none
    | none => some (t.set key (.value v))

def put (t : Table Node) (path : List String) (key : String) (v : Value) : Option (Table Node) :=
  t.alter .dotted (putHere key v !path.isEmpty) path

def openTable (t : Table Node) (path : List String) (key : String) : Option (Table Node) :=
  t.alter .passage (fun t =>
    match t.entries.lookup key with
    | none => some (t.set key (.table ⟨.header, []⟩))
    | some (.table child) =>
      if child.origin = .passage then some (t.set key (.table { child with origin := .header }))
      else none
    | _ => none) path

def openItem (t : Table Node) (path : List String) (key : String) : Option (Table Node) :=
  t.alter .passage (fun t =>
    match t.entries.lookup key with
    | none => some (t.set key (.tables [] ⟨.header, []⟩))
    | some (.tables earlier newest) =>
      some (t.set key (.tables (earlier ++ [newest]) ⟨.header, []⟩))
    | _ => none) path

mutual
def toValue : Table Node → Value
  | ⟨_, entries⟩ => .table (entryValues entries)

def entryValues : List (String × Node) → List (String × Value)
  | [] => []
  | (key, node) :: rest => (key, nodeValue node) :: entryValues rest

def nodeValue : Node → Value
  | .value v => v
  | .table t => toValue t
  | .tables earlier newest => .array (tableValues earlier ++ [toValue newest])

def tableValues : List (Table Node) → List Value
  | [] => []
  | t :: rest => toValue t :: tableValues rest
end

end Table

end MusicIndex.Toml
