import MusicIndex.Entity.Link
import MusicIndex.Entity.Record
import MusicIndex.Error
import MusicIndex.Index.Table

namespace MusicIndex

structure RecordClaim where
  values : List String
  source : Nat
deriving DecidableEq

structure LinkClaim where
  a : Nat
  b : Nat
  role : String
  shares : Shares Binary64
  source : Nat
deriving DecidableEq

/-- An identifier that stands for a record, according to a source. -/
structure Assignment where
  identifier : Nat
  kind : RecordKind
  record : Nat
  source : Nat
deriving DecidableEq

inductive TableName where
  | source
  | identifier
  | assignment
  | record (kind : RecordKind)
  | link (kind : LinkKind)
deriving DecidableEq

namespace TableName

def name : TableName → String
  | .source => "source"
  | .identifier => "identifier"
  | .assignment => "identifier_assignment"
  | .record kind => kind.name
  | .link kind => kind.name

def all : List TableName :=
  [.source, .identifier, .assignment] ++ RecordKind.all.map .record ++ LinkKind.all.map .link

def ofName? (name : String) : Option TableName :=
  all.find? (·.name == name)

end TableName

/-- The claims of all sources. The tables that refuse new rows are listed; an index that is open for
reading only refuses every write. -/
structure Index where
  sources : Table String
  identifiers : Table Identifier
  assignments : Table Assignment
  records : RecordKind → Table RecordClaim
  links : LinkKind → Table LinkClaim
  refused : List TableName
  isReadOnly : Bool

namespace Index

def empty : Index := ⟨.empty, .empty, .empty, fun _ => .empty, fun _ => .empty, [], false⟩

instance : Inhabited Index := ⟨empty⟩

def schemaVersion : Nat := 3

def setRecords (x : Index) (kind : RecordKind) (table : Table RecordClaim) : Index :=
  { x with records := fun k => if k = kind then table else x.records k }

def setLinks (x : Index) (kind : LinkKind) (table : Table LinkClaim) : Index :=
  { x with links := fun k => if k = kind then table else x.links k }

@[simp]
theorem records_setRecords_self (x : Index) (kind : RecordKind) (table : Table RecordClaim) :
    (x.setRecords kind table).records kind = table := by
  simp [setRecords]

theorem records_setRecords_of_ne {x : Index} {kind k : RecordKind} {table : Table RecordClaim}
    (h : k ≠ kind) : (x.setRecords kind table).records k = x.records k := by
  simp [setRecords, h]

@[simp]
theorem links_setLinks_self (x : Index) (kind : LinkKind) (table : Table LinkClaim) :
    (x.setLinks kind table).links kind = table := by
  simp [setLinks]

theorem links_setLinks_of_ne {x : Index} {kind k : LinkKind} {table : Table LinkClaim}
    (h : k ≠ kind) : (x.setLinks kind table).links k = x.links k := by
  simp [setLinks, h]

end Index

end MusicIndex
