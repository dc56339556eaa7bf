import MusicIndex.Index.Read

namespace MusicIndex

structure InventoryRecord where
  row : RecordRow
  assignments : List StoredAssignment

namespace Index

def distinctRows (known : List (RecordKind × Nat)) : List RecordRow → List RecordRow
  | [] => []
  | row :: rest =>
    let key := (row.record.kind, row.id)
    if key ∈ known then distinctRows known rest else row :: distinctRows (key :: known) rest

/-- Every record that an identifier stands for, once, under the first of its identifiers; those of
one identifier by kind. -/
def allRecords (x : Index) : Except Error (List InventoryRecord) := do
  let found ← x.identifiers.rows.mapM fun i => RecordKind.all.mapM fun kind => x.recordsOf kind i.id
  return (distinctRows [] (found.flatten.flatten)).map fun row =>
    ⟨row, x.identifiersOf row.record.kind row.id⟩

/-- Every link, under the identifier of its first end; those of one identifier by kind. -/
def allLinks (x : Index) : List StoredLink :=
  x.identifiers.rows.flatMap fun i =>
    LinkKind.all.flatMap fun kind => x.linksOf kind .forward i.id

end Index

end MusicIndex
