import MusicIndex.View.Basic

namespace MusicIndex

structure Resolver where
  index : Index
  policy : SourcePolicy

namespace Resolver

/-- The claims of records about one column, the one at a position in the natural key. -/
def claimsAt (position : Nat) (rows : List (RecordRow × String)) : List Claim :=
  rows.filterMap fun (row, source) =>
    row.record.values[position]?.map fun value => ⟨value, source, row.id⟩

def mergeRows (r : Resolver) (kind : RecordKind) (rows : List (RecordRow × String)) :
    List FieldValue :=
  kind.columns.zipIdx.filterMap fun (column, position) =>
    (MergedValue.merge r.policy (claimsAt position rows)).map (FieldValue.mk column)

def withSources (r : Resolver) (rows : List RecordRow) : Except Error (List (RecordRow × String)) :=
  rows.mapM fun row => do return (row, ← r.index.sourceName row.source)

def fields (r : Resolver) (kind : RecordKind) (id : Nat) : Except Error (List FieldValue) := do
  let rows ← r.index.recordsOf kind id
  return r.mergeRows kind (← r.withSources rows)

def links (r : Resolver) (kind : RecordKind) (id : Nat) : List (StoredLink × Direction) :=
  (LinkKind.touching kind).flatMap fun (linkKind, direction) =>
    (r.index.linksOf linkKind direction id).map fun link => (link, direction)

def addAlias (i : StoredIdentifier) (source : String) : List Alias → List Alias
  | [] => [⟨i, [source]⟩]
  | entry :: rest =>
    if entry.identifier.id = i.id then
      if source ∈ entry.sources then entry :: rest
      else { entry with sources := entry.sources ++ [source] } :: rest
    else entry :: addAlias i source rest

/-- Every identifier that stands for one of some records, with the sources that say so. -/
def aliases (r : Resolver) (kind : RecordKind) (rows : List RecordRow) :
    Except Error (List Alias) :=
  (rows.flatMap fun row => r.index.identifiersOf kind row.id).foldlM (fun known a => do
    return addAlias a.identifier (← r.index.sourceName a.source) known) []

/-- The view of an entity, if a record of the kind is known. `expand` views a neighbour, given the
entities from the root to this one. -/
def viewWith (r : Resolver)
    (expand : List Entity → RecordKind → StoredIdentifier → Except Error (Option EntityView))
    (path : List Entity) (kind : RecordKind) (i : StoredIdentifier) :
    Except Error (Option EntityView) := do
  let rows ← r.index.recordsOf kind i.id
  let fields := r.mergeRows kind (← r.withSources rows)
  if fields.isEmpty then return none
  let path := ⟨kind, i.id⟩ :: path
  let aliases ← r.aliases kind rows
  let neighbours ← (r.links kind i.id).mapM fun (link, direction) => do
    let farKind := link.kind.farKind direction
    let view ← expand path farKind (link.far direction)
    return { kind := farKind, direction, link, source := ← r.index.sourceName link.source, view }
  return some (.mk kind i fields aliases neighbours)

def view (r : Resolver) : Nat → List Entity → RecordKind → StoredIdentifier →
    Except Error (Option EntityView)
  | 0 => r.viewWith fun _ _ _ => return none
  | depth + 1 => r.viewWith fun path kind i =>
    if ⟨kind, i.id⟩ ∈ path then return none else r.view depth path kind i

def resolve (r : Resolver) (kind : RecordKind) (i : Identifier) (depth : Nat) :
    Except Error EntityView := do
  let seed ← r.index.lookup kind i
  match ← r.view depth [] kind seed with
  | some v => return v
  | none => throw (.identifierNotFound kind i)

end Resolver

end MusicIndex
