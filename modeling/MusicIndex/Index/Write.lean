import MusicIndex.Entity.Validity
import MusicIndex.Index.Basic

namespace MusicIndex

/-- A write: from an index, an answer and the new index, or an error. -/
abbrev Write (α : Type) := StateT Index (Except Error) α

namespace Write

/-- What a caller sees of a write: the answer or the error, and the index afterwards. -/
def attempt {α : Type} (w : Write α) (x : Index) : Except Error α × Index :=
  match w.run x with
  | .ok (a, x) => (.ok a, x)
  | .error e => (.error e, x)

def demand (check : Except Invalid Unit) : Write Unit :=
  match check with
  | .ok () => pure ()
  | .error cause => throw (.invalid cause)

def requireWritable : Write Unit := do
  if (← get).isReadOnly then throw (.database .readOnly)

/-- Fails where a table refuses new rows; rows that are there already count as new. -/
def permit (table : TableName) : Write Unit := do
  if table ∈ (← get).refused then throw (.database .insertRefused)

end Write

namespace Index

open Write (demand permit requireWritable)

def ensureSource (name : String) : Write Nat := do
  requireWritable
  demand (checkSource name)
  permit .source
  let x ← get
  let (id, table) := x.sources.ensure (· == name) name
  set { x with sources := table }
  return id

def ensureIdentifier (i : Identifier) : Write StoredIdentifier := do
  requireWritable
  demand i.check
  permit .identifier
  let x ← get
  let (id, table) := x.identifiers.ensure (· == i) i
  set { x with identifiers := table }
  return ⟨id, i⟩

def ensureRecord (r : Record) (source : Nat) : Write Nat := do
  permit (.record r.kind)
  let x ← get
  let claim : RecordClaim := ⟨r.values, source⟩
  let (id, table) := (x.records r.kind).ensure (· == claim) claim
  set (x.setRecords r.kind table)
  return id

def ensureAssignment (a : Assignment) : Write Unit := do
  permit .assignment
  let x ← get
  set { x with assignments := (x.assignments.ensure (· == a) a).2 }

def sameLink (c d : LinkClaim) : Bool :=
  c.a == d.a && c.b == d.b && c.role == d.role && c.source == d.source

/-- The number of a source's link, which is new if need be. The link found takes over the shares,
if its kind carries any. -/
def ensureLink (kind : LinkKind) (claim : LinkClaim) : Write Nat := do
  permit (.link kind)
  let x ← get
  let table := x.links kind
  match table.find? (sameLink claim) with
  | none =>
    set (x.setLinks kind (table.insert claim))
    return table.largestId + 1
  | some row =>
    if kind.attributes = .roleAndShares then
      set (x.setLinks kind (table.modify row.id fun c => { c with shares := claim.shares }))
    return row.id

def createRecord (r : Record) (i : Identifier) (source : String) : Write StoredIdentifier := do
  demand i.check
  let source ← ensureSource source
  let record ← ensureRecord r source
  let i ← ensureIdentifier i
  ensureAssignment ⟨i.id, r.kind, record, source⟩
  return i

def keptShares (l : Link Binary64) : Option (Shares Binary64) :=
  match l.kind.attributes with
  | .roleAndShares => some (l.shares.getD .unknown)
  | _ => none

/-- Keeps a source's link; its ends become known if they are not. The answer repeats the shares as
they were given. -/
def createLink (l : Link Double) (source : String) : Write StoredLink := do
  demand l.check
  let l := l.finite
  let source ← ensureSource source
  let a ← ensureIdentifier l.a
  let b ← ensureIdentifier l.b
  let shares := keptShares l
  let id ← ensureLink l.kind ⟨a.id, b.id, l.keyRole, (shares.getD .unknown).kept, source⟩
  return ⟨id, l.kind, a, b, reportedRole l.keyRole, shares, source⟩

def createTypedLink {kind : LinkKind} {α : Type} [ToDouble α] (l : TypedLink kind α)
    (source : String) : Write StoredLink :=
  createLink l.toLink.given source

theorem createTypedLink_eq {kind : LinkKind} (l : TypedLink kind Double) (source : String) :
    createTypedLink l source = createLink l.toLink source := by
  rw [createTypedLink, Link.given_double]

def refuse (table : TableName) : Write Unit := do
  requireWritable
  let x ← get
  if table ∈ x.refused then throw (.database (.alreadyRefused table.name))
  set { x with refused := table :: x.refused }

def allow (table : TableName) : Write Unit := do
  requireWritable
  let x ← get
  if table ∈ x.refused then set { x with refused := x.refused.filter (· ≠ table) }
  else throw (.database (.notRefused table.name))

end Index

end MusicIndex
