import MusicIndex.Index.Basic

namespace MusicIndex

structure RecordRow where
  id : Nat
  record : Record
  source : Nat
deriving DecidableEq

structure FactRow (kind : RecordKind) where
  id : Nat
  fact : Fact kind
  source : Nat
deriving DecidableEq

structure StoredAssignment where
  id : Nat
  identifier : StoredIdentifier
  kind : RecordKind
  record : Nat
  source : Nat
deriving DecidableEq

structure StoredSource where
  id : Nat
  name : String
deriving DecidableEq

namespace Index

def source (x : Index) (id : Int) : Except Error StoredSource :=
  match id with
  | .ofNat n =>
    match x.sources.get? n with
    | some name => .ok ⟨n, name⟩
    | none => .error (.sourceNotFound id)
  | .negSucc _ => .error (.sourceNotFound id)

def sourceName (x : Index) (id : Nat) : Except Error String :=
  (·.name) <$> x.source id

def allSources (x : Index) : List StoredSource :=
  x.sources.rows.map fun row => ⟨row.id, row.content⟩

def identifier? (x : Index) (id : Nat) : Option StoredIdentifier :=
  (x.identifiers.get? id).map (StoredIdentifier.mk id)

def find? (x : Index) (i : Identifier) : Option StoredIdentifier :=
  (x.identifiers.find? (· == i)).map fun row => ⟨row.id, row.content⟩

def standsFor (x : Index) (kind : RecordKind) (id : Nat) : Bool :=
  x.assignments.contents.any fun a => a.identifier == id && a.kind == kind

def lookup (x : Index) (kind : RecordKind) (i : Identifier) : Except Error StoredIdentifier :=
  match x.find? i with
  | some stored =>
    if x.standsFor kind stored.id then .ok stored else .error (.identifierNotFound kind i)
  | none => .error (.identifierNotFound kind i)

def recordIds (x : Index) (kind : RecordKind) (id : Nat) : List Nat :=
  x.assignments.contents.filterMap fun a =>
    if a.identifier = id ∧ a.kind = kind then some a.record else none

/-- The claims about an identifier as an entity of a kind, each once, in order of number. -/
def recordClaims (x : Index) (kind : RecordKind) (id : Nat) : List (Row RecordClaim) :=
  let ids := x.recordIds kind id
  (x.records kind).rows.filter (·.id ∈ ids)

theorem mem_recordIds {x : Index} {kind : RecordKind} {id record : Nat} :
    record ∈ x.recordIds kind id ↔
      ∃ a ∈ x.assignments.contents, a.identifier = id ∧ a.kind = kind ∧ a.record = record := by
  simp [recordIds, and_assoc]

def facts (x : Index) (kind : RecordKind) (id : Nat) : Except Error (List (FactRow kind)) :=
  (x.recordClaims kind id).mapM fun row =>
    match Fact.ofValues? kind row.content.values with
    | some fact => .ok ⟨row.id, fact, row.content.source⟩
    | none => .error (.invalid (.shortRow kind row.id))

def recordsOf (x : Index) (kind : RecordKind) (id : Nat) : Except Error (List RecordRow) :=
  (x.recordClaims kind id).mapM fun row =>
    match Record.ofValues? kind row.content.values with
    | some record => .ok ⟨row.id, record, row.content.source⟩
    | none => .error (.invalid (.shortRow kind row.id))

def identifiersOf (x : Index) (kind : RecordKind) (record : Nat) : List StoredAssignment :=
  x.assignments.rows.filterMap fun row =>
    let a := row.content
    if a.kind = kind ∧ a.record = record then
      (x.identifier? a.identifier).map fun i => ⟨row.id, i, kind, record, a.source⟩
    else none

def nearEnd (claim : LinkClaim) : Direction → Nat
  | .forward => claim.a
  | .reverse => claim.b

def storedLink? (x : Index) (kind : LinkKind) (row : Row LinkClaim) : Option StoredLink := do
  let a ← x.identifier? row.content.a
  let b ← x.identifier? row.content.b
  let shares := if kind.attributes = .roleAndShares then some row.content.shares else none
  let role := if kind.attributes = .none then none else reportedRole row.content.role
  return ⟨row.id, kind, a, b, role, shares, row.content.source⟩

/-- The links of a kind that a walk in a direction from an identifier takes, in order of number. -/
def linksOf (x : Index) (kind : LinkKind) (direction : Direction) (id : Nat) : List StoredLink :=
  (x.links kind).rows.filterMap fun row =>
    if nearEnd row.content direction = id then x.storedLink? kind row else none

structure Stats where
  sources : Nat
  identifiers : Nat
  assignments : Nat
  records : List (RecordKind × Nat)
  links : List (LinkKind × Nat)
deriving DecidableEq

def stats (x : Index) : Stats where
  sources := x.sources.size
  identifiers := x.identifiers.size
  assignments := x.assignments.size
  records := RecordKind.all.map fun kind => (kind, (x.records kind).size)
  links := LinkKind.all.map fun kind => (kind, (x.links kind).size)

def Stats.totalRecords (s : Stats) : Nat :=
  (s.records.map (·.2)).foldl (· + ·) 0

def Stats.totalLinks (s : Stats) : Nat :=
  (s.links.map (·.2)).foldl (· + ·) 0

end Index

inductive NamedRead where
  | facts (kind : RecordKind)
  | links (kind : LinkKind) (direction : Direction)
deriving DecidableEq

namespace NamedRead

def name : NamedRead → String
  | .facts kind => kind.plural
  | .links kind direction => kind.listName direction

def all : List NamedRead :=
  RecordKind.all.map .facts ++
    LinkKind.all.flatMap fun kind => [.links kind .forward, .links kind .reverse]

def ofName? (name : String) : Option NamedRead :=
  all.find? (·.name == name)

end NamedRead

end MusicIndex
