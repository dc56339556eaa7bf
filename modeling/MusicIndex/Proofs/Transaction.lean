import MusicIndex.Proofs.Writing

namespace MusicIndex

inductive Failure where
  | refused (error : Error)
  | conflict
  | constraint
  | noRow
  | engine
deriving DecidableEq

/-- What is committed, what the transaction sees, and how many statements there were. -/
structure Session where
  committed : Index
  working : Index
  statements : Nat

/-- A table of the index as a place that statements read and write. -/
structure Place (α : Type) where
  get : Index → Table α
  set : Index → Table α → Index
  get_set : ∀ x t, get (set x t) = t
  set_get : ∀ x, set x (get x) = x

namespace Place

def sources : Place String :=
  ⟨(·.sources), fun x t => { x with sources := t }, fun _ _ => rfl, fun _ => rfl⟩

def identifiers : Place Identifier :=
  ⟨(·.identifiers), fun x t => { x with identifiers := t }, fun _ _ => rfl, fun _ => rfl⟩

def assignments : Place Assignment :=
  ⟨(·.assignments), fun x t => { x with assignments := t }, fun _ _ => rfl, fun _ => rfl⟩

def records (kind : RecordKind) : Place RecordClaim :=
  ⟨(·.records kind), (·.setRecords kind), fun x => Index.records_setRecords_self x kind,
    fun x => Index.setRecords_self x kind⟩

def links (kind : LinkKind) : Place LinkClaim :=
  ⟨(·.links kind), (·.setLinks kind), fun x => Index.links_setLinks_self x kind,
    fun x => Index.setLinks_self x kind⟩

end Place

/-- A part of a transaction, where the engine fails the statement with a given number or none. -/
abbrev Transaction (α : Type) := ReaderT (Option Nat) (ExceptT Failure (StateM Session)) α

namespace Transaction

variable {α β : Type}

def on (t : Transaction α) (fault : Option Nat) (s : Session) : Except Failure α × Session :=
  ((t.run fault).run.run s).run

section Statements

def statement (act : Session → Except Failure (α × Session)) : Transaction α := fun fault s =>
  let count := s.statements + 1
  if fault = some s.statements then (.error .engine, { s with statements := count })
  else
    match act s with
    | .ok (a, t) => (.ok a, { t with statements := count })
    | .error e => (.error e, { s with statements := count })

def query (act : Index → Except Failure (α × Index)) : Transaction α :=
  statement fun s => (act s.working).map fun (a, x) => (a, { s with working := x })

def begin : Transaction Unit :=
  statement fun s => .ok ((), { s with working := s.committed })

def commit : Transaction Unit :=
  statement fun s => .ok ((), { s with committed := s.working })

/-- Puts in a row with the next number. -/
def insert (place : Place α) (same : α → Bool) (references : Index → Bool) (row : α) :
    Transaction Nat :=
  query fun x =>
    match (place.get x).find? same with
    | some _ => .error .conflict
    | none =>
      if references x then
        .ok ((place.get x).largestId + 1, place.set x ((place.get x).insert row))
      else .error .constraint

/-- Puts in a row, unless it is there already or fails a check. -/
def insertOrIgnore (place : Place α) (same : α → Bool) (check : Bool) (references : Index → Bool)
    (row : α) : Transaction Unit :=
  query fun x =>
    match (place.get x).find? same, check with
    | none, true =>
      if references x then .ok ((), place.set x ((place.get x).insert row)) else .error .constraint
    | _, _ => .ok ((), x)

def select (place : Place α) (test : α → Bool) : Transaction Nat :=
  query fun x =>
    match (place.get x).find? test with
    | some row => .ok (row.id, x)
    | none => .error .noRow

def update (place : Place α) (id : Nat) (f : α → α) : Transaction Unit :=
  query fun x => .ok ((), place.set x ((place.get x).modify id f))

end Statements

section Calls

def demand (check : Except Invalid Unit) : Transaction Unit :=
  match check with
  | .ok () => pure ()
  | .error cause => throw (.refused (.invalid cause))

/-- Goes on after a conflict, and after nothing else. -/
def onConflict (t other : Transaction α) : Transaction α :=
  tryCatch t fun
    | .conflict => other
    | e => throw e

def whole (body : Transaction α) : Transaction α := do
  begin
  let a ← body
  commit
  return a

def knownSource (source : Nat) (x : Index) : Bool :=
  (x.sources.get? source).isSome

def knownIdentifier (identifier : Nat) (x : Index) : Bool :=
  (x.identifiers.get? identifier).isSome

def resolveSource (name : String) : Transaction Nat := do
  demand (checkSource name)
  onConflict (insert .sources (· == name) (fun _ => true) name) (select .sources (· == name))

def resolveIdentifier (i : Identifier) : Transaction StoredIdentifier := do
  demand i.check
  insertOrIgnore .identifiers (· == i) (i.scheme != "" && i.value != "") (fun _ => true) i
  let id ← select .identifiers (· == i)
  return ⟨id, i⟩

def storeRecord (r : Record) (source : Nat) : Transaction Nat :=
  let claim : RecordClaim := ⟨r.values, source⟩
  onConflict (insert (.records r.kind) (· == claim) (knownSource source) claim)
    (select (.records r.kind) (· == claim))

/-- The record of an assignment is no reference. -/
def storeAssignment (a : Assignment) : Transaction Unit :=
  insertOrIgnore .assignments (· == a) true
    (fun x => knownIdentifier a.identifier x && knownSource a.source x) a

def sameKey (kind : LinkKind) (c d : LinkClaim) : Bool :=
  c.a == d.a && c.b == d.b && (kind.attributes == .none || c.role == d.role) && c.source == d.source

def storeLink (kind : LinkKind) (claim : LinkClaim) : Transaction Nat :=
  onConflict
    (insert (.links kind) (sameKey kind claim)
      (fun x =>
        knownIdentifier claim.a x && knownIdentifier claim.b x && knownSource claim.source x)
      claim)
    (do
      let id ← select (.links kind) (sameKey kind claim)
      if kind.attributes = .roleAndShares then
        update (.links kind) id fun c => { c with shares := claim.shares }
      return id)

def createRecord (r : Record) (i : Identifier) (name : String) : Transaction StoredIdentifier := do
  demand i.check
  whole do
    let source ← resolveSource name
    let record ← storeRecord r source
    let i ← resolveIdentifier i
    storeAssignment ⟨i.id, r.kind, record, source⟩
    return i

def createLink (l : Link Double) (name : String) : Transaction StoredLink := do
  demand l.check
  let l := l.finite
  whole do
    let source ← resolveSource name
    let a ← resolveIdentifier l.a
    let b ← resolveIdentifier l.b
    let shares := Index.keptShares l
    let id ← storeLink l.kind ⟨a.id, b.id, l.keyRole, (shares.getD .unknown).kept, source⟩
    return ⟨id, l.kind, a, b, reportedRole l.keyRole, shares, source⟩

end Calls

end Transaction

namespace Call

def transaction : Call → Transaction Answer
  | .createRecord r i name => return .identifier (← Transaction.createRecord r i name)
  | .createLink l name => return .link (← Transaction.createLink l name)
  | .createTypedLink l name => return .link (← Transaction.createLink l.toLink name)
  | .resolveSource name => return .source (← Transaction.whole (Transaction.resolveSource name))
  | .resolveIdentifier i =>
    return .identifier (← Transaction.whole (Transaction.resolveIdentifier i))

/-- What a call answers where the engine fails one statement or none, and what is committed then. -/
def carryOut (c : Call) (fault : Option Nat) (x : Index) : Except Failure Answer × Index :=
  let (result, s) := c.transaction.on fault ⟨x, x, 0⟩
  (result, s.committed)

def statements (c : Call) (x : Index) : Nat :=
  (c.transaction.on none ⟨x, x, 0⟩).2.statements

end Call

end MusicIndex
