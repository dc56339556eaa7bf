import MusicIndex.Feed.Files
import MusicIndex.Proofs.Validity

namespace MusicIndex

structure RecordFact where
  record : Record
  identifier : Identifier
  source : String
deriving DecidableEq

structure LinkFact where
  link : Link Binary64
  source : String
deriving DecidableEq

inductive Call where
  | createRecord (record : Record) (identifier : Identifier) (source : String)
  | createLink (link : Link Double) (source : String)
  | createTypedLink {kind : LinkKind} (link : TypedLink kind Double) (source : String)
  | resolveSource (name : String)
  | resolveIdentifier (identifier : Identifier)

inductive Answer where
  | identifier (stored : StoredIdentifier)
  | link (stored : StoredLink)
  | source (id : Nat)
deriving DecidableEq

namespace Call

def perform : Call → Write Answer
  | .createRecord r i source => Answer.identifier <$> Index.createRecord r i source
  | .createLink l source => Answer.link <$> Index.createLink l source
  | .createTypedLink l source => Answer.link <$> Index.createTypedLink l source
  | .resolveSource name => Answer.source <$> Index.ensureSource name
  | .resolveIdentifier i => Answer.identifier <$> Index.ensureIdentifier i

def record? : Call → Option RecordFact
  | .createRecord r i source => some ⟨r, i, source⟩
  | _ => none

/-- The link that a call asserts; shares that are no numbers are not asserted, but refused. -/
def link? : Call → Option LinkFact
  | .createLink l source => some ⟨l.finite, source⟩
  | .createTypedLink l source => some ⟨l.toLink.finite, source⟩
  | _ => none

def source? : Call → Option String
  | .createRecord _ _ source | .createLink _ source | .createTypedLink _ source => some source
  | .resolveSource name => some name
  | .resolveIdentifier _ => none

def identifiers : Call → List Identifier
  | .createRecord _ i _ | .resolveIdentifier i => [i]
  | .createLink l _ => [l.a, l.b]
  | .createTypedLink l _ => [l.a, l.b]
  | .resolveSource _ => []

/-- A name among the arguments is blank, or the link is improper. -/
def Improper : Call → Prop
  | .createRecord _ i source => i.Improper ∨ Text.Blank source
  | .createLink l source => l.Improper ∨ Text.Blank source
  | .createTypedLink l source => l.toLink.Improper ∨ Text.Blank source
  | .resolveSource name => Text.Blank name
  | .resolveIdentifier i => i.Improper

end Call

namespace Index

/-- The index after calls, of which the failed ones change nothing. -/
def after (x : Index) : List Call → Index
  | [] => x
  | call :: rest => (call.perform.attempt x).2.after rest

/-- The calls that succeed, in order. -/
def accepted (x : Index) : List Call → List Call
  | [] => []
  | call :: rest =>
    match call.perform.attempt x with
    | (.ok _, y) => call :: y.accepted rest
    | (.error _, y) => y.accepted rest

/-- What becomes of the empty index by calls and by feeds. -/
inductive Reachable : Index → Prop where
  | empty : Reachable empty
  | call {x : Index} (call : Call) : Reachable x → Reachable (call.perform.attempt x).2
  | feed [Json.Places] {x : Index} (mode : IngestMode) (bytes : List UInt8) :
    Reachable x → Reachable (ingest mode bytes x).2
  | path [Json.Places] {x : Index} (files : Workspace) (options : IngestOptions) (path : String) :
    Reachable x → Reachable (ingestPath files options path x).2

structure IsOpen (x : Index) : Prop where
  writable : x.isReadOnly = false
  willing : x.refused = []

end Index

end MusicIndex
