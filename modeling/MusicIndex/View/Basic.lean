import MusicIndex.Index.Read
import MusicIndex.Merge.Field

namespace MusicIndex

structure Entity where
  kind : RecordKind
  id : Nat
deriving DecidableEq

/-- An identifier of an entity, and the sources that let it stand for the entity. -/
structure Alias (ι : Type := Nat) where
  identifier : StoredIdentifier ι
  sources : List String
deriving DecidableEq

/-- An entity reached through one link; `V` is the type of views. -/
structure Neighbour (V : Type) (ι : Type := Nat) where
  kind : RecordKind
  direction : Direction
  link : StoredLink ι
  source : String
  view : Option V

def Neighbour.identifier {V ι : Type} (n : Neighbour V ι) : StoredIdentifier ι :=
  n.link.far n.direction

/-- Everything about one entity. -/
inductive EntityView (ι : Type := Nat) where
  | mk (kind : RecordKind) (identifier : StoredIdentifier ι) (fields : List FieldValue)
    (aliases : List (Alias ι)) (neighbours : List (Neighbour (EntityView ι) ι))

namespace EntityView

variable {ι : Type}

def kind : EntityView ι → RecordKind
  | mk kind _ _ _ _ => kind

def identifier : EntityView ι → StoredIdentifier ι
  | mk _ identifier _ _ _ => identifier

def fields : EntityView ι → List FieldValue
  | mk _ _ fields _ _ => fields

def aliases : EntityView ι → List (Alias ι)
  | mk _ _ _ aliases _ => aliases

def neighbours : EntityView ι → List (Neighbour (EntityView ι) ι)
  | mk _ _ _ _ neighbours => neighbours

def field? (v : EntityView ι) (column : String) : Option MergedValue :=
  (v.fields.find? (·.column == column)).map (·.merged)

def label (v : EntityView ι) : String :=
  MusicIndex.label v.fields

def neighboursOver (v : EntityView ι) (kind : LinkKind) : List (Neighbour (EntityView ι) ι) :=
  v.neighbours.filter (·.link.kind == kind)

end EntityView

end MusicIndex
