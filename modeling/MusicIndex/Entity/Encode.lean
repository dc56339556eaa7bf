import MusicIndex.Entity.Link
import MusicIndex.Entity.Record
import MusicIndex.Json.Value

namespace MusicIndex

def Record.toJson (r : Record) : Json :=
  .object (("kind", .string r.kind.name) ::
    r.members.map fun (column, value) => (column, .string value))

def Identifier.toMembers (i : Identifier) : List (String × Json) :=
  [("type", .string i.scheme), ("value", .string i.value)]

def Identifier.toJson (i : Identifier) : Json :=
  .object i.toMembers

def Identifier.numberedJson (i : Identifier) (id : Int) : Json :=
  .object (("id", .integer id) :: i.toMembers)

def StoredIdentifier.toJson {ι : Type} [RowNumber ι] (i : StoredIdentifier ι) : Json :=
  i.identifier.numberedJson (RowNumber.toInt i.id)

/-- Each share, unknown ones too. -/
def Shares.toJson (s : Shares Binary64) : Json :=
  .object (s.named.map fun (name, share) => (name, .ofOption .real share))

def Link.toJson (l : Link Binary64) : Json :=
  .object [("kind", .string l.kind.name), ("a", l.a.toJson), ("b", l.b.toJson),
    ("role", .ofOption .string l.role), ("shares", .ofOption Shares.toJson l.shares)]

def StoredLink.toJson {ι : Type} [RowNumber ι] (l : StoredLink ι) : Json :=
  .object [("id", .integer (RowNumber.toInt l.id)), ("kind", .string l.kind.name),
    ("a", l.a.toJson), ("b", l.b.toJson), ("role", .ofOption .string l.role),
    ("shares", .ofOption Shares.toJson l.shares),
    ("source", .integer (RowNumber.toInt l.source))]

end MusicIndex
