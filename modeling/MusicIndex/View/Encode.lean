import MusicIndex.Entity.Encode
import MusicIndex.View.Basic

namespace MusicIndex

variable {ι : Type} [RowNumber ι]

def Alias.toJson (a : Alias ι) : Json :=
  .object [("identifier", a.identifier.toJson), ("sources", .ofList .string a.sources)]

mutual
def EntityView.toJson : EntityView ι → Json
  | .mk kind identifier fields aliases neighbours =>
    .object [("kind", .string kind.name), ("identifier", identifier.toJson),
      ("fields", .ofList FieldValue.toJson fields), ("identifiers", .ofList Alias.toJson aliases),
      ("neighbours", .array (neighbourItems neighbours))]

def EntityView.neighbourItems : List (Neighbour (EntityView ι) ι) → List Json
  | [] => []
  | ⟨kind, direction, link, source, view⟩ :: rest =>
    .object (("kind", .string kind.name) :: ("direction", .string direction.name) ::
      ("link", link.toJson) :: ("source", .string source) :: EntityView.viewMember view) ::
      EntityView.neighbourItems rest

def EntityView.viewMember : Option (EntityView ι) → List (String × Json)
  | none => []
  | some view => [("view", view.toJson)]
end

end MusicIndex
