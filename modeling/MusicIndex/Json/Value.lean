import MusicIndex.Decimal.Binary64

namespace MusicIndex

/-- Members of an object keep their order, and a name may occur more than once. Whole numbers are
told apart from others, as a text tells them apart by their form. -/
inductive Json where
  | null
  | bool (b : Bool)
  | integer (n : Int)
  | real (x : Binary64)
  | string (s : String)
  | array (items : List Json)
  | object (members : List (String × Json))

namespace Json

instance : Inhabited Json := ⟨.null⟩

def ofOption {α : Type} (f : α → Json) : Option α → Json
  | none => .null
  | some a => f a

def ofList {α : Type} (f : α → Json) (items : List α) : Json :=
  .array (items.map f)

def get? (name : String) : Json → Option Json
  | .object members => members.lookup name
  | _ => none

end Json

end MusicIndex
