import MusicIndex.Error
import MusicIndex.Merge.Policy
import MusicIndex.Toml.Document

namespace MusicIndex.SourcePolicy

def priorities? : List (String × Toml.Value) → Option (List (String × Nat))
  | [] => some []
  | (name, .integer n) :: rest =>
    if 0 ≤ n ∧ n < Nat.pow 2 32 then (priorities? rest).map ((name, n.toNat) :: ·) else none
  | _ :: _ => none

/-- The policy among the keys of a document; none is the policy without priorities. -/
def ofDocument? (document : Toml.Value) : Option SourcePolicy :=
  match document.get? "source_priority" with
  | none => some empty
  | some (.table entries) => (priorities? entries).map ofEntries
  | some _ => none

def ofFile (path : String) (bytes : List UInt8) : Except Error SourcePolicy :=
  match Text.Utf8.decode bytes with
  | .error _ => .error (.file .notUtf8)
  | .ok cs =>
    match (Toml.read? .v1_0 (String.ofList cs)).bind ofDocument? with
    | some policy => .ok policy
    | none => .error (.invalid (.policyNotReadable path))

end MusicIndex.SourcePolicy
