import MusicIndex.Text.Quoted
import MusicIndex.View.Basic

namespace MusicIndex

def shareText (share : Option Binary64) : String :=
  match share with
  | none => "-"
  | some value => value.text ++ "%"

def roleText (role : Option String) : String :=
  match role with
  | none => ""
  | some role => s!" [{role}]"

namespace FieldValue

def lines (pad : String) (f : FieldValue) : List String :=
  s!"{pad}  {f.column} = {f.merged.value}" ::
    match f.merged.sources with
    | [] => []
    | [c] => [s!"{pad}      from {c.source}"]
    | sources => sources.map fun c =>
      s!"{pad}      {Text.quoted c.value} from {c.source} (priority {c.score})"

end FieldValue

namespace Alias

/-- The identifiers of an entity other than the one that was looked up. -/
def lines (pad : String) (looked : StoredIdentifier) (aliases : List Alias) : List String :=
  match aliases.filter (·.identifier.id != looked.id) with
  | [] => []
  | others =>
    (pad ++ "  identifiers:") :: others.map fun a =>
      let sources := ", ".intercalate a.sources
      s!"{pad}    {a.identifier.identifier.text} ({sources})"

end Alias

namespace Neighbour

def lines {V : Type} (pad : String) (n : Neighbour V) : List String :=
  let arrow :=
    match n.direction with
    | .forward => "->"
    | .reverse => "<-"
  let heading :=
    s!"{pad}  {arrow} {n.link.kind.name}{roleText n.link.role} " ++
      s!"{n.identifier.identifier.text} (from {n.source})"
  heading ::
    match n.link.shares with
    | none => []
    | some s =>
      [s!"{pad}       shares: performance {shareText s.performance}, " ++
        s!"mechanical {shareText s.mechanical}, sync {shareText s.synchronization}"]

end Neighbour

namespace EntityView

mutual
def lines (level : Nat) : EntityView → List String
  | .mk kind identifier fields aliases neighbours =>
    let pad := String.ofList (List.replicate (2 * level) ' ')
    s!"{pad}{kind.name} {identifier.identifier.text}: {MusicIndex.label fields}" ::
      fields.flatMap (FieldValue.lines pad) ++ Alias.lines pad identifier aliases ++
      neighbourLines pad level neighbours

def neighbourLines (pad : String) (level : Nat) : List (Neighbour EntityView) → List String
  | [] => []
  | ⟨kind, direction, link, source, view⟩ :: rest =>
    Neighbour.lines pad (V := Unit) ⟨kind, direction, link, source, none⟩ ++
      nestedLines (level + 2) view ++ neighbourLines pad level rest

def nestedLines (level : Nat) : Option EntityView → List String
  | none => []
  | some view => lines level view
end

def text (v : EntityView) : String :=
  "\n".intercalate (v.lines 0)

end EntityView

end MusicIndex
