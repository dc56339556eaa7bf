import MusicIndex.View.Basic

namespace MusicIndex

/-- An entity in a graph; it has a label if a record of its kind is known. -/
structure GraphNode where
  kind : RecordKind
  identifier : StoredIdentifier
  label : Option String
deriving DecidableEq

def GraphNode.entity (n : GraphNode) : Entity :=
  ⟨n.kind, n.identifier.id⟩

structure GraphEdge where
  origin : Nat
  target : Nat
  kind : LinkKind
  link : Nat
  role : Option String
  source : String
deriving DecidableEq

/-- Entities and the links between them, both numbered from 0 in the order in which they were
added. -/
structure Graph where
  nodes : List GraphNode
  edges : List GraphEdge
deriving DecidableEq

namespace Graph

def empty : Graph := ⟨[], []⟩

instance : Inhabited Graph := ⟨empty⟩

def indexOf? (g : Graph) (e : Entity) : Option Nat :=
  g.nodes.findIdx? (·.entity == e)

def node? (g : Graph) (e : Entity) : Option GraphNode :=
  g.nodes.find? (·.entity == e)

def hasLink (g : Graph) (kind : LinkKind) (link : Nat) : Bool :=
  g.edges.any fun edge => edge.kind == kind && edge.link == link

/-- The nodes at the other ends of a node's edges: along its outgoing edges, then against its
incoming ones, each from the newest edge to the oldest. -/
def neighbours (g : Graph) (e : Entity) : List (GraphNode × GraphEdge) :=
  match g.indexOf? e with
  | none => []
  | some index =>
    let newest := g.edges.reverse
    let at? (edge : GraphEdge) (far : Nat) := g.nodes[far]?.map fun node => (node, edge)
    newest.filterMap (fun edge => if edge.origin = index then at? edge edge.target else none) ++
      newest.filterMap (fun edge => if edge.target = index then at? edge edge.origin else none)

end Graph

end MusicIndex
