import MusicIndex.Graph.Basic
import MusicIndex.View.Resolve

namespace MusicIndex.Graph

/-- A graph under construction, and the nodes whose links the next round follows. -/
structure Walk where
  graph : Graph
  next : List GraphNode

/-- The node of an entity with its number and whether it is new, and the graph with it. -/
def addNode (r : Resolver) (g : Graph) (kind : RecordKind) (i : StoredIdentifier) :
    Except Error (Nat × Option GraphNode × Graph) := do
  match g.indexOf? ⟨kind, i.id⟩ with
  | some index => return (index, none, g)
  | none =>
    let fields ← r.fields kind i.id
    let node : GraphNode := ⟨kind, i, if fields.isEmpty then none else some (label fields)⟩
    return (g.nodes.length, some node, { g with nodes := g.nodes ++ [node] })

def follow (r : Resolver) (w : Walk) (step : StoredLink × Direction) : Except Error Walk := do
  let (link, direction) := step
  if w.graph.hasLink link.kind link.id then return w
  let (origin, newOrigin, g) ← addNode r w.graph link.kind.ends.1 link.a
  let (target, newTarget, g) ← addNode r g link.kind.ends.2 link.b
  let source ← r.index.sourceName link.source
  let edge : GraphEdge := ⟨origin, target, link.kind, link.id, link.role, source⟩
  let far :=
    match direction with
    | .forward => newTarget
    | .reverse => newOrigin
  return ⟨{ g with edges := g.edges ++ [edge] }, w.next ++ far.toList⟩

/-- Follows all links of a node. An entity without records leads nowhere. -/
def visit (r : Resolver) (w : Walk) (node : GraphNode) : Except Error Walk :=
  match node.label with
  | none => .ok w
  | some _ => (r.links node.kind node.identifier.id).foldlM (follow r) w

def walk (r : Resolver) : Nat → List GraphNode → Graph → Except Error Graph
  | 0, _, g => .ok g
  | _ + 1, [], g => .ok g
  | hops + 1, node :: rest, g => do
    let w ← (node :: rest).foldlM (visit r) ⟨g, []⟩
    walk r hops w.next w.graph

/-- The graph of all that is at most `depth` hops away from an entity. -/
def build (r : Resolver) (kind : RecordKind) (i : Identifier) (depth : Nat) :
    Except Error Graph := do
  let seed ← r.index.lookup kind i
  let (_, node, g) ← addNode r empty kind seed
  walk r depth node.toList g

end MusicIndex.Graph
