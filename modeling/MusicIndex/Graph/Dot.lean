import MusicIndex.Graph.Basic

namespace MusicIndex.Graph

def escapeChar (c : Char) : List Char :=
  match c with
  | '\\' => ['\\', '\\']
  | '\"' => ['\\', '\"']
  | '\r' => []
  | '\n' => ['\\', 'n']
  | c => [c]

def escape (s : String) : String :=
  String.ofList (s.toList.flatMap escapeChar)

/-- A label of several lines, of which the first needs no escapes. -/
def labelText (parts : List String) : String :=
  "[label=\"" ++ "\\n".intercalate parts ++ "\""

def style (index : Nat) (n : GraphNode) : String :=
  if index = 0 then ", style=bold"
  else if n.label.isNone then ", style=dashed"
  else ""

def nodeLine (index : Nat) (n : GraphNode) : String :=
  s!"  n{index} " ++
    labelText [n.kind.name, escape (n.label.getD "?"), escape n.identifier.identifier.text] ++
    style index n ++ "];"

def roleText : Option String → String
  | none => ""
  | some role => " (" ++ escape role ++ ")"

def edgeLine (e : GraphEdge) : String :=
  s!"  n{e.origin} -> n{e.target} " ++
    labelText [e.kind.name ++ roleText e.role, escape e.source] ++ "];"

def heading : List String :=
  ["digraph polyphon \x7b", "  rankdir=LR;", "  node [shape=box, fontname=\"Helvetica\"];",
    "  edge [fontname=\"Helvetica\"];", ""]

def dotLines (g : Graph) : List String :=
  heading ++ g.nodes.zipIdx.map (fun (n, index) => nodeLine index n) ++ [""] ++
    g.edges.map edgeLine ++ ["\x7d"]

def dot (g : Graph) : String :=
  String.join (g.dotLines.map (· ++ "\n"))

end MusicIndex.Graph
