import MusicIndex.Graph.Dot
import MusicIndex.Proofs.Neighbourhood

namespace MusicIndex.Graph

/-- The lines of a text, and what follows the last line break. -/
def linesOf (text : String) : List String :=
  (text.toList.splitOn '\n').map String.ofList

def unescape? : Char → Option Char
  | '\\' => some '\\'
  | '\"' => some '\"'
  | 'n' => some '\n'
  | _ => none

/-- Reads a label from behind its opening quote, and leaves what follows the closing one: the first
quote that is not escaped. -/
def readLabel : List Char → Option (List Char × List Char)
  | [] => none
  | '\"' :: rest => some ([], rest)
  | '\\' :: c :: rest =>
    (unescape? c).bind fun d => (readLabel rest).map fun read => (d :: read.1, read.2)
  | c :: rest => (readLabel rest).map fun read => (c :: read.1, read.2)

/-- A line that declares a node or an edge, with a label in quotes and what attributes follow it. -/
def Declares (line subject label attributes : String) : Prop :=
  ∃ body : List Char, line.toList = ("  " ++ subject ++ " [label=\"").toList ++ body ∧
    readLabel body = some (label.toList, (attributes ++ "];").toList)

def nodeName (index : Nat) : String :=
  "n" ++ toString index

def withoutReturns (s : String) : String :=
  String.ofList (s.toList.filter (· ≠ '\r'))

def replaceChar (old : Char) (new s : List Char) : List Char :=
  s.flatMap fun c => if c = old then new else [c]

end Graph

/-- What the label of a node says. -/
def GraphNode.caption (n : GraphNode) : String :=
  n.kind.name ++ "\n" ++ n.label.getD "?" ++ "\n" ++
    (n.identifier.identifier.scheme ++ ":" ++ n.identifier.identifier.value)

def GraphEdge.caption (e : GraphEdge) : String :=
  e.kind.name ++ e.role.elim "" (fun role => " (" ++ role ++ ")") ++ "\n" ++ e.source

namespace Graph

/-- Lines that declare the nodes of a graph in order of number, and lines that declare its edges. -/
structure WrittenIn (g : Graph) (nodeLines edgeLines : List String) : Prop where
  nodes : List.Forall₂ (fun (n, index) line =>
    Declares line (nodeName index) (withoutReturns n.caption) (style index n))
    g.nodes.zipIdx nodeLines
  edges : List.Forall₂ (fun e line =>
    Declares line (nodeName e.origin ++ " -> " ++ nodeName e.target) (withoutReturns e.caption) "")
    g.edges edgeLines

section Escaping

theorem escape_append (s t : String) : escape (s ++ t) = escape s ++ escape t := by
  rw [escape, String.toList_append, List.flatMap_append, String.ofList_append, escape, escape]

theorem escape_recordKind (kind : RecordKind) : escape kind.name = kind.name := by
  cases kind <;> decide +kernel

theorem escape_linkKind (kind : LinkKind) : escape kind.name = kind.name := by
  have hbar : escape "_" = "_" := by decide +kernel
  rw [LinkKind.name, escape_append, escape_append, escape_recordKind, escape_recordKind, hbar]

theorem newline_not_mem_escape (s : String) : '\n' ∉ (escape s).toList := by
  rw [escape, String.toList_ofList, List.mem_flatMap]
  rintro ⟨c, -, hc⟩
  unfold escapeChar at hc
  split at hc
  case h_5 hbreak => exact hbreak (List.mem_singleton.mp hc).symm
  all_goals simp at hc

/-- To escape is to replace backslashes, then quotes, carriage returns and line breaks. Backslashes
come first, or those of the other replacements would be escaped too. -/
theorem escape_eq_replaceChar (s : String) :
    (escape s).toList = replaceChar '\n' ['\\', 'n'] (replaceChar '\r' []
      (replaceChar '\"' ['\\', '\"'] (replaceChar '\\' ['\\', '\\'] s.toList))) := by
  rw [escape, String.toList_ofList]
  simp only [replaceChar, List.flatMap_assoc]
  apply List.flatMap_congr
  intro c _
  unfold escapeChar
  split <;> simp_all

theorem readLabel_escapeChar (c : Char) (rest : List Char) :
    readLabel (escapeChar c ++ rest) =
      (readLabel rest).map fun read => ([c].filter (· ≠ '\r') ++ read.1, read.2) := by
  unfold escapeChar
  split
  case h_3 => exact Option.map_id'.symm
  case h_5 hslash hquote hreturn _ =>
    have hkept : [c].filter (· ≠ '\r') = [c] := by simpa using hreturn
    rw [hkept, List.singleton_append, readLabel]
    · rfl
    · exact hquote
    · exact fun _ _ hc _ => hslash hc
  all_goals rfl

theorem readLabel_escape (s after : List Char) :
    readLabel (s.flatMap escapeChar ++ '\"' :: after) =
      some (s.filter (· ≠ '\r'), after) := by
  induction s with
  | nil => rfl
  | cons c s ih =>
    rw [List.flatMap_cons, List.append_assoc, readLabel_escapeChar, ih, Option.map_some,
      ← List.filter_append, List.singleton_append]

end Escaping

section Captions

theorem escape_nodeCaption (n : GraphNode) : escape n.caption =
    "\\n".intercalate [n.kind.name, escape (n.label.getD "?"),
      escape n.identifier.identifier.text] := by
  have hbreak : escape "\n" = "\\n" := by decide +kernel
  rw [GraphNode.caption, ← Identifier.text]
  simp only [escape_append, escape_recordKind, hbreak]
  rfl

theorem escape_edgeCaption (e : GraphEdge) : escape e.caption =
    "\\n".intercalate [e.kind.name ++ roleText e.role, escape e.source] := by
  have hbreak : escape "\n" = "\\n" := by decide +kernel
  have hrole : escape (e.role.elim "" fun role => " (" ++ role ++ ")") = roleText e.role := by
    cases e.role with
    | none => rfl
    | some role =>
      have hopen : escape " (" = " (" := by decide +kernel
      have hclose : escape ")" = ")" := by decide +kernel
      rw [Option.elim_some, escape_append, escape_append, hopen, hclose]
      rfl
  rw [GraphEdge.caption, escape_append, escape_append, escape_append, escape_linkKind, hrole,
    hbreak]
  rfl

end Captions

section Lines

variable {subject caption attributes : String} {parts : List String}

theorem nodeLine_eq (index : Nat) (n : GraphNode) :
    nodeLine index n = "  " ++ nodeName index ++ " " ++
      labelText [n.kind.name, escape (n.label.getD "?"), escape n.identifier.identifier.text] ++
      style index n ++ "];" :=
  rfl

theorem edgeLine_eq (e : GraphEdge) :
    edgeLine e = "  " ++ (nodeName e.origin ++ " -> " ++ nodeName e.target) ++ " " ++
      labelText [e.kind.name ++ roleText e.role, escape e.source] ++ "" ++ "];" := by
  have hends : s!"  n{e.origin} -> n{e.target} " =
      "  " ++ (nodeName e.origin ++ " -> " ++ nodeName e.target) ++ " " := by
    have harrow : toString " -> n" = " -> " ++ "n" := rfl
    simp only [harrow, nodeName, ← String.append_assoc]
    rfl
  rw [edgeLine, hends, String.append_empty]

theorem declares_of_labelText (hcaption : escape caption = "\\n".intercalate parts) :
    Declares ("  " ++ subject ++ " " ++ labelText parts ++ attributes ++ "];") subject
      (withoutReturns caption) attributes := by
  refine ⟨(escape caption).toList ++ '\"' :: (attributes ++ "];").toList, ?_, ?_⟩
  · rw [labelText, ← hcaption]
    simp only [String.toList_append, List.append_assoc]
    rfl
  · rw [escape, String.toList_ofList, readLabel_escape, withoutReturns, String.toList_ofList]

theorem newline_not_mem_labelText (hcaption : escape caption = "\\n".intercalate parts)
    (hsubject : '\n' ∉ subject.toList) (hattributes : '\n' ∉ attributes.toList) :
    '\n' ∉ ("  " ++ subject ++ " " ++ labelText parts ++ attributes ++ "];").toList := by
  have hlabel := newline_not_mem_escape caption
  rw [labelText, ← hcaption]
  simp only [String.toList_append, List.mem_append, hsubject, hattributes, hlabel]
  decide

theorem newline_not_mem_toDigits {base : Nat} (hbase : 1 < base) (hle : base ≤ 16) (n : Nat) :
    '\n' ∉ Nat.toDigits base n := by
  have hdigit : ∀ d < 16, '\n' ≠ Nat.digitChar d := by decide
  induction n using Nat.strong_induction_on with
  | _ n ih =>
    rw [Nat.toDigits_eq_if hbase]
    split
    case isTrue hlt => exact fun h => hdigit n (by omega) (List.mem_singleton.mp h)
    case isFalse hge =>
      have hlast : n % base < 16 := (Nat.mod_lt n (by omega)).trans_le hle
      rw [List.mem_append, not_or]
      refine ⟨ih _ (Nat.div_lt_self (by omega) hbase), fun h => ?_⟩
      exact hdigit _ hlast (List.mem_singleton.mp h)

theorem newline_not_mem_nodeName (index : Nat) : '\n' ∉ (nodeName index).toList := by
  have hdigits : '\n' ∉ (toString index).toList := by
    rw [Nat.toString_eq_ofList_toDigits, String.toList_ofList]
    exact newline_not_mem_toDigits (by omega) (by omega) index
  rw [nodeName, String.toList_append, List.mem_append, not_or]
  exact ⟨by decide, hdigits⟩

theorem newline_not_mem_style (index : Nat) (n : GraphNode) : '\n' ∉ (style index n).toList := by
  unfold style
  split
  · decide
  · split <;> decide

theorem newline_not_mem_nodeLine (index : Nat) (n : GraphNode) :
    '\n' ∉ (nodeLine index n).toList := by
  rw [nodeLine_eq]
  exact newline_not_mem_labelText (escape_nodeCaption n) (newline_not_mem_nodeName index)
    (newline_not_mem_style index n)

theorem newline_not_mem_edgeLine (e : GraphEdge) : '\n' ∉ (edgeLine e).toList := by
  rw [edgeLine_eq]
  apply newline_not_mem_labelText (escape_edgeCaption e)
  · rw [String.toList_append, String.toList_append, List.mem_append, List.mem_append]
    simp only [newline_not_mem_nodeName]
    decide
  · decide

theorem linesOf_of_not_mem {s : String} (h : '\n' ∉ s.toList) : linesOf s = [s] := by
  rw [linesOf, List.splitOn, List.splitOnP_eq_singleton, List.map_singleton, String.ofList_toList]
  intro c hc
  rw [beq_eq_false_iff_ne]
  rintro rfl
  exact h hc

theorem linesOf_append_newline (s t : String) :
    linesOf (s ++ "\n" ++ t) = linesOf s ++ linesOf t := by
  have htext : (s ++ "\n" ++ t).toList = s.toList ++ '\n' :: t.toList := by
    rw [String.toList_append, String.toList_append, List.append_assoc]
    rfl
  have hsplit : (s.toList ++ '\n' :: t.toList).splitOn '\n' =
      s.toList.splitOn '\n' ++ t.toList.splitOn '\n' :=
    List.splitOnP_append_cons _ _ (beq_self_eq_true '\n')
  rw [linesOf, htext, hsplit, List.map_append]
  rfl

theorem linesOf_join {lines : List String} (hlines : ∀ line ∈ lines, '\n' ∉ line.toList) :
    linesOf (String.join (lines.map (· ++ "\n"))) = lines ++ [""] := by
  induction lines with
  | nil => rfl
  | cons line lines ih =>
    obtain ⟨hline, hlines⟩ := List.forall_mem_cons.mp hlines
    rw [List.map_cons, String.join_cons, linesOf_append_newline, linesOf_of_not_mem hline,
      ih hlines, List.singleton_append, List.cons_append]

theorem linesOf_dot (g : Graph) : linesOf g.dot = g.dotLines ++ [""] := by
  apply linesOf_join
  intro line hline
  simp only [dotLines, List.mem_append, List.mem_map, List.mem_singleton] at hline
  rcases hline with (((hheading | ⟨⟨n, index⟩, -, rfl⟩) | rfl) | ⟨e, -, rfl⟩) | rfl
  · exact (by decide : ∀ line ∈ heading, '\n' ∉ line.toList) line hheading
  · exact newline_not_mem_nodeLine index n
  · decide
  · exact newline_not_mem_edgeLine e
  · decide

theorem writtenIn (g : Graph) :
    g.WrittenIn (g.nodes.zipIdx.map fun (n, index) => nodeLine index n) (g.edges.map edgeLine) where
  nodes := by
    rw [List.forall₂_map_right_iff, List.forall₂_same]
    rintro ⟨n, index⟩ -
    change Declares (nodeLine index n) _ _ _
    rw [nodeLine_eq]
    exact declares_of_labelText (escape_nodeCaption n)
  edges := by
    rw [List.forall₂_map_right_iff, List.forall₂_same]
    intro e _
    rw [edgeLine_eq]
    exact declares_of_labelText (escape_edgeCaption e)

end Lines

theorem exists_shows_of_build {r : Resolver} (h : r.index.Sound) {kind : RecordKind}
    {i : Identifier} {depth : Nat} {g : Graph} (hbuild : build r kind i depth = .ok g)
    {e : GraphEdge} (he : e ∈ g.edges) : ∃ l, r.index.HasLink l ∧ e.Shows r.index g l := by
  cases hseed : r.index.lookup kind i with
  | error cause =>
    rw [build_of_lookup_error hseed] at hbuild
    cases hbuild
  | ok seed =>
    obtain ⟨hok, hvalid⟩ := Survey.build_eq h hseed depth
    obtain rfl := Except.ok.inj (hok.symm.trans hbuild)
    obtain ⟨l, hl, rfl⟩ := List.mem_map.mp he
    exact ⟨l, hvalid.hasLink l hl, hvalid.shows h hl⟩

end Graph

/-- The text of a graph is its heading, a line for each node, a blank line, a line for each edge and
the closing brace. Every label ends at its first quote that is not escaped and reads as the data
without carriage returns, and every edge is between the numbers of two nodes: the ends of its
link. -/
theorem dot_labels_read_back (r : Resolver) (hx : r.index.Reachable) {kind : RecordKind}
    {i : Identifier} {depth : Nat} {g : Graph} (hbuild : Graph.build r kind i depth = .ok g) :
    (∃ nodeLines edgeLines,
      Graph.linesOf g.dot =
        ["digraph polyphon \x7b", "  rankdir=LR;", "  node [shape=box, fontname=\"Helvetica\"];",
          "  edge [fontname=\"Helvetica\"];", ""] ++
          nodeLines ++ [""] ++ edgeLines ++ ["\x7d", ""] ∧
      g.WrittenIn nodeLines edgeLines ∧
      ∀ e ∈ g.edges, e.origin < nodeLines.length ∧ e.target < nodeLines.length ∧
        ∃ l, r.index.HasLink l ∧ e.Shows r.index g l) ∧
    ∀ s, (Graph.escape s).toList =
      Graph.replaceChar '\n' ['\\', 'n'] (Graph.replaceChar '\r' []
        (Graph.replaceChar '\"' ['\\', '\"'] (Graph.replaceChar '\\' ['\\', '\\'] s.toList))) := by
  have h := hx.sound
  refine ⟨⟨_, _, ?lines, g.writtenIn, ?ends⟩, Graph.escape_eq_replaceChar⟩
  case lines =>
    rw [Graph.linesOf_dot, Graph.dotLines, List.append_assoc]
    rfl
  case ends =>
    intro e he
    obtain ⟨l, hl, hshows⟩ := Graph.exists_shows_of_build h hbuild he
    obtain ⟨origin, horigin, -⟩ := hshows.origin
    obtain ⟨target, htarget, -⟩ := hshows.target
    rw [List.length_map, List.length_zipIdx]
    exact ⟨(List.getElem?_eq_some_iff.mp horigin).1, (List.getElem?_eq_some_iff.mp htarget).1,
      l, hl, hshows⟩

/-- Quotes, backslashes and line breaks in every text of a graph, some of which look like the end of
a label or of a line. -/
theorem dot_labels_of_quoted_texts :
    let recording : Identifier := .isrc "1\"];"
    let performer : Identifier := .isni "2"
    let r : Resolver := ⟨Index.empty.after [
      .createRecord ⟨.recording, ⟨["\"Air\"\r\non G\\", "3:00"], rfl⟩⟩ recording "radio",
      .createLink ⟨.performerRecording, performer, recording, some "\\\"solo\"", none⟩ "p\n\\n"],
      .empty⟩
    ∃ g nodeLines edgeLines, r.index.Reachable ∧
      Graph.build r .recording recording 1 = .ok g ∧
      Graph.linesOf g.dot =
        ["digraph polyphon \x7b", "  rankdir=LR;", "  node [shape=box, fontname=\"Helvetica\"];",
          "  edge [fontname=\"Helvetica\"];", ""] ++
          nodeLines ++ [""] ++ edgeLines ++ ["\x7d", ""] ∧
      g.WrittenIn nodeLines edgeLines ∧
      g.nodes.map (Graph.withoutReturns ·.caption) =
        ["recording\n\"Air\"\non G\\\nisrc:1\"];", "performer\n?\nisni:2"] ∧
      g.edges.map (Graph.withoutReturns ·.caption) =
        ["performer_recording (\\\"solo\")\np\n\\n"] := by
  intro recording performer r
  have hx : r.index.Reachable := Index.Reachable.empty.after _
  have hcaptions : ((Graph.build r .recording recording 1).map fun g =>
      (g.nodes.map (Graph.withoutReturns ·.caption),
        g.edges.map (Graph.withoutReturns ·.caption))).toOption =
      some (["recording\n\"Air\"\non G\\\nisrc:1\"];", "performer\n?\nisni:2"],
        ["performer_recording (\\\"solo\")\np\n\\n"]) := by
    decide +kernel
  obtain ⟨g, hbuild, hread⟩ := exists_ok_of_toOption_map hcaptions
  obtain ⟨hnodes, hedges⟩ := Prod.mk.inj hread
  obtain ⟨⟨nodeLines, edgeLines, hlines, hwritten, -⟩, -⟩ := dot_labels_read_back r hx hbuild
  exact ⟨g, nodeLines, edgeLines, hx, hbuild, hlines, hwritten, hnodes, hedges⟩

end MusicIndex
