import Mathlib.Algebra.BigOperators.Group.List.Basic
import MusicIndex.Graph.Build
import MusicIndex.Proofs.Call

namespace MusicIndex

theorem foldlM_induct {ε α β : Type} {f : β → α → Except ε β} {P : β → Prop}
    (h : ∀ b a c, P b → f b a = .ok c → P c) {l : List α} {b c : β} (hb : P b)
    (hc : l.foldlM f b = .ok c) : P c := by
  induction l generalizing b with
  | nil =>
    cases hc
    exact hb
  | cons a l ih =>
    rw [List.foldlM_cons, bind_eq_ok_iff] at hc
    obtain ⟨d, hd, hc⟩ := hc
    exact ih (h b a d hb hd) hc

theorem sum_countP_comm {α β : Type} (p : α → β → Bool) (l : List α) (m : List β) :
    (l.map fun a => m.countP (p a)).sum = (m.map fun b => l.countP (p · b)).sum := by
  induction m with
  | nil => simp
  | cons b m ih =>
    have hfirst : (l.map fun a => if p a b = true then 1 else 0).sum = l.countP (p · b) := by
      simp [List.countP_eq_length_filter, List.sum_map_ite]
    simp only [List.countP_cons, List.sum_map_add, ih, hfirst, List.map_cons, List.sum_cons,
      Nat.add_comm]

theorem getElem?_of_prefix {α : Type} {l m : List α} {a : α} {k : Nat} (h : l <+: m)
    (hk : l[k]? = some a) : m[k]? = some a := by
  obtain ⟨more, rfl⟩ := h
  rw [List.getElem?_append_left (List.getElem?_eq_some_iff.mp hk).1, hk]

namespace Graph

def near? (g : Graph) (edge : GraphEdge) : Direction → Option GraphNode
  | .forward => g.nodes[edge.origin]?
  | .reverse => g.nodes[edge.target]?

def edgesFrom (g : Graph) (n : GraphNode) (direction : Direction) : List GraphEdge :=
  g.edges.filter fun edge => g.near? edge direction = some n

/-- An entry for each edge that a walk in a direction takes from a node, from the newest to the
oldest, with the node at the other end of the edge. -/
structure Lists (g : Graph) (n : GraphNode) (direction : Direction)
    (entries : List (GraphNode × GraphEdge)) : Prop where
  edges : entries.map (·.2) = (g.edgesFrom n direction).reverse
  far : ∀ entry ∈ entries, g.near? entry.2 direction.opposite = some entry.1

/-- No entity and no link is there twice, and every edge has its ends, which are of the kinds that
belong to its own kind. -/
structure Wired (g : Graph) : Prop where
  entities : (g.nodes.map (·.entity)).Nodup
  links : (g.edges.map fun edge => (edge.kind, edge.link)).Nodup
  ends : ∀ edge ∈ g.edges, ∀ direction, ∃ n, g.near? edge direction = some n ∧
    n.kind = edge.kind.nearKind direction

variable {r : Resolver} {g h : Graph} {kind : RecordKind} {i : StoredIdentifier} {index : Nat}
  {new : Option GraphNode} {e f : Entity} {n m : GraphNode} {edge : GraphEdge}
  {direction : Direction} {w w' : Walk}

theorem indexOf?_eq_none : g.indexOf? e = none ↔ e ∉ g.nodes.map (·.entity) := by
  simp [indexOf?]

theorem exists_of_indexOf? (hindex : g.indexOf? e = some index) :
    ∃ n, g.nodes[index]? = some n ∧ n.entity = e := by
  obtain ⟨hlt, he, -⟩ := List.findIdx?_eq_some_iff_getElem.mp hindex
  exact ⟨g.nodes[index], List.getElem?_eq_getElem hlt, beq_iff_eq.mp he⟩

section Build

theorem near?_of_prefix (hnodes : g.nodes <+: h.nodes) (hn : g.near? edge direction = some n) :
    h.near? edge direction = some n := by
  cases direction with
  | forward => exact getElem?_of_prefix hnodes hn
  | reverse => exact getElem?_of_prefix hnodes hn

theorem Wired.addNode (hg : g.Wired) (hadd : addNode r g kind i = .ok (index, new, h)) :
    h.Wired ∧ h.edges = g.edges ∧ g.nodes <+: h.nodes ∧
      ∃ n, h.nodes[index]? = some n ∧ n.kind = kind := by
  unfold Graph.addNode at hadd
  split at hadd
  · rename_i known hknown
    cases hadd
    obtain ⟨n, hn, he⟩ := exists_of_indexOf? hknown
    exact ⟨hg, rfl, List.prefix_rfl, n, hn, congrArg Entity.kind he⟩
  · rename_i hnone
    obtain ⟨fields, -, hadd⟩ := bind_eq_ok_iff.mp hadd
    cases hadd
    have hnodes := List.prefix_append g.nodes
      [⟨kind, i, if fields.isEmpty = true then none else some (label fields)⟩]
    refine ⟨⟨?_, hg.links, fun edge hedge direction => ?_⟩, rfl, hnodes, _,
      List.getElem?_concat_length, rfl⟩
    · rw [List.map_append, List.map_singleton, ← List.concat_eq_append]
      exact hg.entities.concat (indexOf?_eq_none.mp hnone)
    · obtain ⟨n, hn, hkind⟩ := hg.ends edge hedge direction
      exact ⟨n, near?_of_prefix hnodes hn, hkind⟩

theorem Wired.follow {step : StoredLink × Direction} (hw : w.graph.Wired)
    (hfollow : follow r w step = .ok w') : w'.graph.Wired := by
  obtain ⟨link, walked⟩ := step
  unfold Graph.follow at hfollow
  dsimp only at hfollow
  split at hfollow
  · cases hfollow
    exact hw
  · rename_i hnew
    obtain ⟨⟨origin, newOrigin, g⟩, hfirst, hfollow⟩ := bind_eq_ok_iff.mp hfollow
    obtain ⟨⟨target, newTarget, h⟩, hsecond, hfollow⟩ := bind_eq_ok_iff.mp hfollow
    obtain ⟨source, -, hfollow⟩ := bind_eq_ok_iff.mp hfollow
    cases hfollow
    obtain ⟨hg, hgedges, -, n, hn, hnkind⟩ := hw.addNode hfirst
    obtain ⟨hh, hhedges, hnodes, m, hm, hmkind⟩ := hg.addNode hsecond
    rw [hgedges] at hhedges
    refine ⟨hh.entities, ?_, fun edge hedge direction => ?_⟩
    · rw [List.map_append, List.map_singleton, ← List.concat_eq_append]
      refine hh.links.concat fun hmem => hnew ?_
      obtain ⟨edge, hedge, he⟩ := List.mem_map.mp hmem
      rw [hhedges] at hedge
      obtain ⟨hkind, hlink⟩ := Prod.mk.inj he
      exact List.any_eq_true.mpr ⟨edge, hedge, by simp [hkind, hlink]⟩
    · rcases List.mem_append.mp hedge with hedge | hedge
      · exact hh.ends edge hedge direction
      · obtain rfl := List.mem_singleton.mp hedge
        cases direction with
        | forward => exact ⟨n, getElem?_of_prefix hnodes hn, hnkind⟩
        | reverse => exact ⟨m, hm, hmkind⟩

theorem Wired.visit {node : GraphNode} (hw : w.graph.Wired) (hvisit : visit r w node = .ok w') :
    w'.graph.Wired := by
  unfold Graph.visit at hvisit
  split at hvisit
  · cases hvisit
    exact hw
  · exact foldlM_induct (P := fun w : Walk => w.graph.Wired) (fun _ _ _ => .follow) hw hvisit

theorem Wired.walk (hops : Nat) (nodes : List GraphNode) (hg : g.Wired)
    (hwalk : walk r hops nodes g = .ok h) : h.Wired := by
  induction hops generalizing nodes g with
  | zero =>
    cases hwalk
    exact hg
  | succ hops ih =>
    cases nodes with
    | nil =>
      cases hwalk
      exact hg
    | cons node rest =>
      obtain ⟨w, hround, hwalk⟩ := bind_eq_ok_iff.mp hwalk
      have hw : w.graph.Wired :=
        foldlM_induct (P := fun w : Walk => w.graph.Wired) (fun _ _ _ => .visit) hg hround
      exact ih w.next hw hwalk

theorem wired_empty : empty.Wired :=
  ⟨.nil, .nil, fun _ hedge => nomatch hedge⟩

theorem wired_build {i : Identifier} {depth : Nat} (hbuild : build r kind i depth = .ok g) :
    g.Wired := by
  obtain ⟨seed, -, hbuild⟩ := bind_eq_ok_iff.mp hbuild
  obtain ⟨⟨index, node, h⟩, hseed, hwalk⟩ := bind_eq_ok_iff.mp hbuild
  exact .walk depth node.toList (wired_empty.addNode hseed).1 hwalk

end Build

section Entries

def entriesFrom (g : Graph) (n : GraphNode) (direction : Direction) :
    List (GraphNode × GraphEdge) :=
  (g.edgesFrom n direction).reverse.filterMap fun edge =>
    (g.near? edge direction.opposite).map fun far => (far, edge)

theorem mem_of_near? (hn : g.near? edge direction = some n) : n ∈ g.nodes := by
  cases direction with
  | forward => exact List.mem_of_getElem? hn
  | reverse => exact List.mem_of_getElem? hn

theorem mem_edgesFrom : edge ∈ g.edgesFrom n direction ↔
    edge ∈ g.edges ∧ g.near? edge direction = some n := by
  rw [edgesFrom, List.mem_filter, decide_eq_true_iff]

theorem mem_entriesFrom : (m, edge) ∈ g.entriesFrom n direction ↔ edge ∈ g.edges ∧
    g.near? edge direction = some n ∧ g.near? edge direction.opposite = some m := by
  rw [entriesFrom, List.mem_filterMap]
  simp only [List.mem_reverse, mem_edgesFrom, Option.map_eq_some_iff, Prod.mk.injEq]
  constructor
  · rintro ⟨edge, ⟨hedge, hn⟩, m, hm, rfl, rfl⟩
    exact ⟨hedge, hn, hm⟩
  · rintro ⟨hedge, hn, hm⟩
    exact ⟨edge, ⟨hedge, hn⟩, m, hm, rfl, rfl⟩

variable (hg : g.Wired)

include hg

theorem Wired.lists (n : GraphNode) (direction : Direction) :
    g.Lists n direction (g.entriesFrom n direction) where
  edges := by
    have hfar : ∀ edge ∈ (g.edgesFrom n direction).reverse,
        ((g.near? edge direction.opposite).map fun far => (far, edge)).map (·.2) = some edge := by
      intro edge hedge
      obtain ⟨hedge, -⟩ := mem_edgesFrom.mp (List.mem_reverse.mp hedge)
      obtain ⟨m, hm, -⟩ := hg.ends edge hedge direction.opposite
      rw [hm]
      rfl
    rw [entriesFrom, List.map_filterMap, List.filterMap_congr hfar, List.filterMap_some]
  far entry hentry := (mem_entriesFrom.mp hentry).2.2

theorem Wired.node_eq (hn : n ∈ g.nodes) (hm : m ∈ g.nodes) (he : n.entity = m.entity) : n = m :=
  List.inj_on_of_nodup_map hg.entities hn hm he

theorem Wired.exists_indexOf? (hn : n ∈ g.nodes) :
    ∃ index, g.indexOf? n.entity = some index ∧ ∀ k, g.nodes[k]? = some n ↔ k = index := by
  cases hindex : g.indexOf? n.entity with
  | none => exact absurd (List.mem_map_of_mem hn) (indexOf?_eq_none.mp hindex)
  | some index =>
    obtain ⟨m, hm, he⟩ := exists_of_indexOf? hindex
    obtain rfl := hg.node_eq (List.mem_of_getElem? hm) hn he
    refine ⟨index, rfl, fun k => ⟨fun hk => ?_, fun hk => hk ▸ hm⟩⟩
    exact (List.getElem?_inj (List.getElem?_eq_some_iff.mp hk).1 hg.entities.of_map).mp
      (hk.trans hm.symm)

theorem Wired.neighbours_eq (hn : n ∈ g.nodes) :
    g.neighbours n.entity = g.entriesFrom n .forward ++ g.entriesFrom n .reverse := by
  obtain ⟨index, hindex, hat⟩ := hg.exists_indexOf? hn
  have hforward (edge : GraphEdge) : edge.origin = index ↔ g.near? edge .forward = some n :=
    (hat edge.origin).symm
  have hreverse (edge : GraphEdge) : edge.target = index ↔ g.near? edge .reverse = some n :=
    (hat edge.target).symm
  simp only [neighbours, hindex, entriesFrom, edgesFrom, ← List.filter_reverse,
    List.filterMap_filter, decide_eq_true_eq, hforward, hreverse]
  rfl

theorem Wired.mem_neighbours : (m, edge) ∈ g.neighbours e ↔ edge ∈ g.edges ∧
    ∃ n direction, n.entity = e ∧ g.near? edge direction = some n ∧
      g.near? edge direction.opposite = some m := by
  constructor
  · intro hmem
    by_cases he : e ∈ g.nodes.map (·.entity)
    · obtain ⟨n, hn, rfl⟩ := List.mem_map.mp he
      rw [hg.neighbours_eq hn, List.mem_append, mem_entriesFrom, mem_entriesFrom] at hmem
      rcases hmem with ⟨hedge, hends⟩ | ⟨hedge, hends⟩
      · exact ⟨hedge, n, .forward, rfl, hends⟩
      · exact ⟨hedge, n, .reverse, rfl, hends⟩
    · rw [neighbours, indexOf?_eq_none.mpr he] at hmem
      cases hmem
  · rintro ⟨hedge, n, direction, rfl, hends⟩
    rw [hg.neighbours_eq (mem_of_near? hends.1), List.mem_append, mem_entriesFrom, mem_entriesFrom]
    cases direction with
    | forward => exact .inl ⟨hedge, hends⟩
    | reverse => exact .inr ⟨hedge, hends⟩

/-- An edge leads from one entity to another if and only if it leads back. -/
theorem Wired.neighbours_symm (hm : (m, edge) ∈ g.neighbours e) :
    ∃ n, n.entity = e ∧ (n, edge) ∈ g.neighbours m.entity := by
  obtain ⟨hedge, n, direction, he, hnear, hfar⟩ := hg.mem_neighbours.mp hm
  refine ⟨n, he, hg.mem_neighbours.mpr ⟨hedge, m, direction.opposite, rfl, hfar, ?_⟩⟩
  cases direction <;> exact hnear

theorem Wired.near?_ne_far (hedge : edge ∈ g.edges) (hn : g.near? edge direction = some n)
    (hm : g.near? edge direction.opposite = some m) : m.kind ≠ n.kind := by
  obtain ⟨n', hn', hnear⟩ := hg.ends edge hedge direction
  obtain ⟨m', hm', hfar⟩ := hg.ends edge hedge direction.opposite
  obtain rfl := Option.some.inj (hn.symm.trans hn')
  obtain rfl := Option.some.inj (hm.symm.trans hm')
  rw [hnear, hfar]
  exact (edge.kind.nearKind_ne_farKind direction).symm

theorem Wired.neighbour_ne (hm : (m, edge) ∈ g.neighbours e) : m.entity ≠ e := by
  obtain ⟨hedge, n, direction, rfl, hnear, hfar⟩ := hg.mem_neighbours.mp hm
  exact fun he => hg.near?_ne_far hedge hnear hfar (congrArg Entity.kind he)

theorem Wired.nodup_neighbours (e : Entity) : ((g.neighbours e).map (·.2)).Nodup := by
  by_cases he : e ∈ g.nodes.map (·.entity)
  · obtain ⟨n, hn, rfl⟩ := List.mem_map.mp he
    have hedges : ∀ direction, (g.edgesFrom n direction).reverse.Nodup := fun direction =>
      List.nodup_reverse.mpr (hg.links.of_map.filter _)
    rw [hg.neighbours_eq hn, List.map_append, (hg.lists n .forward).edges,
      (hg.lists n .reverse).edges]
    -- no edge both leaves the node and arrives at it
    refine (hedges .forward).append (hedges .reverse) fun edge hout hin => ?_
    obtain ⟨hedge, hnear⟩ := mem_edgesFrom.mp (List.mem_reverse.mp hout)
    obtain ⟨-, hfar⟩ := mem_edgesFrom.mp (List.mem_reverse.mp hin)
    exact hg.near?_ne_far hedge hnear hfar rfl
  · rw [neighbours, indexOf?_eq_none.mpr he]
    exact .nil

theorem Wired.sum_edgesFrom (direction : Direction) :
    (g.nodes.map fun n => (g.edgesFrom n direction).length).sum = g.edges.length := by
  have hone : ∀ edge ∈ g.edges,
      g.nodes.countP (fun n => g.near? edge direction = some n) = 1 := by
    intro edge hedge
    obtain ⟨n, hn, -⟩ := hg.ends edge hedge direction
    rw [hn, ← List.count_eq_one_of_mem hg.entities.of_map (mem_of_near? hn), List.count]
    refine List.countP_congr fun m _ => ?_
    rw [decide_eq_true_iff, Option.some.injEq, beq_iff_eq, eq_comm]
  simp only [edgesFrom, ← List.countP_eq_length_filter]
  rw [sum_countP_comm fun n edge => decide (g.near? edge direction = some n),
    List.map_congr_left hone]
  simp

theorem Wired.sum_neighbours :
    (g.nodes.map fun n => (g.neighbours n.entity).length).sum = 2 * g.edges.length := by
  have hlength : ∀ n ∈ g.nodes, (g.neighbours n.entity).length =
      (g.edgesFrom n .forward).length + (g.edgesFrom n .reverse).length := by
    intro n hn
    have hentries (direction : Direction) :
        (g.entriesFrom n direction).length = (g.edgesFrom n direction).length := by
      rw [← List.length_map (·.2), (hg.lists n direction).edges, List.length_reverse]
    rw [hg.neighbours_eq hn, List.length_append, hentries, hentries]
  rw [List.map_congr_left hlength, List.sum_map_add, hg.sum_edgesFrom, hg.sum_edgesFrom, two_mul]

end Entries

end Graph

/-- The neighbours of a node in a graph that was built are its edges, each once and with the node at
its other end: first the edges that leave it, then those that arrive, and the newest of either
first. What is no node has no neighbours. An edge leads from one node to another if and only if it
leads back, and never to the node itself; so it is counted at two nodes. -/
theorem neighbours_of_built_graph (r : Resolver) (kind : RecordKind) (i : Identifier) (depth : Nat)
    (g : Graph) (hbuild : Graph.build r kind i depth = .ok g) :
    (∀ n ∈ g.nodes, ∃ outgoing incoming, g.neighbours n.entity = outgoing ++ incoming ∧
        g.Lists n .forward outgoing ∧ g.Lists n .reverse incoming ∧
        ((g.neighbours n.entity).map (·.2)).Nodup) ∧
      (∀ e, e ∉ g.nodes.map (·.entity) → g.neighbours e = []) ∧
      (∀ e f edge, (∃ m, m.entity = f ∧ (m, edge) ∈ g.neighbours e) ↔
        ∃ n, n.entity = e ∧ (n, edge) ∈ g.neighbours f) ∧
      (∀ e, ∀ entry ∈ g.neighbours e, entry.1.entity ≠ e) ∧
      (g.nodes.map fun n => (g.neighbours n.entity).length).sum = 2 * g.edges.length := by
  have hg := Graph.wired_build hbuild
  refine ⟨fun n hn => ?listed, fun e he => ?absent, fun e f edge => ?symmetric,
    fun e entry hentry => hg.neighbour_ne hentry, hg.sum_neighbours⟩
  case listed =>
    exact ⟨_, _, hg.neighbours_eq hn, hg.lists n .forward, hg.lists n .reverse,
      hg.nodup_neighbours n.entity⟩
  case absent => rw [Graph.neighbours, Graph.indexOf?_eq_none.mpr he]
  case symmetric =>
    constructor
    · rintro ⟨m, rfl, hm⟩
      exact hg.neighbours_symm hm
    · rintro ⟨n, rfl, hn⟩
      exact hg.neighbours_symm hn

/-- One identifier stands for a performer and for the recording that two sources link to it, and
both edges are listed once with either. -/
theorem neighbours_of_one_identifier :
    let isni : Identifier := .isni "1"
    let r : Resolver := ⟨Index.empty.after [
      .createRecord ⟨.performer, ⟨["Bo"], rfl⟩⟩ isni "radio",
      .createLink ⟨.performerRecording, isni, isni, some "soloist", none⟩ "radio",
      .createLink ⟨.performerRecording, isni, isni, some "soloist", none⟩ "press",
      .createLink ⟨.performerSong, isni, .grid "2", none, none⟩ "press"], .empty⟩
    let bo : GraphNode := ⟨.performer, ⟨1, isni⟩, some "Bo"⟩
    let recording : GraphNode := ⟨.recording, ⟨1, isni⟩, none⟩
    let song : GraphNode := ⟨.song, ⟨2, .grid "2"⟩, none⟩
    let radio : GraphEdge := ⟨0, 1, .performerRecording, 1, some "soloist", "radio"⟩
    let press : GraphEdge := ⟨0, 1, .performerRecording, 2, some "soloist", "press"⟩
    let sung : GraphEdge := ⟨0, 2, .performerSong, 1, none, "press"⟩
    let g : Graph := ⟨[bo, recording, song], [radio, press, sung]⟩
    Graph.build r .performer isni 1 = .ok g ∧
      (∃ outgoing incoming, g.neighbours bo.entity = outgoing ++ incoming ∧
        g.Lists bo .forward outgoing ∧ g.Lists bo .reverse incoming ∧
        ((g.neighbours bo.entity).map (·.2)).Nodup) ∧
      g.neighbours bo.entity = [(song, sung), (recording, press), (recording, radio)] ∧
      g.neighbours recording.entity = [(bo, press), (bo, radio)] ∧
      g.neighbours ⟨.song, 1⟩ = [] ∧
      (∃ m, m.entity = bo.entity ∧ (m, press) ∈ g.neighbours recording.entity) ∧
      (g.nodes.map fun n => (g.neighbours n.entity).length).sum = 2 * 3 := by
  intro isni r bo recording song radio press sung g
  have hbuild : Graph.build r .performer isni 1 = .ok g := by decide +kernel
  have hbo : g.neighbours bo.entity =
      [(song, sung), (recording, press), (recording, radio)] := by decide +kernel
  have hrecording : g.neighbours recording.entity = [(bo, press), (bo, radio)] := by
    decide +kernel
  obtain ⟨hlisted, habsent, hsymmetric, -, hsum⟩ :=
    neighbours_of_built_graph r .performer isni 1 g hbuild
  have hpress := (hsymmetric bo.entity recording.entity press).mp
    ⟨recording, rfl, by simp [hbo]⟩
  exact ⟨hbuild, hlisted bo List.mem_cons_self, hbo, hrecording,
    habsent ⟨.song, 1⟩ (by decide +kernel), hpress, hsum⟩

end MusicIndex
