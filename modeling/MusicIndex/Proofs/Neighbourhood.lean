import MusicIndex.Proofs.Extent
import MusicIndex.Proofs.Queue

namespace MusicIndex

/-- An edge that stands for a link, from the node of its first end to the node of its second. -/
structure GraphEdge.Shows (x : Index) (g : Graph) (edge : GraphEdge) (l : StoredLink) : Prop where
  kind : edge.kind = l.kind
  link : edge.link = l.id
  role : edge.role = l.role
  source : x.sourceName l.source = .ok edge.source
  origin : ∃ node, g.nodes[edge.origin]? = some node ∧
    node.kind = l.kind.ends.1 ∧ node.identifier = l.a
  target : ∃ node, g.nodes[edge.target]? = some node ∧
    node.kind = l.kind.ends.2 ∧ node.identifier = l.b

/-- What lies at most so many hops from an entity, nearer entities before farther ones, and the
links of all that lies nearer than that. -/
structure Graph.IsNeighbourhood (x : Index) (seed : Entity) (depth : Nat) (g : Graph) : Prop where
  first : (g.nodes.map (·.entity)).head? = some seed
  within : ∀ e, e ∈ g.nodes.map (·.entity) ↔ ∃ hops ≤ depth, x.Reaches seed hops e
  distinct : (g.nodes.map (·.entity)).Nodup
  identifier : ∀ node ∈ g.nodes, x.identifier? node.identifier.id = some node.identifier
  sorted : g.nodes.Pairwise fun node other => ∀ near far,
    x.AtDistance seed near node.entity → x.AtDistance seed far other.entity → near ≤ far
  found : ∀ e node, g.node? e = some node ↔ node ∈ g.nodes ∧ node.entity = e
  shown : ∀ edge ∈ g.edges, ∃ row ∈ (x.links edge.kind).rows,
    ∃ l, x.storedLink? edge.kind row = some l ∧ edge.Shows x g l
  touching : ∀ kind, ∀ row ∈ (x.links kind).rows,
    (∃ edge ∈ g.edges, edge.kind = kind ∧ edge.link = row.id) ↔
      ∃ direction, ∃ hops < depth, x.AtDistance seed hops (row.content.near kind direction) ∧
        x.Live (row.content.near kind direction)
  followedOnce : (g.edges.map fun edge => (edge.kind, edge.link)).Nodup

namespace Survey

variable {r : Resolver} {s : Survey} {seed e : Entity} {depth known : Nat}

theorem map_entity_graph (r : Resolver) (s : Survey) :
    (s.graph r).nodes.map (·.entity) = s.entities := by
  rw [graph, List.map_map]
  exact List.map_id _

theorem identifier_nodeOf (he : (r.index.identifier? e.id).isSome) :
    r.index.identifier? e.id = some (r.nodeOf e).identifier := by
  obtain ⟨i, hi⟩ := Option.isSome_iff_exists.mp he
  obtain ⟨content, hget, rfl⟩ := Option.map_eq_some_iff.mp hi
  rw [hi, Resolver.nodeOf, hget]
  rfl

theorem node?_graph {node : GraphNode} :
    (s.graph r).node? e = some node ↔ node ∈ (s.graph r).nodes ∧ node.entity = e := by
  have hentity {e : Entity} {node : GraphNode} (hfind : (s.graph r).node? e = some node) :
      node.entity = e :=
    beq_iff_eq.mp (List.find?_some (p := fun node : GraphNode => node.entity == e) hfind)
  constructor
  · exact fun hfind => ⟨List.mem_of_find?_eq_some hfind, hentity hfind⟩
  · rintro ⟨hmem, rfl⟩
    obtain ⟨other, hother⟩ : ∃ other, (s.graph r).node? node.entity = some other :=
      Option.isSome_iff_exists.mp (List.find?_isSome.mpr ⟨node, hmem, BEq.rfl⟩)
    -- a node is that of its entity
    obtain ⟨f, -, rfl⟩ := List.mem_map.mp hmem
    obtain ⟨e, -, rfl⟩ := List.mem_map.mp (List.mem_of_find?_eq_some hother)
    obtain rfl : e = f := hentity hother
    exact hother

theorem Valid.node_near (hs : s.Valid r.index) {l : StoredLink} (hl : l ∈ s.links)
    (direction : Direction) :
    ∃ node, (s.graph r).nodes[s.entities.idxOf (l.near direction)]? = some node ∧
      node.kind = l.kind.nearKind direction ∧ node.identifier = l.far direction.opposite := by
  have hmem := hs.ends l hl direction
  have hknown := identifier_nodeOf (hs.known _ hmem)
  have hfar : r.index.identifier? (l.near direction).id = some (l.far direction.opposite) :=
    (hs.hasLink l hl).identifier?_far direction.opposite
  refine ⟨r.nodeOf (l.near direction), ?_, rfl, Option.some.inj (hknown.symm.trans hfar)⟩
  rw [graph, List.getElem?_map, List.getElem?_idxOf hmem]
  rfl

theorem Valid.shows (h : r.index.Sound) (hs : s.Valid r.index) {l : StoredLink}
    (hl : l ∈ s.links) : (r.edgeOf s.entities l).Shows r.index (s.graph r) l where
  kind := rfl
  link := rfl
  role := rfl
  source := h.sourceName_of_link (hs.hasLink l hl)
  origin := hs.node_near hl .forward
  target := hs.node_near hl .reverse

theorem Level.mem_links_iff {x : Index} (h : Level x seed depth known s) {l : StoredLink} :
    l ∈ s.links ↔ x.HasLink l ∧ ∃ direction, ∃ hops < depth,
      x.AtDistance seed hops (l.near direction) ∧ x.Live (l.near direction) := by
  rw [h.links]
  constructor
  · rintro ⟨hl, direction, hops, hlt, hreach, hlive⟩
    obtain ⟨distance, hle, hdistance⟩ := hreach.exists_distance
    exact ⟨hl, direction, distance, hle.trans_lt hlt, hdistance, hlive⟩
  · rintro ⟨hl, direction, hops, hlt, hdistance, hlive⟩
    exact ⟨hl, direction, hops, hlt, hdistance.reached, hlive⟩

theorem Valid.nodup_edges (h : r.index.Sound) (hs : s.Valid r.index) :
    ((s.graph r).edges.map fun edge => (edge.kind, edge.link)).Nodup := by
  rw [graph, List.map_map]
  apply hs.links.map_on
  intro l hl m hm he
  obtain ⟨hkind, hid⟩ := Prod.mk.inj he
  exact h.link_eq (hs.hasLink l hl) (hs.hasLink m hm) hkind hid

theorem Level.sorted_nodes (h : Level r.index seed depth known s) :
    (s.graph r).nodes.Pairwise fun node other => ∀ near far,
      r.index.AtDistance seed near node.entity → r.index.AtDistance seed far other.entity →
        near ≤ far := by
  rw [graph, List.pairwise_map]
  apply h.sorted.imp
  intro e f hef near far hnear hfar
  obtain ⟨m, hm, hreach⟩ := hef far hfar.reached
  exact (hnear.le_of_reaches hreach).trans hm

theorem Level.touching (hx : r.index.Sound) (hs : s.Valid r.index)
    (h : Level r.index seed depth known s) {kind : LinkKind} {row : Row LinkClaim}
    (hrow : row ∈ (r.index.links kind).rows) :
    (∃ edge ∈ (s.graph r).edges, edge.kind = kind ∧ edge.link = row.id) ↔
      ∃ direction, ∃ hops < depth,
        r.index.AtDistance seed hops (row.content.near kind direction) ∧
          r.index.Live (row.content.near kind direction) := by
  obtain ⟨l, hl⟩ := hx.exists_link hrow
  obtain ⟨rfl, hid, -⟩ := Index.storedLink?_kind hl
  have hlink : r.index.HasLink l := ⟨row, hrow, hl⟩
  have hmem : (∃ edge ∈ (s.graph r).edges, edge.kind = l.kind ∧ edge.link = row.id) ↔
      l ∈ s.links := by
    constructor
    · rintro ⟨edge, hedge, hkind, hnumber⟩
      obtain ⟨m, hm, rfl⟩ := List.mem_map.mp hedge
      obtain rfl := hx.link_eq (hs.hasLink m hm) hlink hkind (hnumber.trans hid.symm)
      exact hm
    · intro hl
      exact ⟨_, List.mem_map_of_mem hl, rfl, hid⟩
  rw [hmem, h.mem_links_iff]
  simp only [hlink, true_and, Index.storedLink?_near hl]

theorem Level.isNeighbourhood (hx : r.index.Sound) (hs : s.Valid r.index)
    (h : Level r.index seed depth known s) :
    (s.graph r).IsNeighbourhood r.index seed depth where
  first := by
    rw [List.head?_map, h.head_graph]
    rfl
  within e := by
    rw [map_entity_graph]
    exact h.within e
  distinct := by
    rw [map_entity_graph]
    exact hs.entities
  identifier node hnode := by
    obtain ⟨e, he, rfl⟩ := List.mem_map.mp hnode
    exact identifier_nodeOf (hs.known e he)
  sorted := h.sorted_nodes
  found e node := node?_graph
  shown edge hedge := by
    obtain ⟨l, hl, rfl⟩ := List.mem_map.mp hedge
    obtain ⟨row, hrow, hrowl⟩ := hs.hasLink l hl
    exact ⟨row, hrow, l, hrowl, hs.shows hx hl⟩
  touching kind row hrow := h.touching hx hs hrow
  followedOnce := hs.nodup_edges hx

end Survey

/-- The queue of an entity runs empty and leaves the neighbourhood of the entity that the identifier
stands for; there is an error only where it stands for none. -/
theorem graph_is_neighbourhood (r : Resolver) (hx : r.index.Reachable) (kind : RecordKind)
    (i : Identifier) (depth : Nat) :
    (∃ steps, (Graph.Queue.start r kind i depth >>= Graph.Queue.run r steps) =
      (Graph.build r kind i depth).map fun g => ⟨g, []⟩) ∧
    match Graph.build r kind i depth with
    | .ok g => ∃ seed, r.index.find? i = some seed ∧ r.index.Live ⟨kind, seed.id⟩ ∧
      g.IsNeighbourhood r.index ⟨kind, seed.id⟩ depth
    | .error e => e = .identifierNotFound kind i ∧
      ∀ seed, r.index.find? i = some seed → ¬ r.index.Live ⟨kind, seed.id⟩ := by
  have hsound := hx.sound
  refine ⟨Graph.Queue.exists_run_eq_build r kind i depth, ?_⟩
  cases hseed : r.index.lookup kind i with
  | ok seed =>
    obtain ⟨hfound, hlive⟩ := hsound.lookup_eq_ok_iff.mp hseed
    obtain ⟨s, known, hbuild, hvalid, hlevel⟩ := Survey.exists_level_build hsound hseed depth
    rw [hbuild]
    exact ⟨seed, hfound, hlive, hlevel.isNeighbourhood hsound hvalid⟩
  | error e =>
    rw [Graph.build_of_lookup_error hseed]
    refine ⟨Index.lookup_error hseed, ?_⟩
    intro seed hfound hlive
    rw [hsound.lookup_eq_ok_iff.mpr ⟨hfound, hlive⟩] at hseed
    cases hseed

/-- Two hops from the song close the ring and meet the performer, where the walk ends. -/
theorem neighbourhood_in_small_ring :
    let r : Resolver := ⟨.smallRing, .empty⟩
    ∃ g, Graph.build r .song (.iswc "1") 2 = .ok g ∧ r.index.Reachable ∧
      g.IsNeighbourhood r.index ⟨.song, 1⟩ 2 ∧
      (g.nodes.map fun node => (node.entity, node.label)) =
        [(⟨.song, 1⟩, some "Air"), (⟨.recording, 2⟩, some "Air"), (⟨.release, 3⟩, some "Airs"),
          (⟨.performer, 4⟩, none)] ∧
      (g.edges.map fun edge => (edge.origin, edge.target, edge.kind)) =
        [(0, 1, .songRecording), (2, 0, .releaseSong), (2, 1, .releaseRecording),
          (3, 2, .performerRelease)] := by
  intro r
  have hshape : ((Graph.build r .song (.iswc "1") 2).map fun g =>
      (g.nodes.map fun node => (node.entity, node.label),
        g.edges.map fun edge => (edge.origin, edge.target, edge.kind))).toOption =
      some ([(⟨.song, 1⟩, some "Air"), (⟨.recording, 2⟩, some "Air"), (⟨.release, 3⟩, some "Airs"),
        (⟨.performer, 4⟩, none)], [(0, 1, .songRecording), (2, 0, .releaseSong),
        (2, 1, .releaseRecording), (3, 2, .performerRelease)]) := by
    decide +kernel
  have hseed : r.index.find? (.iswc "1") = some ⟨1, .iswc "1"⟩ := by decide +kernel
  obtain ⟨-, h⟩ := graph_is_neighbourhood r Index.reachable_smallRing .song (.iswc "1") 2
  cases hbuild : Graph.build r .song (.iswc "1") 2 with
  | error e =>
    rw [hbuild] at hshape
    cases hshape
  | ok g =>
    rw [hbuild] at hshape h
    obtain ⟨seed, hfound, -, hg⟩ := h
    obtain rfl : seed = ⟨1, .iswc "1"⟩ := Option.some.inj (hfound.symm.trans hseed)
    obtain ⟨hnodes, hedges⟩ := Prod.mk.inj (Option.some.inj hshape)
    exact ⟨g, rfl, Index.reachable_smallRing, hg, hnodes, hedges⟩

end MusicIndex
