import MusicIndex.Proofs.Neighbourhood
import MusicIndex.Proofs.ViewTree

namespace MusicIndex

namespace EntityView

variable {root : EntityView} {n : Neighbour EntityView}

def Lists (root : EntityView) (n : Neighbour EntityView) : Prop :=
  ∃ above v, root.Below above v ∧ n ∈ v.neighbours

/-- The entities that a tree mentions, with a view or without. -/
def Mentions (root : EntityView) (e : Entity) : Prop :=
  root.entity = e ∨ ∃ n, root.Lists n ∧ n.entity = e

/-- A graph has the entities of a tree as nodes and its links as edges; nodes are labelled as views
are, and those without records have no label. -/
structure Spans (x : Index) (root : EntityView) (g : Graph) : Prop where
  nodes : ∀ e, root.Mentions e ↔ e ∈ g.nodes.map (·.entity)
  edges : ∀ kind id, (∃ n, root.Lists n ∧ n.link.kind = kind ∧ n.link.id = id) ↔
    ∃ edge ∈ g.edges, edge.kind = kind ∧ edge.link = id
  same : ∀ n, root.Lists n → ∀ edge ∈ g.edges, edge.kind = n.link.kind → edge.link = n.link.id →
    edge.Shows x g n.link ∧ edge.source = n.source
  labelled : ∀ above v, root.Below above v →
    ∃ node, g.node? v.entity = some node ∧ node.label = some v.label
  unlabelled : ∀ node ∈ g.nodes, node.label = none ↔ ¬ x.Live node.entity

end EntityView

namespace Resolver

variable {r : Resolver} {depth hops : Nat} {above : List Entity} {kind : RecordKind}
  {seed : StoredIdentifier} {v root : EntityView} {n : Neighbour EntityView} {e : Entity}
  {l : StoredLink} {direction : Direction} (h : r.index.Sound)
  (hroot : r.viewOf depth [] kind seed = some root)

include hroot

theorem exists_neighbour (hv : root.Below above v) (hl : r.index.HasLink l)
    (hentity : v.entity = l.near direction) :
    ∃ n ∈ v.neighbours, n.link = l ∧ n.direction = direction ∧
      n.entity = l.near direction.opposite :=
  ⟨_, (mem_neighbours_of_below hroot hv).mpr ⟨l, direction, hl, hentity.symm, rfl⟩, rfl, rfl,
    entity_neighbourOf⟩

include h

theorem live_of_below (hv : root.Below above v) : r.index.Live v.entity := by
  obtain ⟨-, -, hview⟩ := viewOf_of_below hroot hv
  exact (isSome_viewOf h _ _).mp (Option.isSome_iff_exists.mpr ⟨v, hview⟩)

theorem reaches_neighbour (hv : root.Below above v) (hn : n ∈ v.neighbours)
    (hreach : r.index.Reaches root.entity hops v.entity) :
    r.index.Reaches root.entity (hops + 1) n.entity := by
  have hlive := live_of_below h hroot hv
  obtain ⟨l, direction, hl, hnear, rfl⟩ := (mem_neighbours_of_below hroot hv).mp hn
  rw [← hnear] at hreach hlive
  rw [entity_neighbourOf]
  exact hreach.follow hl hlive

theorem reaches_of_below (hv : root.Below above v) :
    r.index.Reaches root.entity above.length v.entity := by
  induction hv with
  | root => exact .seed
  | child hv hn hw ih =>
    rw [(expands_of_below h hroot hv).entity_eq hn hw]
    exact reaches_neighbour h hroot hv hn ih

theorem reaches_of_mem_path (hv : root.Below above v) (he : e ∈ v.entity :: above) :
    ∃ hops ≤ above.length, r.index.Reaches root.entity hops e := by
  induction hv with
  | root =>
    obtain rfl := List.mem_singleton.mp he
    exact ⟨0, le_rfl, .seed⟩
  | @child above v w n hv hn hw ih =>
    rcases List.mem_cons.mp he with rfl | he
    · exact ⟨_, le_rfl, reaches_of_below h hroot (.child hv hn hw)⟩
    · obtain ⟨hops, hle, hreach⟩ := ih he
      exact ⟨hops, Nat.le_succ_of_le hle, hreach⟩

/-- Along a shortest path nothing is met twice, so no view on it is cut off. -/
theorem exists_below_of_distance (hdistance : r.index.AtDistance root.entity hops e)
    (hlive : r.index.Live e) (hdepth : hops ≤ depth) :
    ∃ above v, root.Below above v ∧ v.entity = e ∧ above.length = hops := by
  induction hops generalizing e with
  | zero =>
    obtain rfl : e = root.entity := by
      cases hdistance.reached
      rfl
    exact ⟨[], root, .root, rfl, rfl⟩
  | succ hops ih =>
    obtain ⟨l, direction, hl, hnear, hlivenear, rfl⟩ := hdistance.exists_link h
    obtain ⟨above, v, hv, hentity, rfl⟩ := ih hnear hlivenear (Nat.le_of_succ_le hdepth)
    obtain ⟨n, hn, -, -, hfar⟩ := exists_neighbour hroot hv hl hentity
    rw [← hfar] at hdistance hlive ⊢
    -- all that is above is nearer to the root, so the cycle check lets the entity pass
    have hfresh : n.entity ∉ v.entity :: above := by
      intro hmem
      obtain ⟨fewer, hle, hreach⟩ := reaches_of_mem_path h hroot hv hmem
      exact hdistance.least fewer (Nat.lt_succ_of_le hle) hreach
    have hexpands := expands_of_below h hroot hv
    obtain ⟨w, hw⟩ := Option.isSome_iff_exists.mp
      ((hexpands.expanded n hn).mpr ⟨hdepth, hfresh, hlive⟩)
    exact ⟨_, w, .child hv hn hw, hexpands.entity_eq hn hw, rfl⟩

theorem exists_below_iff : (∃ above v, root.Below above v ∧ v.entity = e) ↔
    ∃ hops ≤ depth, r.index.Reaches root.entity hops e ∧ r.index.Live e := by
  constructor
  · rintro ⟨above, v, hv, rfl⟩
    exact ⟨above.length, (viewOf_of_below hroot hv).1, reaches_of_below h hroot hv,
      live_of_below h hroot hv⟩
  · rintro ⟨hops, hle, hreach, hlive⟩
    obtain ⟨fewer, hfewer, hdistance⟩ := hreach.exists_distance
    obtain ⟨above, v, hv, hentity, -⟩ :=
      exists_below_of_distance h hroot hdistance hlive (hfewer.trans hle)
    exact ⟨above, v, hv, hentity⟩

theorem exists_lists_iff : (∃ n, root.Lists n ∧ n.link = l ∧ n.direction = direction) ↔
    r.index.HasLink l ∧ ∃ hops ≤ depth, r.index.Reaches root.entity hops (l.near direction) ∧
      r.index.Live (l.near direction) := by
  rw [← exists_below_iff h hroot]
  constructor
  · rintro ⟨n, ⟨above, v, hv, hn⟩, rfl, rfl⟩
    obtain ⟨l, direction, hl, hnear, rfl⟩ := (mem_neighbours_of_below hroot hv).mp hn
    exact ⟨hl, above, v, hv, hnear.symm⟩
  · rintro ⟨hl, above, v, hv, hentity⟩
    obtain ⟨n, hn, hlink, hdirection, -⟩ := exists_neighbour hroot hv hl hentity
    exact ⟨n, ⟨above, v, hv, hn⟩, hlink, hdirection⟩

theorem mentions_iff : root.Mentions e ↔
    ∃ hops ≤ depth + 1, r.index.Reaches root.entity hops e := by
  constructor
  · rintro (rfl | ⟨n, ⟨above, v, hv, hn⟩, rfl⟩)
    · exact ⟨0, Nat.zero_le _, .seed⟩
    · obtain ⟨hlevel, -, -⟩ := viewOf_of_below hroot hv
      exact ⟨above.length + 1, Nat.succ_le_succ hlevel,
        reaches_neighbour h hroot hv hn (reaches_of_below h hroot hv)⟩
  · rintro ⟨hops, hle, hreach⟩
    cases hops with
    | zero =>
      cases hreach
      exact .inl rfl
    | succ hops =>
      obtain ⟨l, direction, hl, hnear, hlive, rfl⟩ := hreach.exists_link h
      obtain ⟨above, v, hv, hentity⟩ := (exists_below_iff h hroot).mpr
        ⟨hops, Nat.le_of_succ_le_succ hle, hnear, hlive⟩
      obtain ⟨n, hn, -, -, hfar⟩ := exists_neighbour hroot hv hl hentity
      exact .inr ⟨n, ⟨above, v, hv, hn⟩, hfar⟩

section Span

variable {known : Nat} {s : Survey} (hs : s.Valid r.index)
  (hlevel : Survey.Level r.index root.entity (depth + 1) known s)

include hlevel

theorem exists_lists_iff_mem_links : (∃ n, root.Lists n ∧ n.link = l) ↔ l ∈ s.links := by
  rw [hlevel.links]
  constructor
  · rintro ⟨n, hn, rfl⟩
    obtain ⟨hl, hops, hle, hreach⟩ := (exists_lists_iff h hroot).mp ⟨n, hn, rfl, rfl⟩
    exact ⟨hl, n.direction, hops, Nat.lt_succ_of_le hle, hreach⟩
  · rintro ⟨hl, direction, hops, hlt, hreach⟩
    obtain ⟨n, hn, rfl, -⟩ :=
      (exists_lists_iff h hroot).mpr ⟨hl, hops, Nat.le_of_lt_succ hlt, hreach⟩
    exact ⟨n, hn, rfl⟩

theorem exists_node_of_below (hv : root.Below above v) :
    ∃ node, (s.graph r).node? v.entity = some node ∧ node.label = some v.label := by
  obtain ⟨hlength, -, hview⟩ := viewOf_of_below hroot hv
  have hmem : v.entity ∈ s.entities := (hlevel.within _).mpr
    ⟨above.length, Nat.le_succ_of_le hlength, reaches_of_below h hroot hv⟩
  refine ⟨r.nodeOf v.entity, Survey.node?_graph.mpr ⟨List.mem_map_of_mem hmem, rfl⟩, ?_⟩
  rw [Survey.label_nodeOf h (live_of_below h hroot hv), EntityView.label]
  conv_rhs => rw [viewOf_eq_some hview]
  rfl

include hs

theorem spans : root.Spans r.index (s.graph r) where
  nodes e := by
    rw [Survey.map_entity_graph, hlevel.within]
    exact mentions_iff h hroot
  edges k id := by
    constructor
    · rintro ⟨n, hn, rfl, rfl⟩
      have hl := (exists_lists_iff_mem_links h hroot hlevel).mp ⟨n, hn, rfl⟩
      exact ⟨_, List.mem_map_of_mem hl, rfl, rfl⟩
    · rintro ⟨edge, hedge, rfl, rfl⟩
      obtain ⟨l, hl, rfl⟩ := List.mem_map.mp hedge
      obtain ⟨n, hn, rfl⟩ := (exists_lists_iff_mem_links h hroot hlevel).mpr hl
      exact ⟨n, hn, rfl, rfl⟩
  same n hn edge hedge hkind hid := by
    have hlink := (exists_lists_iff_mem_links h hroot hlevel).mp ⟨n, hn, rfl⟩
    obtain ⟨l, hl, rfl⟩ := List.mem_map.mp hedge
    obtain rfl := h.link_eq (hs.hasLink l hl) (hs.hasLink _ hlink) hkind hid
    obtain ⟨above, v, hv, hn⟩ := hn
    obtain ⟨m, direction, -, -, rfl⟩ := (mem_neighbours_of_below hroot hv).mp hn
    exact ⟨hs.shows h hl, rfl⟩
  labelled above v hv := exists_node_of_below h hroot hlevel hv
  unlabelled node hnode := by
    obtain ⟨e, -, rfl⟩ := List.mem_map.mp hnode
    exact Survey.label_nodeOf_eq_none_iff h

end Span

end Resolver

/-- An entity is resolved if and only if the graph around it is built, and then the graph spans the
tree of its views. -/
theorem graph_spans_view_tree (r : Resolver) (hx : r.index.Reachable) (kind : RecordKind)
    (i : Identifier) (depth : Nat) :
    (∀ root, r.resolve kind i depth = .ok root →
      ∃ g, Graph.build r kind i (depth + 1) = .ok g ∧ root.Spans r.index g) ∧
    ∀ e, r.resolve kind i depth = .error e → Graph.build r kind i (depth + 1) = .error e := by
  have h := hx.sound
  constructor
  · intro root hresolve
    obtain ⟨hseed, hroot⟩ := Resolver.viewOf_of_resolve h hresolve
    obtain ⟨s, known, hbuild, hvalid, hlevel⟩ := Survey.exists_level_build h hseed (depth + 1)
    rw [← Resolver.entity_of_viewOf hroot] at hlevel
    exact ⟨_, hbuild, Resolver.spans h hroot hvalid hlevel⟩
  · intro e hresolve
    cases hseed : r.index.lookup kind i with
    | error e' =>
      obtain rfl : e' = e :=
        Except.error.inj ((Resolver.resolve_of_lookup_error hseed depth).symm.trans hresolve)
      exact Graph.build_of_lookup_error hseed (depth + 1)
    | ok seed =>
      obtain ⟨root, -, hok⟩ := Resolver.exists_viewOf_of_lookup h hseed depth
      rw [hok] at hresolve
      cases hresolve

/-- In the ring a tree comes to its entities along several paths, and the graph has each once. -/
theorem small_ring_spans_view_tree :
    let r : Resolver := ⟨.smallRing, .empty⟩
    ∃ root g, r.resolve .song (.iswc "1") 1 = .ok root ∧
      Graph.build r .song (.iswc "1") 2 = .ok g ∧ r.index.Reachable ∧ root.Spans r.index g ∧
      (root.neighbours.map fun n => (n.entity, n.view.map fun v => v.neighbours.map (·.entity))) =
        [(⟨.recording, 2⟩, some [⟨.song, 1⟩, ⟨.release, 3⟩]),
          (⟨.release, 3⟩, some [⟨.performer, 4⟩, ⟨.recording, 2⟩, ⟨.song, 1⟩])] := by
  intro r
  have htree : ((r.resolve .song (.iswc "1") 1).map fun root => root.neighbours.map fun n =>
      (n.entity, n.view.map fun v => v.neighbours.map (·.entity))).toOption =
      some [(⟨.recording, 2⟩, some [⟨.song, 1⟩, ⟨.release, 3⟩]),
        (⟨.release, 3⟩, some [⟨.performer, 4⟩, ⟨.recording, 2⟩, ⟨.song, 1⟩])] := by
    decide +kernel
  cases hresolve : r.resolve .song (.iswc "1") 1 with
  | error e =>
    rw [hresolve] at htree
    cases htree
  | ok root =>
    obtain ⟨hspans, -⟩ := graph_spans_view_tree r Index.reachable_smallRing .song (.iswc "1") 1
    obtain ⟨g, hbuild, hg⟩ := hspans root hresolve
    rw [hresolve] at htree
    exact ⟨root, g, rfl, hbuild, Index.reachable_smallRing, hg, Option.some.inj htree⟩

end MusicIndex
