import MusicIndex.Graph.Dot
import MusicIndex.Proofs.ViewDepth

namespace MusicIndex

theorem prefix_addNew {α : Type} [DecidableEq α] (l : List α) (a : α) : l <+: addNew l a := by
  rw [addNew]
  split
  · exact List.prefix_rfl
  · exact List.prefix_append l [a]

namespace Index

variable {x : Index} {seed e : Entity} {n : Nat}

theorem AtDistance.exists_descent (hx : x.Sound) (h : x.AtDistance seed n e) (hlive : x.Live e) :
    ∃ path, path.length = n ∧ x.Descent (e :: path) ∧
      ∀ f ∈ path, ∃ m < n, x.AtDistance seed m f := by
  induction n generalizing e with
  | zero =>
    exact ⟨[], rfl, ⟨List.nodup_singleton e, List.forall_mem_singleton.mpr hlive⟩,
      fun f hf => nomatch hf⟩
  | succ n ih =>
    obtain ⟨l, direction, -, hnear, hlivenear, rfl⟩ := h.exists_link hx
    obtain ⟨path, rfl, hdescent, hcloser⟩ := ih hnear hlivenear
    have hall : ∀ f ∈ l.near direction :: path,
        ∃ m < path.length + 1, x.AtDistance seed m f := by
      intro f hf
      rcases List.mem_cons.mp hf with rfl | hf
      · exact ⟨_, Nat.lt_succ_self _, hnear⟩
      · obtain ⟨m, hm, hdistance⟩ := hcloser f hf
        exact ⟨m, Nat.lt_succ_of_lt hm, hdistance⟩
    have hfresh : l.near direction.opposite ∉ l.near direction :: path := by
      intro hmem
      obtain ⟨m, hm, hdistance⟩ := hall _ hmem
      exact hm.ne (hdistance.unique h)
    exact ⟨_, rfl, hdescent.cons hfresh hlive, hall⟩

theorem AtDistance.lt_card (hx : x.Sound) (h : x.AtDistance seed n e) (hlive : x.Live e) :
    n < x.entities.card := by
  obtain ⟨path, rfl, hdescent, -⟩ := h.exists_descent hx hlive
  exact hdescent.length_le hx

end Index

/-- All that a graph has comes first, and in the same order, in another one. -/
structure Graph.Begins (g other : Graph) : Prop where
  nodes : g.nodes <+: other.nodes
  edges : g.edges <+: other.edges

namespace Survey

structure Begins (s other : Survey) : Prop where
  entities : s.entities <+: other.entities
  links : s.links <+: other.links

variable {r : Resolver} {s t u : Survey} {seed : Entity} {depth deeper hops known : Nat}

theorem Begins.refl (s : Survey) : s.Begins s :=
  ⟨List.prefix_rfl, List.prefix_rfl⟩

theorem Begins.trans (hst : s.Begins t) (htu : t.Begins u) : s.Begins u :=
  ⟨hst.entities.trans htu.entities, hst.links.trans htu.links⟩

theorem begins_add (s : Survey) (step : StoredLink × Direction) : s.Begins (s.add step) :=
  ⟨prefix_addNew _ _, prefix_addNew _ _⟩

theorem begins_foldl (steps : List (StoredLink × Direction)) (s : Survey) :
    s.Begins (steps.foldl add s) := by
  induction steps generalizing s with
  | nil => exact .refl s
  | cons step steps ih => exact (begins_add s step).trans (ih (s.add step))

theorem begins_explore (r : Resolver) (known : Nat) (s : Survey) (hle : depth ≤ deeper) :
    (s.explore r depth known).Begins (s.explore r deeper known) := by
  induction depth generalizing deeper known s with
  | zero =>
    induction deeper generalizing known s with
    | zero => exact .refl s
    | succ deeper ih => exact (begins_foldl _ s).trans (ih _ _ (Nat.zero_le _))
  | succ depth ih =>
    obtain ⟨deeper, rfl⟩ := Nat.exists_eq_succ_of_ne_zero (Nat.ne_zero_of_lt hle)
    exact ih _ _ (Nat.le_of_succ_le_succ hle)

theorem Valid.begins_graph (hs : s.Valid r.index) (h : s.Begins t) :
    (s.graph r).Begins (t.graph r) where
  nodes := h.entities.map r.nodeOf
  edges := by
    obtain ⟨more, hmore⟩ := h.entities
    have hedge : ∀ l ∈ s.links, r.edgeOf s.entities l = r.edgeOf t.entities l := by
      intro l hl
      rw [Resolver.edgeOf, Resolver.edgeOf, ← hmore,
        List.idxOf_append_of_mem (hs.ends l hl .forward),
        List.idxOf_append_of_mem (hs.ends l hl .reverse)]
    rw [graph, graph, List.map_congr_left hedge]
    exact h.links.map _

theorem Level.round_eq_self (hx : r.index.Sound) (hs : s.Valid r.index)
    (h : Level r.index seed hops known s) (hcard : r.index.entities.card ≤ hops) :
    s.round r known = s := by
  have hnone : (s.entities.drop known).flatMap r.stepsFrom = [] := by
    rw [List.flatMap_eq_nil_iff]
    intro e he
    have hdistance : r.index.AtDistance seed hops e := by
      refine ⟨h.reaches_of_mem_drop hs he, fun fewer hfewer hreach => ?_⟩
      have htake := (h.before e).mpr ⟨fewer, hfewer, hreach⟩
      exact List.disjoint_take_drop hs.entities le_rfl htake he
    have hdead : ¬ r.index.Live e := fun hlive => (hdistance.lt_card hx hlive).not_ge hcard
    rw [Resolver.stepsFrom, if_pos ((Resolver.isEmpty_fieldsOf hx).mpr hdead)]
  rw [Survey.round, hnone]
  rfl

theorem Level.explore_eq_self (hx : r.index.Sound) (hs : s.Valid r.index)
    (h : Level r.index seed hops known s) (hcard : r.index.entities.card ≤ hops) (more : Nat) :
    s.explore r more known = s := by
  cases more with
  | zero => rfl
  | succ more =>
    rw [Survey.explore, h.round_eq_self hx hs hcard]
    exact explore_of_done r more List.drop_length

/-- Rounds that go far enough all end with the same survey. -/
theorem Level.explore_eq (hx : r.index.Sound) (hs : s.Valid r.index)
    (h : Level r.index seed hops known s) (hdepth : r.index.entities.card ≤ hops + depth)
    (hdeeper : r.index.entities.card ≤ hops + deeper) :
    s.explore r depth known = s.explore r deeper known := by
  induction depth generalizing s hops known deeper with
  | zero => exact (h.explore_eq_self hx hs hdepth deeper).symm
  | succ depth ih =>
    cases deeper with
    | zero => exact h.explore_eq_self hx hs hdeeper _
    | succ deeper =>
      have hvalid := (foldlM_visit_walk hx hs known).2
      rw [Nat.add_succ, ← Nat.succ_add] at hdepth hdeeper
      exact ih hvalid (h.round hx hs hvalid.entities) hdepth hdeeper

end Survey

/-- A greater depth adds to the end of a graph. The graph to a smaller depth comes first in the
graph to a greater one, with the same numbers for its nodes; and from the number of live entities on
all depths give the same graph. -/
theorem deeper_graph_begins_alike (r : Resolver) (hx : r.index.Reachable) (kind : RecordKind)
    (i : Identifier) :
    (∀ depth deeper, depth ≤ deeper → ∀ g, Graph.build r kind i depth = .ok g →
      ∃ more, Graph.build r kind i deeper = .ok more ∧ g.Begins more) ∧
    ∀ depth other, r.index.entities.card ≤ depth → r.index.entities.card ≤ other →
      Graph.build r kind i depth = Graph.build r kind i other ∧
      (Graph.build r kind i depth).map Graph.dot = (Graph.build r kind i other).map Graph.dot := by
  have h := hx.sound
  cases hseed : r.index.lookup kind i with
  | error e =>
    constructor
    · intro depth deeper _ g hg
      rw [Graph.build_of_lookup_error hseed] at hg
      cases hg
    · intro depth other _ _
      rw [Graph.build_of_lookup_error hseed, Graph.build_of_lookup_error hseed]
      exact ⟨rfl, rfl⟩
  | ok seed =>
    have hbuild (depth : Nat) := Survey.build_eq h hseed depth
    constructor
    · intro depth deeper hle g hg
      obtain ⟨hok, hvalid⟩ := hbuild depth
      obtain rfl := Except.ok.inj (hok.symm.trans hg)
      exact ⟨_, (hbuild deeper).1, hvalid.begins_graph (Survey.begins_explore r 0 _ hle)⟩
    · intro depth other hdepth hother
      have hseeded := Survey.valid_seed_of_lookup h hseed
      have hsame :
          Survey.around r ⟨kind, seed.id⟩ depth = Survey.around r ⟨kind, seed.id⟩ other := by
        apply (Survey.level_seed r.index ⟨kind, seed.id⟩).explore_eq h hseeded
        · rwa [Nat.zero_add]
        · rwa [Nat.zero_add]
      rw [(hbuild depth).1, (hbuild other).1, hsame]
      exact ⟨rfl, rfl⟩

/-- Three live entities are in the ring, so no number of hops adds to the graph to depth 3, which
begins with the graph to depth 1. -/
theorem deeper_graphs_of_small_ring :
    let r : Resolver := ⟨.smallRing, .empty⟩
    let greatest := 2 ^ 64 - 1
    r.index.Reachable ∧ r.index.entities.card = 3 ∧ ∃ near far,
      Graph.build r .song (.iswc "1") 1 = .ok near ∧
      Graph.build r .song (.iswc "1") 3 = .ok far ∧
      Graph.build r .song (.iswc "1") greatest = .ok far ∧ near.Begins far ∧
      (near.nodes.map (·.entity), near.edges.length) =
        ([⟨.song, 1⟩, ⟨.recording, 2⟩, ⟨.release, 3⟩], 2) ∧
      (far.nodes.map (·.entity), far.edges.length) =
        ([⟨.song, 1⟩, ⟨.recording, 2⟩, ⟨.release, 3⟩, ⟨.performer, 4⟩], 4) := by
  intro r greatest
  obtain ⟨hbegins, hsame⟩ :=
    deeper_graph_begins_alike r Index.reachable_smallRing .song (.iswc "1")
  have hcard : r.index.entities.card = 3 := by decide +kernel
  let shape (g : Graph) : List Entity × Nat := (g.nodes.map (·.entity), g.edges.length)
  have hshape : ((Graph.build r .song (.iswc "1") 1).map shape).toOption =
      some ([⟨.song, 1⟩, ⟨.recording, 2⟩, ⟨.release, 3⟩], 2) := by
    decide +kernel
  have hfarther : ((Graph.build r .song (.iswc "1") 3).map shape).toOption =
      some ([⟨.song, 1⟩, ⟨.recording, 2⟩, ⟨.release, 3⟩, ⟨.performer, 4⟩], 4) := by
    decide +kernel
  obtain ⟨near, hnear, hnearshape⟩ := exists_ok_of_toOption_map hshape
  obtain ⟨far, hfar, hfarshape⟩ := exists_ok_of_toOption_map hfarther
  obtain ⟨more, hmore, hbegin⟩ := hbegins 1 3 (by decide) near hnear
  obtain rfl : more = far := Except.ok.inj (hmore.symm.trans hfar)
  obtain ⟨hgreatest, -⟩ := hsame greatest 3 (by rw [hcard]; decide) (by rw [hcard])
  exact ⟨Index.reachable_smallRing, hcard, near, more, hnear, hfar, hgreatest.trans hfar, hbegin,
    hnearshape, hfarshape⟩

end MusicIndex
