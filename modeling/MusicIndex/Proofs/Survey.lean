import MusicIndex.Graph.Build
import MusicIndex.Proofs.Viewing

namespace MusicIndex

/-- The entities and the links that a walk has met, each once. -/
structure Survey where
  entities : List Entity
  links : List StoredLink

namespace Resolver

variable (r : Resolver)

def nodeOf (e : Entity) : GraphNode :=
  let fields := r.fieldsOf e.kind e.id
  ⟨e.kind, ⟨e.id, (r.index.identifiers.get? e.id).getD ⟨"", ""⟩⟩,
    if fields.isEmpty then none else some (label fields)⟩

def edgeOf (entities : List Entity) (l : StoredLink) : GraphEdge :=
  ⟨entities.idxOf (l.near .forward), entities.idxOf (l.near .reverse), l.kind, l.id, l.role,
    r.index.nameOf l.source⟩

def stepsFrom (e : Entity) : List (StoredLink × Direction) :=
  if (r.fieldsOf e.kind e.id).isEmpty then [] else r.links e.kind e.id

end Resolver

namespace Survey

def graph (r : Resolver) (s : Survey) : Graph :=
  ⟨s.entities.map r.nodeOf, s.links.map (r.edgeOf s.entities)⟩

def walk (r : Resolver) (known : Nat) (s : Survey) : Graph.Walk :=
  ⟨s.graph r, (s.entities.drop known).map r.nodeOf⟩

def add (s : Survey) (step : StoredLink × Direction) : Survey :=
  ⟨addNew s.entities (step.1.near step.2.opposite), addNew s.links step.1⟩

/-- All links of all but the first so many entities. -/
def round (r : Resolver) (known : Nat) (s : Survey) : Survey :=
  ((s.entities.drop known).flatMap r.stepsFrom).foldl add s

def explore (r : Resolver) : Nat → Nat → Survey → Survey
  | 0, _, s => s
  | hops + 1, known, s => explore r hops s.entities.length (s.round r known)

/-- Entities and links are there, each once, and a link with both its ends. -/
structure Valid (x : Index) (s : Survey) : Prop where
  entities : s.entities.Nodup
  links : s.links.Nodup
  known : ∀ e ∈ s.entities, (x.identifier? e.id).isSome
  hasLink : ∀ l ∈ s.links, x.HasLink l
  ends : ∀ l ∈ s.links, ∀ direction, l.near direction ∈ s.entities

end Survey

theorem findIdx?_beq {α : Type} [DecidableEq α] (l : List α) (a : α) :
    l.findIdx? (· == a) = if a ∈ l then some (l.idxOf a) else none := by
  induction l with
  | nil => rfl
  | cons b l ih =>
    rw [List.findIdx?_cons, ih]
    by_cases hb : b = a
    · subst hb
      simp
    · simp [hb, Ne.symm hb]

theorem drop_addNew {α : Type} [DecidableEq α] {l : List α} {known : Nat} (h : known ≤ l.length)
    (a : α) : (addNew l a).drop known = l.drop known ++ (if a ∈ l then [] else [a]) := by
  rw [addNew]
  split
  · rw [List.append_nil]
  · rw [List.drop_append_of_le_length h]

namespace Survey

variable {r : Resolver} {s : Survey} {known : Nat} {l : StoredLink} {direction : Direction}

theorem indexOf?_graph (entities : List Entity) (edges : List GraphEdge) (e : Entity) :
    (Graph.mk (entities.map r.nodeOf) edges).indexOf? e =
      if e ∈ entities then some (entities.idxOf e) else none := by
  rw [Graph.indexOf?, List.findIdx?_map]
  exact findIdx?_beq entities e

section Sound

variable (h : r.index.Sound)

include h

theorem label_nodeOf_eq_none_iff {e : Entity} :
    (r.nodeOf e).label = none ↔ ¬ r.index.Live e := by
  rw [← Resolver.isEmpty_fieldsOf h, Resolver.nodeOf]
  dsimp only
  split
  · rename_i hempty
    exact iff_of_true rfl hempty
  · rename_i hempty
    exact iff_of_false (Option.some_ne_none _) hempty

theorem label_nodeOf {e : Entity} (hlive : r.index.Live e) :
    (r.nodeOf e).label = some (label (r.fieldsOf e.kind e.id)) := by
  have hfields := mt (Resolver.isEmpty_fieldsOf h).mp (not_not.mpr hlive)
  rw [Resolver.nodeOf]
  exact if_neg hfields

theorem addNode_eq {kind : RecordKind} {i : StoredIdentifier}
    (hi : r.index.identifier? i.id = some i) (entities : List Entity) (edges : List GraphEdge) :
    Graph.addNode r ⟨entities.map r.nodeOf, edges⟩ kind i =
      .ok ((addNew entities ⟨kind, i.id⟩).idxOf ⟨kind, i.id⟩,
        if ⟨kind, i.id⟩ ∈ entities then none else some (r.nodeOf ⟨kind, i.id⟩),
        ⟨(addNew entities ⟨kind, i.id⟩).map r.nodeOf, edges⟩) := by
  rw [Graph.addNode, indexOf?_graph]
  by_cases hmem : ⟨kind, i.id⟩ ∈ entities
  · simp only [if_pos hmem, addNew_of_mem hmem]
    rfl
  · obtain ⟨i', hget, he⟩ := Option.map_eq_some_iff.mp hi
    have hnode : r.nodeOf ⟨kind, i.id⟩ = ⟨kind, i,
        if (r.fieldsOf kind i.id).isEmpty then none else some (label (r.fieldsOf kind i.id))⟩ := by
      rw [Resolver.nodeOf, hget, Option.getD_some, he]
    have hindex : (entities ++ [Entity.mk kind i.id]).idxOf ⟨kind, i.id⟩ =
        (entities.map r.nodeOf).length := by
      rw [List.idxOf_append_of_notMem hmem, List.idxOf_cons_self, List.length_map, Nat.add_zero]
    simp only [if_neg hmem, addNew_of_not_mem hmem, Resolver.fields_eq h, hnode, hindex,
      List.map_append, List.map_singleton]
    rfl

theorem addNode_near (hl : r.index.HasLink l) (direction : Direction) (entities : List Entity)
    (edges : List GraphEdge) :
    Graph.addNode r ⟨entities.map r.nodeOf, edges⟩ (l.kind.nearKind direction)
        (l.far direction.opposite) =
      .ok ((addNew entities (l.near direction)).idxOf (l.near direction),
        if l.near direction ∈ entities then none else some (r.nodeOf (l.near direction)),
        ⟨(addNew entities (l.near direction)).map r.nodeOf, edges⟩) :=
  addNode_eq h (hl.identifier?_far direction.opposite) entities edges

theorem hasLink_graph (hs : s.Valid r.index) (hl : r.index.HasLink l) :
    (s.graph r).hasLink l.kind l.id = true ↔ l ∈ s.links := by
  simp only [Graph.hasLink, graph, List.any_map, List.any_eq_true, Function.comp_apply,
    Bool.and_eq_true, beq_iff_eq]
  constructor
  · rintro ⟨m, hm, hkind, hid⟩
    obtain rfl := h.link_eq (hs.hasLink m hm) hl hkind hid
    exact hm
  · intro hmem
    exact ⟨l, hmem, rfl, rfl⟩

end Sound

theorem edgeOf_addNew {entities : List Entity} (hends : ∀ direction, l.near direction ∈ entities)
    (e : Entity) : r.edgeOf (addNew entities e) l = r.edgeOf entities l := by
  have hindex (direction : Direction) :
      (addNew entities e).idxOf (l.near direction) = entities.idxOf (l.near direction) :=
    Nat.succ_injective (number_addNew (hends direction) e)
  rw [Resolver.edgeOf, hindex, hindex]
  rfl

theorem graph_edges_addNew (hs : s.Valid r.index) (e : Entity) :
    s.links.map (r.edgeOf (addNew s.entities e)) = s.links.map (r.edgeOf s.entities) :=
  List.map_congr_left fun l hl => edgeOf_addNew (hs.ends l hl) e

theorem Valid.add (hs : s.Valid r.index) (hl : r.index.HasLink l)
    (hnear : l.near direction ∈ s.entities) : (s.add (l, direction)).Valid r.index where
  entities := nodup_addNew hs.entities _
  links := nodup_addNew hs.links _
  known e he := by
    rcases mem_addNew.mp he with he | rfl
    · exact hs.known e he
    · exact Option.isSome_iff_exists.mpr ⟨_, hl.identifier?_far direction.opposite.opposite⟩
  hasLink m hm := by
    rcases mem_addNew.mp hm with hm | rfl
    · exact hs.hasLink m hm
    · exact hl
  ends m hm d := by
    apply mem_addNew.mpr
    rcases mem_addNew.mp hm with hm | rfl
    · exact .inl (hs.ends m hm d)
    · cases d <;> cases direction
      · exact .inl hnear
      · exact .inr rfl
      · exact .inr rfl
      · exact .inl hnear

theorem addNew_ends {entities : List Entity} (hnear : l.near direction ∈ entities) :
    addNew (addNew entities (l.near .forward)) (l.near .reverse) =
      addNew entities (l.near direction.opposite) := by
  cases direction with
  | forward =>
    rw [addNew_of_mem hnear]
    rfl
  | reverse => exact addNew_of_mem (mem_addNew.mpr (.inl hnear))

theorem walk_add_of_new (hs : s.Valid r.index) (hknown : known ≤ s.entities.length)
    (hnew : l ∉ s.links) :
    (s.add (l, direction)).walk r known =
      ⟨⟨(addNew s.entities (l.near direction.opposite)).map r.nodeOf,
          s.links.map (r.edgeOf s.entities) ++
            [r.edgeOf (addNew s.entities (l.near direction.opposite)) l]⟩,
        (s.walk r known).next ++
          (if l.near direction.opposite ∈ s.entities then none
            else some (r.nodeOf (l.near direction.opposite))).toList⟩ := by
  have hnext : ((addNew s.entities (l.near direction.opposite)).drop known).map r.nodeOf =
      (s.walk r known).next ++
        (if l.near direction.opposite ∈ s.entities then none
          else some (r.nodeOf (l.near direction.opposite))).toList := by
    rw [drop_addNew hknown, List.map_append]
    split <;> rfl
  rw [walk, graph, ← hnext, ← graph_edges_addNew hs (l.near direction.opposite)]
  simp only [add, addNew_of_not_mem hnew, List.map_append, List.map_singleton]

theorem follow_walk (h : r.index.Sound) (hs : s.Valid r.index) (hl : r.index.HasLink l)
    (hnear : l.near direction ∈ s.entities) (hknown : known ≤ s.entities.length) :
    Graph.follow r (s.walk r known) (l, direction) = .ok ((s.add (l, direction)).walk r known) := by
  unfold Graph.follow
  by_cases hmem : l ∈ s.links
  · have hfar := hs.ends l hmem direction.opposite
    have hadd : s.add (l, direction) = s := by
      rw [add, addNew_of_mem hfar, addNew_of_mem hmem]
    have hhas : (s.walk r known).graph.hasLink l.kind l.id = true :=
      (hasLink_graph h hs hl).mpr hmem
    rw [hadd]
    simp only [hhas, if_true]
    rfl
  · have hhas : ¬ (s.walk r known).graph.hasLink l.kind l.id = true :=
      mt (hasLink_graph h hs hl).mp hmem
    have ha : Graph.addNode r (s.walk r known).graph l.kind.ends.1 l.a = .ok _ :=
      addNode_near h hl .forward _ _
    have hb (entities : List Entity) (edges : List GraphEdge) :
        Graph.addNode r ⟨entities.map r.nodeOf, edges⟩ l.kind.ends.2 l.b = .ok _ :=
      addNode_near h hl .reverse entities edges
    have horigin : (addNew s.entities (l.near .forward)).idxOf (l.near .forward) =
        (addNew s.entities (l.near direction.opposite)).idxOf (l.near .forward) := by
      rw [← addNew_ends hnear]
      exact Nat.succ_injective (number_addNew (mem_addNew_self _ _) _).symm
    simp only [if_neg hhas, ha, hb, h.sourceName_of_link hl, bind, Except.bind, addNew_ends hnear,
      horigin, walk_add_of_new hs hknown hmem]
    -- the near end is known, so only the far end can be new
    cases direction with
    | forward =>
      rw [addNew_of_mem hnear]
      rfl
    | reverse => rfl

theorem add_entities_length (s : Survey) (step : StoredLink × Direction) :
    s.entities.length ≤ (s.add step).entities.length := by
  unfold add addNew
  dsimp only
  split
  · exact le_rfl
  · rw [List.length_append]
    exact Nat.le_add_right _ _

theorem foldlM_follow (h : r.index.Sound) {steps : List (StoredLink × Direction)}
    (hsteps : ∀ step ∈ steps, r.index.HasLink step.1 ∧ step.1.near step.2 ∈ s.entities)
    (hs : s.Valid r.index) (hknown : known ≤ s.entities.length) :
    steps.foldlM (Graph.follow r) (s.walk r known) = .ok ((steps.foldl add s).walk r known) ∧
      (steps.foldl add s).Valid r.index := by
  induction steps generalizing s with
  | nil => exact ⟨rfl, hs⟩
  | cons step steps ih =>
    obtain ⟨⟨hl, hnear⟩, hrest⟩ := List.forall_mem_cons.mp hsteps
    have hvalid := hs.add hl hnear
    have hlength := hknown.trans (add_entities_length s step)
    have hmore : ∀ other ∈ steps,
        r.index.HasLink other.1 ∧ other.1.near other.2 ∈ (s.add step).entities := by
      intro other ho
      obtain ⟨hlo, hno⟩ := hrest other ho
      exact ⟨hlo, mem_addNew.mpr (.inl hno)⟩
    rw [List.foldlM_cons, follow_walk h hs hl hnear hknown]
    exact ih hmore hvalid hlength

theorem visit_nodeOf (w : Graph.Walk) (e : Entity) :
    Graph.visit r w (r.nodeOf e) = (r.stepsFrom e).foldlM (Graph.follow r) w := by
  unfold Graph.visit Resolver.stepsFrom Resolver.nodeOf
  by_cases hempty : (r.fieldsOf e.kind e.id).isEmpty = true
  · simp only [hempty, if_true]
    rfl
  · simp only [hempty, if_false, Bool.false_eq_true]

theorem foldlM_visit (entities : List Entity) (w : Graph.Walk) :
    (entities.map r.nodeOf).foldlM (Graph.visit r) w =
      (entities.flatMap r.stepsFrom).foldlM (Graph.follow r) w := by
  induction entities generalizing w with
  | nil => rfl
  | cons e entities ih =>
    rw [List.map_cons, List.foldlM_cons, visit_nodeOf, List.flatMap_cons, List.foldlM_append]
    congr 1
    funext w
    exact ih w

theorem mem_stepsFrom (h : r.index.Sound) {e : Entity} {step : StoredLink × Direction} :
    step ∈ r.stepsFrom e ↔
      r.index.HasLink step.1 ∧ step.1.near step.2 = e ∧ r.index.Live e := by
  obtain ⟨l, direction⟩ := step
  rw [Resolver.stepsFrom]
  split
  · rename_i hempty
    have hdead := (Resolver.isEmpty_fieldsOf h).mp hempty
    constructor
    · intro hmem
      cases hmem
    · rintro ⟨-, -, hlive⟩
      exact absurd hlive hdead
  · rename_i hempty
    have hlive := not_not.mp (mt (Resolver.isEmpty_fieldsOf h).mpr hempty)
    rw [Resolver.mem_links]
    constructor
    · rintro ⟨hl, hnear⟩
      exact ⟨hl, hnear, hlive⟩
    · rintro ⟨hl, hnear, -⟩
      exact ⟨hl, hnear⟩

theorem mem_steps (h : r.index.Sound) {entities : List Entity} {step : StoredLink × Direction} :
    step ∈ entities.flatMap r.stepsFrom ↔
      r.index.HasLink step.1 ∧ step.1.near step.2 ∈ entities ∧
        r.index.Live (step.1.near step.2) := by
  rw [List.mem_flatMap]
  constructor
  · rintro ⟨e, he, hmem⟩
    obtain ⟨hl, rfl, hlive⟩ := (mem_stepsFrom h).mp hmem
    exact ⟨hl, he, hlive⟩
  · rintro ⟨hl, he, hlive⟩
    exact ⟨_, he, (mem_stepsFrom h).mpr ⟨hl, rfl, hlive⟩⟩

theorem foldlM_visit_walk (h : r.index.Sound) (hs : s.Valid r.index) (known : Nat) :
    ((s.entities.drop known).map r.nodeOf).foldlM (Graph.visit r) ⟨s.graph r, []⟩ =
        .ok ((s.round r known).walk r s.entities.length) ∧
      (s.round r known).Valid r.index := by
  have hstart : (⟨s.graph r, []⟩ : Graph.Walk) = s.walk r s.entities.length := by
    rw [walk, List.drop_length, List.map_nil]
  rw [foldlM_visit, hstart]
  apply foldlM_follow h _ hs le_rfl
  intro step hstep
  obtain ⟨hl, hnear, -⟩ := (mem_steps h).mp hstep
  exact ⟨hl, List.mem_of_mem_drop hnear⟩

theorem explore_of_done (r : Resolver) (hops : Nat) (hdone : s.entities.drop known = []) :
    s.explore r hops known = s := by
  induction hops generalizing known with
  | zero => rfl
  | succ hops ih =>
    rw [explore, round, hdone]
    exact ih List.drop_length

/-- A walk goes on as its survey does. -/
theorem walk_explore (h : r.index.Sound) (hops : Nat) (hs : s.Valid r.index) (known : Nat) :
    Graph.walk r hops ((s.entities.drop known).map r.nodeOf) (s.graph r) =
        .ok ((s.explore r hops known).graph r) ∧
      (s.explore r hops known).Valid r.index := by
  induction hops generalizing s known with
  | zero => exact ⟨rfl, hs⟩
  | succ hops ih =>
    obtain ⟨hround, hvalid⟩ := foldlM_visit_walk h hs known
    obtain ⟨hrest, hend⟩ := ih hvalid s.entities.length
    refine ⟨?_, hend⟩
    cases hdrop : (s.entities.drop known).map r.nodeOf with
    | nil =>
      rw [explore_of_done r _ (List.map_eq_nil_iff.mp hdrop)]
      rfl
    | cons node rest =>
      rw [hdrop] at hround
      rw [Graph.walk, hround]
      exact hrest

def around (r : Resolver) (seed : Entity) (hops : Nat) : Survey :=
  explore r hops 0 ⟨[seed], []⟩

theorem valid_seed {x : Index} {e : Entity} (he : (x.identifier? e.id).isSome) :
    Valid x ⟨[e], []⟩ where
  entities := List.nodup_singleton e
  links := List.nodup_nil
  known f hf := by
    obtain rfl := List.mem_singleton.mp hf
    exact he
  hasLink l hl := by cases hl
  ends l hl := by cases hl

theorem valid_seed_of_lookup (h : r.index.Sound) {kind : RecordKind} {i : Identifier}
    {seed : StoredIdentifier} (hseed : r.index.lookup kind i = .ok seed) :
    Valid r.index ⟨[⟨kind, seed.id⟩], []⟩ :=
  valid_seed (Option.isSome_iff_exists.mpr
    ⟨seed, h.identifier?_of_find? (h.lookup_eq_ok_iff.mp hseed).1⟩)

/-- A graph is that of the survey around its seed. -/
theorem build_eq (h : r.index.Sound) {kind : RecordKind} {i : Identifier} {seed : StoredIdentifier}
    (hseed : r.index.lookup kind i = .ok seed) (hops : Nat) :
    Graph.build r kind i hops = .ok ((around r ⟨kind, seed.id⟩ hops).graph r) ∧
      (around r ⟨kind, seed.id⟩ hops).Valid r.index := by
  have hfound := h.identifier?_of_find? (h.lookup_eq_ok_iff.mp hseed).1
  obtain ⟨hwalk, hend⟩ := walk_explore h hops (valid_seed_of_lookup h hseed) 0
  have hnode : Graph.addNode r Graph.empty kind seed =
      .ok (0, some (r.nodeOf ⟨kind, seed.id⟩), ⟨[r.nodeOf ⟨kind, seed.id⟩], []⟩) := by
    have hadd : Graph.addNode r Graph.empty kind seed = .ok _ := addNode_eq h hfound [] []
    rw [addNew_of_not_mem List.not_mem_nil, List.nil_append, List.idxOf_cons_self] at hadd
    exact hadd
  refine ⟨?_, hend⟩
  unfold Graph.build
  simp only [hseed, hnode, bind, Except.bind]
  exact hwalk

end Survey

theorem Graph.build_of_lookup_error {r : Resolver} {kind : RecordKind} {i : Identifier} {e : Error}
    (hseed : r.index.lookup kind i = .error e) (depth : Nat) :
    Graph.build r kind i depth = .error e := by
  rw [Graph.build, hseed]
  rfl

end MusicIndex
