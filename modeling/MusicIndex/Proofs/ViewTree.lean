import MusicIndex.Proofs.PathSet
import MusicIndex.Proofs.Viewing
import Mathlib.Data.Prod.Lex

namespace MusicIndex

def EntityView.entity (v : EntityView) : Entity :=
  ⟨v.kind, v.identifier.id⟩

namespace Neighbour

variable {V : Type}

def entity (n : Neighbour V) : Entity :=
  ⟨n.kind, n.identifier.id⟩

/-- The place of a neighbour in a list: kinds and directions in the order in which links touch an
entity of a kind, and links of one kind and direction by number. -/
def rank (near : RecordKind) (n : Neighbour V) : Nat ×ₗ Nat :=
  toLex ((LinkKind.touching near).idxOf (n.link.kind, n.direction), n.link.id)

/-- What the row of a link says of the entity at its other end. -/
structure Shows (x : Index) (e : Entity) (n : Neighbour V) (row : Row LinkClaim) : Prop where
  link : x.storedLink? n.link.kind row = some n.link
  near : row.content.near n.link.kind n.direction = e
  far : row.content.near n.link.kind n.direction.opposite = n.entity
  identifier : x.identifier? n.identifier.id = some n.identifier
  source : x.sourceName row.content.source = .ok n.source

end Neighbour

namespace EntityView

/-- The views of a tree, each with the entities above it, the nearest first. -/
inductive Below (root : EntityView) : List Entity → EntityView → Prop where
  | root : Below root [] root
  | child {above : List Entity} {v w : EntityView} {n : Neighbour EntityView} :
    Below root above v → n ∈ v.neighbours → n.view = some w → Below root (v.entity :: above) w

/-- The neighbours of a view are the links that touch its entity, each once for every direction. -/
structure ListsLinks (x : Index) (v : EntityView) : Prop where
  listed : ∀ kind direction, ∀ row ∈ (x.links kind).rows,
    row.content.near kind direction = v.entity →
    ∃ n ∈ v.neighbours, n.link.kind = kind ∧ n.direction = direction ∧ n.Shows x v.entity row
  shown : ∀ n ∈ v.neighbours, ∃ row ∈ (x.links n.link.kind).rows, n.Shows x v.entity row
  sorted : v.neighbours.Pairwise fun n m => n.rank v.kind < m.rank v.kind

/-- Exactly those neighbours have views that are near enough, not above the view, and live. -/
structure Expands (x : Index) (depth : Nat) (above : List Entity) (v : EntityView) : Prop where
  expanded : ∀ n ∈ v.neighbours, n.view.isSome ↔
    above.length + 1 ≤ depth ∧ n.entity ∉ v.entity :: above ∧ x.Live n.entity
  own : ∀ n ∈ v.neighbours, ∀ w, n.view = some w → w.kind = n.kind ∧ w.identifier = n.identifier

theorem Expands.entity_eq {x : Index} {depth : Nat} {above : List Entity} {v w : EntityView}
    {n : Neighbour EntityView} (h : v.Expands x depth above) (hn : n ∈ v.neighbours)
    (hw : n.view = some w) : w.entity = n.entity := by
  obtain ⟨hkind, hid⟩ := h.own n hn w hw
  rw [entity, hkind, hid]
  rfl

end EntityView

namespace LinkKind

theorem nodup_touching (near : RecordKind) : (touching near).Nodup := by
  cases near <;> decide

theorem pairwise_touching (near : RecordKind) : (touching near).Pairwise fun k m =>
    (touching near).idxOf k < (touching near).idxOf m := by
  rw [List.pairwise_iff_getElem]
  intro i j hi hj hlt
  rw [(nodup_touching near).idxOf_getElem, (nodup_touching near).idxOf_getElem]
  exact hlt

end LinkKind

namespace Index

variable {x : Index}

theorem Sound.sorted_linksOf (h : x.Sound) (kind : LinkKind) (direction : Direction) (id : Nat) :
    (x.linksOf kind direction id).Pairwise (·.id < ·.id) := by
  rw [linksOf, List.pairwise_filterMap]
  apply (h.numbered.links kind).sorted.imp
  intro row other hlt l hl m hm
  have hid {row : Row LinkClaim} {l : StoredLink}
      (hl : l ∈ if nearEnd row.content direction = id then x.storedLink? kind row else none) :
      l.id = row.id := by
    split at hl
    · exact (storedLink?_kind hl).2.1
    · cases hl
  rw [hid hl, hid hm]
  exact hlt

end Index

namespace Resolver

def expandOf (r : Resolver) : Nat → List Entity → RecordKind → StoredIdentifier → Option EntityView
  | 0, _, _, _ => none
  | depth + 1, path, kind, i => if ⟨kind, i.id⟩ ∈ path then none else r.viewOf depth path kind i

def neighbourOf (r : Resolver) (depth : Nat) (path : List Entity) (step : StoredLink × Direction) :
    Neighbour EntityView where
  kind := step.1.kind.farKind step.2
  direction := step.2
  link := step.1
  source := r.index.nameOf step.1.source
  view := r.expandOf depth path (step.1.kind.farKind step.2) (step.1.far step.2)

variable {r : Resolver} {depth : Nat} {path above : List Entity} {kind : RecordKind}
  {i seed : StoredIdentifier} {v w root : EntityView} {n : Neighbour EntityView}

theorem viewOf_eq (depth : Nat) : r.viewOf depth = r.viewFrom (r.expandOf depth) := by
  cases depth with
  | zero => rfl
  | succ depth => rfl

theorem viewOf_eq_some (h : r.viewOf depth path kind i = some v) :
    v = .mk kind i (r.fieldsOf kind i.id) (r.aliasesOf kind i.id)
      ((r.links kind i.id).map (r.neighbourOf depth (⟨kind, i.id⟩ :: path))) := by
  rw [viewOf_eq, viewFrom] at h
  split at h
  · cases h
  · exact (Option.some.inj h).symm

theorem entity_of_viewOf (h : r.viewOf depth path kind i = some v) : v.entity = ⟨kind, i.id⟩ := by
  rw [viewOf_eq_some h]
  rfl

theorem isSome_viewOf (h : r.index.Sound) (depth : Nat) (path : List Entity) :
    (r.viewOf depth path kind i).isSome ↔ r.index.Live ⟨kind, i.id⟩ := by
  rw [viewOf_eq, viewFrom]
  split
  · rename_i hempty
    exact iff_of_false Bool.false_ne_true ((isEmpty_fieldsOf h).mp hempty)
  · rename_i hempty
    exact iff_of_true rfl (not_not.mp (mt (isEmpty_fieldsOf h).mpr hempty))

theorem expandOf_eq_some : r.expandOf depth path kind i = some v ↔
    0 < depth ∧ ⟨kind, i.id⟩ ∉ path ∧ r.viewOf (depth - 1) path kind i = some v := by
  cases depth with
  | zero => simp [expandOf]
  | succ depth => simp [expandOf]

theorem isSome_expandOf (h : r.index.Sound) : (r.expandOf depth path kind i).isSome ↔
    0 < depth ∧ ⟨kind, i.id⟩ ∉ path ∧ r.index.Live ⟨kind, i.id⟩ := by
  rw [← isSome_viewOf h (depth - 1) path]
  simp only [Option.isSome_iff_exists, expandOf_eq_some, exists_and_left]

/-- It matters which entities are above a neighbour, but not in which order. -/
theorem expandOf_congr {other : List Entity} (hpath : ∀ e, e ∈ path ↔ e ∈ other) :
    r.expandOf depth path = r.expandOf depth other := by
  induction depth generalizing path other with
  | zero => rfl
  | succ depth ih =>
    have hbelow (e : Entity) : r.expandOf depth (e :: path) = r.expandOf depth (e :: other) := by
      apply ih
      intro f
      rw [List.mem_cons, List.mem_cons, hpath]
    funext kind i
    rw [expandOf, expandOf]
    simp only [viewOf_eq, viewFrom, hpath, hbelow]

theorem sorted_links (h : r.index.Sound) (kind : RecordKind) (id : Nat) :
    (r.links kind id).Pairwise fun step other =>
      toLex ((LinkKind.touching kind).idxOf (step.1.kind, step.2), step.1.id) <
        toLex ((LinkKind.touching kind).idxOf (other.1.kind, other.2), other.1.id) := by
  have hkind {k : LinkKind} {d : Direction} {step : StoredLink × Direction}
      (hstep : step ∈ (r.index.linksOf k d id).map fun link => (link, d)) :
      (step.1.kind, step.2) = (k, d) := by
    obtain ⟨l, hl, rfl⟩ := List.mem_map.mp hstep
    rw [(Index.mem_linksOf.mp hl).1]
  rw [links, List.pairwise_flatMap]
  constructor
  · rintro ⟨k, d⟩ -
    rw [List.pairwise_map]
    apply (h.sorted_linksOf k d id).imp_of_mem
    intro l m hl hm hlt
    rw [Prod.Lex.toLex_lt_toLex]
    refine .inr ⟨?_, hlt⟩
    rw [(Index.mem_linksOf.mp hl).1, (Index.mem_linksOf.mp hm).1]
  · apply (LinkKind.pairwise_touching kind).imp
    rintro ⟨k, d⟩ ⟨k', d'⟩ hlt step hstep other hother
    rw [Prod.Lex.toLex_lt_toLex, hkind hstep, hkind hother]
    exact .inl hlt

theorem entity_neighbourOf {l : StoredLink} {direction : Direction} :
    (r.neighbourOf depth path (l, direction)).entity = l.near direction.opposite := by
  cases direction with
  | forward => rfl
  | reverse => rfl

theorem shows_neighbourOf (h : r.index.Sound) {kind : LinkKind} {row : Row LinkClaim}
    {l : StoredLink} (hrow : row ∈ (r.index.links kind).rows)
    (hl : r.index.storedLink? kind row = some l) (direction : Direction) (depth : Nat)
    (path : List Entity) :
    (r.neighbourOf depth path (l, direction)).Shows r.index (l.near direction) row := by
  obtain ⟨rfl, -, hsource⟩ := Index.storedLink?_kind hl
  have hlink : r.index.HasLink l := ⟨row, hrow, hl⟩
  have hname := h.sourceName_of_link hlink
  rw [hsource] at hname
  exact {
    link := hl
    near := (Index.storedLink?_near hl direction).symm
    far := (Index.storedLink?_near hl direction.opposite).symm.trans entity_neighbourOf.symm
    identifier := hlink.identifier?_far direction
    source := hname.trans (by rw [neighbourOf, hsource]) }

section Tree

variable (h : r.index.Sound) (hroot : r.viewOf depth [] kind seed = some root)

include hroot

theorem viewOf_of_below (hv : root.Below above v) : above.length ≤ depth ∧
    (v.entity :: above).Nodup ∧
    r.viewOf (depth - above.length) above v.kind v.identifier = some v := by
  induction hv with
  | root =>
    refine ⟨Nat.zero_le _, List.nodup_singleton _, ?_⟩
    obtain rfl := viewOf_eq_some hroot
    exact hroot
  | @child above v w n _ hn hw ih =>
    -- one more entity is above, and one level less is left
    obtain ⟨-, hdistinct, hview⟩ := ih
    rw [viewOf_eq_some hview] at hn
    obtain ⟨step, -, rfl⟩ := List.mem_map.mp hn
    obtain ⟨hdepth, hfresh, hbelow⟩ := expandOf_eq_some.mp hw
    obtain rfl := viewOf_eq_some hbelow
    refine ⟨?_, List.nodup_cons.mpr ⟨hfresh, hdistinct⟩, ?_⟩
    · rw [List.length_cons]
      omega
    · rw [List.length_cons, ← Nat.sub_sub]
      exact hbelow

theorem neighbours_of_below (hv : root.Below above v) : v.neighbours =
    (r.links v.kind v.identifier.id).map
      (r.neighbourOf (depth - above.length) (v.entity :: above)) := by
  obtain ⟨-, -, hview⟩ := viewOf_of_below hroot hv
  conv_lhs => rw [viewOf_eq_some hview]
  rfl

theorem mem_neighbours_of_below (hv : root.Below above v) : n ∈ v.neighbours ↔
    ∃ l direction, r.index.HasLink l ∧ l.near direction = v.entity ∧
      r.neighbourOf (depth - above.length) (v.entity :: above) (l, direction) = n := by
  rw [neighbours_of_below hroot hv, List.mem_map]
  simp only [Prod.exists, mem_links, and_assoc]
  rfl

theorem view_of_neighbour (hv : root.Below above v) (hn : n ∈ v.neighbours) :
    r.index.identifier? n.identifier.id = some n.identifier ∧
    n.view = r.expandOf (depth - above.length) (v.entity :: above) n.kind n.identifier := by
  obtain ⟨l, direction, hl, -, rfl⟩ := (mem_neighbours_of_below hroot hv).mp hn
  exact ⟨hl.identifier?_far direction, rfl⟩

include h

theorem listsLinks_of_below (hv : root.Below above v) : v.ListsLinks r.index where
  listed kind direction row hrow hnear := by
    obtain ⟨l, hl⟩ := h.exists_link hrow
    rw [← Index.storedLink?_near hl] at hnear
    have hshows := shows_neighbourOf h hrow hl direction (depth - above.length) (v.entity :: above)
    obtain ⟨rfl, -, -⟩ := Index.storedLink?_kind hl
    rw [hnear] at hshows
    exact ⟨_, (mem_neighbours_of_below hroot hv).mpr ⟨l, direction, ⟨row, hrow, hl⟩, hnear, rfl⟩,
      rfl, rfl, hshows⟩
  shown n hn := by
    obtain ⟨l, direction, ⟨row, hrow, hl⟩, hnear, rfl⟩ := (mem_neighbours_of_below hroot hv).mp hn
    refine ⟨row, hrow, ?_⟩
    rw [← hnear]
    exact shows_neighbourOf h hrow hl direction _ _
  sorted := by
    rw [neighbours_of_below hroot hv, List.pairwise_map]
    exact sorted_links h v.kind v.identifier.id

theorem expands_of_below (hv : root.Below above v) : v.Expands r.index depth above where
  expanded n hn := by
    obtain ⟨l, direction, -, -, rfl⟩ := (mem_neighbours_of_below hroot hv).mp hn
    have hdepth : above.length + 1 ≤ depth ↔ 0 < depth - above.length := by omega
    rw [hdepth]
    exact isSome_expandOf h
  own n hn w hw := by
    obtain ⟨l, direction, -, -, rfl⟩ := (mem_neighbours_of_below hroot hv).mp hn
    obtain ⟨-, -, hview⟩ := expandOf_eq_some.mp hw
    rw [viewOf_eq_some hview]
    exact ⟨rfl, rfl⟩

end Tree

theorem exists_viewOf_of_lookup (h : r.index.Sound) {i : Identifier}
    (hseed : r.index.lookup kind i = .ok seed) (depth : Nat) :
    ∃ root, r.viewOf depth [] kind seed = some root ∧ r.resolve kind i depth = .ok root := by
  have hlive := (h.lookup_eq_ok_iff.mp hseed).2
  obtain ⟨root, hroot⟩ := Option.isSome_iff_exists.mp
    ((isSome_viewOf h depth []).mpr hlive)
  refine ⟨root, hroot, ?_⟩
  unfold resolve
  simp only [hseed, view_eq h, hroot, bind, Except.bind]
  rfl

theorem resolve_of_lookup_error {i : Identifier} {e : Error}
    (hseed : r.index.lookup kind i = .error e) (depth : Nat) :
    r.resolve kind i depth = .error e := by
  rw [resolve, hseed]
  rfl

theorem viewOf_of_resolve (h : r.index.Sound) {i : Identifier}
    (hroot : r.resolve kind i depth = .ok root) :
    r.index.lookup kind i = .ok root.identifier ∧
      r.viewOf depth [] kind root.identifier = some root := by
  cases hseed : r.index.lookup kind i with
  | error e =>
    rw [resolve_of_lookup_error hseed] at hroot
    cases hroot
  | ok seed =>
    obtain ⟨found, hview, hfound⟩ := exists_viewOf_of_lookup h hseed depth
    obtain rfl : found = root := Except.ok.inj (hfound.symm.trans hroot)
    obtain rfl : found.identifier = seed := by
      rw [viewOf_eq_some hview]
      rfl
    exact ⟨rfl, hview⟩

end Resolver

/-- The tree of a resolved entity is the one of a recursion with one path set. It is complete, no
deeper than asked for, and without cycles; and the view of a neighbour is a function of the
entities above it and of the depth that is left. -/
theorem view_tree_is_complete {r : Resolver} (hx : r.index.Reachable) {kind : RecordKind}
    {i : Identifier} {depth : Nat} {root : EntityView} (hroot : r.resolve kind i depth = .ok root) :
    r.sharedResolve kind i depth = .ok root ∧
    (root.kind = kind ∧ r.index.find? i = some root.identifier) ∧
    (∀ above v, root.Below above v → above.length ≤ depth ∧ (v.entity :: above).Nodup ∧
      v.ListsLinks r.index ∧ v.Expands r.index depth above) ∧
    ∀ {kind' i' depth' root'}, r.resolve kind' i' depth' = .ok root' →
      ∀ {above v above' v'}, root.Below above v → root'.Below above' v' →
      (∀ e, e ∈ v.entity :: above ↔ e ∈ v'.entity :: above') →
      depth - above.length = depth' - above'.length →
      ∀ n ∈ v.neighbours, ∀ n' ∈ v'.neighbours, n.entity = n'.entity → n.view = n'.view := by
  have h := hx.sound
  obtain ⟨hseed, hview⟩ := Resolver.viewOf_of_resolve h hroot
  have hkind : root.kind = kind := by
    rw [Resolver.viewOf_eq_some hview]
    rfl
  refine ⟨(r.sharedResolve_eq kind i depth).trans hroot,
    ⟨hkind, (h.lookup_eq_ok_iff.mp hseed).1⟩, ?_, ?_⟩
  · intro above v hv
    obtain ⟨hlevel, hdistinct, -⟩ := Resolver.viewOf_of_below hview hv
    exact ⟨hlevel, hdistinct, Resolver.listsLinks_of_below h hview hv,
      Resolver.expands_of_below h hview hv⟩
  · intro kind' i' depth' root' hroot' above v above' v' hv hv' hsame hdepth n hn n' hn' hentity
    obtain ⟨-, hview'⟩ := Resolver.viewOf_of_resolve h hroot'
    obtain ⟨hid, hexpand⟩ := Resolver.view_of_neighbour hview hv hn
    obtain ⟨hid', hexpand'⟩ := Resolver.view_of_neighbour hview' hv' hn'
    obtain ⟨hkinds, hids⟩ := Entity.mk.inj hentity
    rw [hids, hid'] at hid
    rw [hexpand, hexpand', hkinds, Option.some.inj hid, hdepth, Resolver.expandOf_congr hsame]

/-- From the song the ring is seen in both directions; it is cut where it would come back. -/
theorem view_tree_of_small_ring :
    let r : Resolver := ⟨.smallRing, .empty⟩
    ∃ root, r.resolve .song (.iswc "1") 2 = .ok root ∧ r.index.Reachable ∧
      r.sharedResolve .song (.iswc "1") 2 = .ok root ∧
      (∀ above v, root.Below above v → above.length ≤ 2 ∧ (v.entity :: above).Nodup ∧
        v.ListsLinks r.index ∧ v.Expands r.index 2 above) ∧
      (root.neighbours.map fun n => (n.entity,
        n.view.map fun v => v.neighbours.map fun m => (m.entity, m.view.isSome))) =
        [(⟨.recording, 2⟩, some [(⟨.song, 1⟩, false), (⟨.release, 3⟩, true)]),
          (⟨.release, 3⟩, some [(⟨.performer, 4⟩, false), (⟨.recording, 2⟩, true),
            (⟨.song, 1⟩, false)])] := by
  intro r
  have hshape : ((r.resolve .song (.iswc "1") 2).map fun root =>
      root.neighbours.map fun n => (n.entity,
        n.view.map fun v => v.neighbours.map fun m => (m.entity, m.view.isSome))).toOption =
      some [(⟨.recording, 2⟩, some [(⟨.song, 1⟩, false), (⟨.release, 3⟩, true)]),
        (⟨.release, 3⟩, some [(⟨.performer, 4⟩, false), (⟨.recording, 2⟩, true),
          (⟨.song, 1⟩, false)])] := by
    decide +kernel
  cases hroot : r.resolve .song (.iswc "1") 2 with
  | error e =>
    rw [hroot] at hshape
    cases hshape
  | ok root =>
    rw [hroot] at hshape
    obtain ⟨hshared, -, htree, -⟩ := view_tree_is_complete Index.reachable_smallRing hroot
    exact ⟨root, rfl, Index.reachable_smallRing, hshared, htree, Option.some.inj hshape⟩

end MusicIndex
