import MusicIndex.Proofs.Distance
import MusicIndex.Proofs.Survey

namespace MusicIndex.Survey

variable {x : Index} {seed e : Entity} {hops known : Nat} {s : Survey} {r : Resolver}

section Steps

theorem mem_entities_foldl {steps : List (StoredLink × Direction)} :
    e ∈ (steps.foldl add s).entities ↔
      e ∈ s.entities ∨ ∃ step ∈ steps, step.1.near step.2.opposite = e := by
  induction steps generalizing s with
  | nil => simp
  | cons step steps ih =>
    rw [List.foldl_cons, ih, add, mem_addNew, or_assoc, List.exists_mem_cons_iff,
      eq_comm (a := e)]

theorem mem_links_foldl {steps : List (StoredLink × Direction)} {l : StoredLink} :
    l ∈ (steps.foldl add s).links ↔ l ∈ s.links ∨ ∃ step ∈ steps, step.1 = l := by
  induction steps generalizing s with
  | nil => simp
  | cons step steps ih =>
    rw [List.foldl_cons, ih, add, mem_addNew, or_assoc, List.exists_mem_cons_iff,
      eq_comm (a := l)]

theorem exists_entities_foldl (steps : List (StoredLink × Direction)) (s : Survey) :
    ∃ new, (steps.foldl add s).entities = s.entities ++ new := by
  induction steps generalizing s with
  | nil => exact ⟨[], (List.append_nil _).symm⟩
  | cons step steps ih =>
    obtain ⟨new, hnew⟩ := ih (s.add step)
    by_cases hmem : step.1.near step.2.opposite ∈ s.entities
    · refine ⟨new, ?_⟩
      rw [List.foldl_cons, hnew, add, addNew_of_mem hmem]
    · refine ⟨step.1.near step.2.opposite :: new, ?_⟩
      rw [List.foldl_cons, hnew, add, addNew_of_not_mem hmem, List.append_assoc]
      rfl

end Steps

/-- What a survey holds after some rounds, of which the last began with the first so many
entities. -/
structure Level (x : Index) (seed : Entity) (hops known : Nat) (s : Survey) : Prop where
  within : ∀ e, e ∈ s.entities ↔ ∃ n ≤ hops, x.Reaches seed n e
  before : ∀ e, e ∈ s.entities.take known ↔ ∃ n < hops, x.Reaches seed n e
  links : ∀ l, l ∈ s.links ↔ x.HasLink l ∧
    ∃ direction, ∃ n < hops, x.Reaches seed n (l.near direction) ∧ x.Live (l.near direction)
  sorted : s.entities.Pairwise fun e f => ∀ n, x.Reaches seed n f → ∃ m ≤ n, x.Reaches seed m e
  first : ∃ rest, s.entities = seed :: rest

theorem level_seed (x : Index) (seed : Entity) : Level x seed 0 0 ⟨[seed], []⟩ where
  within e := by
    rw [List.mem_singleton]
    constructor
    · rintro rfl
      exact ⟨0, le_rfl, .seed⟩
    · rintro ⟨n, hn, hreach⟩
      obtain rfl := Nat.le_zero.mp hn
      cases hreach
      rfl
  before e := by simp
  links l := by simp
  sorted := List.pairwise_singleton _ _
  first := ⟨[], rfl⟩

namespace Level

/-- The entities that a round goes on from are as many hops away as there were rounds. -/
theorem reaches_of_mem_drop (h : Level x seed hops known s) (hs : s.Valid x)
    (he : e ∈ s.entities.drop known) : x.Reaches seed hops e := by
  obtain ⟨n, hn, hreach⟩ := (h.within e).mp (List.mem_of_mem_drop he)
  have hfresh : e ∉ s.entities.take known := fun htake =>
    List.disjoint_take_drop hs.entities le_rfl htake he
  have hlt : ¬ n < hops := fun hlt => hfresh ((h.before e).mpr ⟨n, hlt, hreach⟩)
  obtain rfl : n = hops := by omega
  exact hreach

theorem mem_drop_or_reaches (h : Level x seed hops known s) (he : x.Reaches seed hops e) :
    e ∈ s.entities.drop known ∨ ∃ n < hops, x.Reaches seed n e := by
  have hmem : e ∈ s.entities := (h.within e).mpr ⟨hops, le_rfl, he⟩
  rw [← List.take_append_drop known s.entities, List.mem_append] at hmem
  rcases hmem with htake | hdrop
  · exact .inr ((h.before e).mp htake)
  · exact .inl hdrop

section Round

variable (hx : r.index.Sound) (h : Level r.index seed hops known s)

include hx h

theorem within_round (hs : s.Valid r.index) (e : Entity) :
    e ∈ (s.round r known).entities ↔ ∃ n ≤ hops + 1, r.index.Reaches seed n e := by
  rw [round, mem_entities_foldl]
  constructor
  · rintro (he | ⟨⟨l, direction⟩, hstep, rfl⟩)
    · obtain ⟨n, hn, hreach⟩ := (h.within e).mp he
      exact ⟨n, Nat.le_succ_of_le hn, hreach⟩
    · obtain ⟨hl, hnear, hlive⟩ := (mem_steps hx).mp hstep
      exact ⟨hops + 1, le_rfl, (h.reaches_of_mem_drop hs hnear).follow hl hlive⟩
  · rintro ⟨n, hn, hreach⟩
    rcases Nat.le_succ_iff.mp hn with hn | rfl
    · exact .inl ((h.within e).mpr ⟨n, hn, hreach⟩)
    · obtain ⟨l, direction, hl, hnear, hlive, rfl⟩ := hreach.exists_link hx
      rcases h.mem_drop_or_reaches hnear with hdrop | ⟨m, hm, hbefore⟩
      · exact .inr ⟨(l, direction), (mem_steps hx).mpr ⟨hl, hdrop, hlive⟩, rfl⟩
      · exact .inl ((h.within _).mpr ⟨m + 1, hm, hbefore.follow hl hlive⟩)

theorem links_round (hs : s.Valid r.index) (l : StoredLink) :
    l ∈ (s.round r known).links ↔ r.index.HasLink l ∧ ∃ direction, ∃ n < hops + 1,
      r.index.Reaches seed n (l.near direction) ∧ r.index.Live (l.near direction) := by
  rw [round, mem_links_foldl]
  constructor
  · rintro (hl | ⟨⟨l, direction⟩, hstep, rfl⟩)
    · obtain ⟨hl, direction, n, hn, hreach, hlive⟩ := (h.links l).mp hl
      exact ⟨hl, direction, n, Nat.lt_succ_of_lt hn, hreach, hlive⟩
    · obtain ⟨hl, hnear, hlive⟩ := (mem_steps hx).mp hstep
      exact ⟨hl, direction, hops, Nat.lt_succ_self hops, h.reaches_of_mem_drop hs hnear, hlive⟩
  · rintro ⟨hl, direction, n, hn, hreach, hlive⟩
    rcases Nat.lt_succ_iff_lt_or_eq.mp hn with hn | rfl
    · exact .inl ((h.links l).mpr ⟨hl, direction, n, hn, hreach, hlive⟩)
    · rcases h.mem_drop_or_reaches hreach with hdrop | ⟨m, hm, hbefore⟩
      · exact .inr ⟨(l, direction), (mem_steps hx).mpr ⟨hl, hdrop, hlive⟩, rfl⟩
      · exact .inl ((h.links l).mpr ⟨hl, direction, m, hm, hbefore, hlive⟩)

theorem sorted_round (hs : s.Valid r.index) (hnodup : (s.round r known).entities.Nodup) :
    (s.round r known).entities.Pairwise fun e f =>
      ∀ n, r.index.Reaches seed n f → ∃ m ≤ n, r.index.Reaches seed m e := by
  obtain ⟨new, hnew⟩ :=
    exists_entities_foldl ((s.entities.drop known).flatMap r.stepsFrom) s
  change (s.round r known).entities = _ at hnew
  -- what a round meets first is farther away than all that was met before
  have hlast : ∀ f ∈ new, ∀ n, r.index.Reaches seed n f → hops + 1 ≤ n := by
    intro f hf n hreach
    by_contra hlt
    rw [hnew] at hnodup
    have hold : f ∈ s.entities := (h.within f).mpr ⟨n, by omega, hreach⟩
    exact List.disjoint_of_nodup_append hnodup hold hf
  have hnear : ∀ e ∈ (s.round r known).entities, ∀ f ∈ new, ∀ n, r.index.Reaches seed n f →
      ∃ m ≤ n, r.index.Reaches seed m e := by
    intro e he f hf n hreach
    obtain ⟨m, hm, he⟩ := (within_round hx h hs e).mp he
    exact ⟨m, hm.trans (hlast f hf n hreach), he⟩
  rw [hnew] at hnear ⊢
  refine List.pairwise_append.mpr ⟨h.sorted, ?_, ?_⟩
  · exact List.pairwise_of_forall_mem_list fun e he => hnear e (List.mem_append_right _ he)
  · exact fun e he => hnear e (List.mem_append_left _ he)

theorem round (hs : s.Valid r.index) (hnodup : (s.round r known).entities.Nodup) :
    Level r.index seed (hops + 1) s.entities.length (s.round r known) where
  within := within_round hx h hs
  links := links_round hx h hs
  sorted := sorted_round hx h hs hnodup
  before e := by
    obtain ⟨new, hnew⟩ :=
      exists_entities_foldl ((s.entities.drop known).flatMap r.stepsFrom) s
    rw [Survey.round, hnew, List.take_left, h.within]
    simp only [Nat.lt_succ_iff]
  first := by
    obtain ⟨new, hnew⟩ :=
      exists_entities_foldl ((s.entities.drop known).flatMap r.stepsFrom) s
    obtain ⟨rest, hrest⟩ := h.first
    refine ⟨rest ++ new, ?_⟩
    rw [Survey.round, hnew, hrest, List.cons_append]

theorem explore (more : Nat) (hs : s.Valid r.index) :
    ∃ last, Level r.index seed (hops + more) last (s.explore r more known) := by
  induction more generalizing s hops known with
  | zero => exact ⟨known, h⟩
  | succ more ih =>
    have hvalid := (foldlM_visit_walk hx hs known).2
    have hround := h.round hx hs hvalid.entities
    rw [Nat.add_succ, ← Nat.succ_add]
    exact ih hround hvalid

end Round

end Level

theorem Level.head_graph (h : Level x seed hops known s) :
    (s.graph r).nodes.head? = some (r.nodeOf seed) := by
  obtain ⟨rest, hrest⟩ := h.first
  rw [graph, hrest]
  rfl

/-- A graph shows a survey at the level of its depth. -/
theorem exists_level_build (hx : r.index.Sound) {kind : RecordKind} {i : Identifier}
    {found : StoredIdentifier} (hfound : r.index.lookup kind i = .ok found) (depth : Nat) :
    ∃ s known, Graph.build r kind i depth = .ok (graph r s) ∧ Valid r.index s ∧
      Level r.index ⟨kind, found.id⟩ depth known s := by
  obtain ⟨hbuild, hvalid⟩ := build_eq hx hfound depth
  obtain ⟨known, hlevel⟩ :=
    (level_seed r.index ⟨kind, found.id⟩).explore hx depth (valid_seed_of_lookup hx hfound)
  rw [Nat.zero_add] at hlevel
  exact ⟨_, known, hbuild, hvalid, hlevel⟩

end MusicIndex.Survey
