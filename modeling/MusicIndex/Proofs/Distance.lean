import MusicIndex.Proofs.Navigation
import Mathlib.Order.WellFounded

namespace MusicIndex.Index

/-- What so many hops from a seed may lead to. -/
inductive Reaches (x : Index) (seed : Entity) : Nat → Entity → Prop where
  | seed : Reaches x seed 0 seed
  | hop {hops : Nat} {kind : LinkKind} {row : Row LinkClaim} {direction : Direction} :
    Reaches x seed hops (row.content.near kind direction) →
    x.Live (row.content.near kind direction) → row ∈ (x.links kind).rows →
    Reaches x seed (hops + 1) (row.content.near kind direction.opposite)

/-- So many hops lead to an entity, and no fewer. -/
structure AtDistance (x : Index) (seed : Entity) (hops : Nat) (e : Entity) : Prop where
  reached : x.Reaches seed hops e
  least : ∀ fewer < hops, ¬ x.Reaches seed fewer e

variable {x : Index} {seed e : Entity} {n m : Nat}

theorem Reaches.exists_distance (h : x.Reaches seed n e) : ∃ m ≤ n, x.AtDistance seed m e := by
  induction n using Nat.strongRecOn with
  | _ n ih =>
    by_cases hless : ∃ m < n, x.Reaches seed m e
    · obtain ⟨m, hm, hreach⟩ := hless
      obtain ⟨k, hk, hdistance⟩ := ih m hm hreach
      exact ⟨k, hk.trans hm.le, hdistance⟩
    · exact ⟨n, le_rfl, h, fun m hm hreach => hless ⟨m, hm, hreach⟩⟩

theorem AtDistance.le_of_reaches (h : x.AtDistance seed n e) (hm : x.Reaches seed m e) : n ≤ m := by
  by_contra hlt
  exact h.least m (Nat.lt_of_not_le hlt) hm

theorem AtDistance.unique (h : x.AtDistance seed n e) (h' : x.AtDistance seed m e) : n = m :=
  Nat.le_antisymm (h.le_of_reaches h'.reached) (h'.le_of_reaches h.reached)

section Links

variable {l : StoredLink} {direction : Direction}

theorem Reaches.follow (hl : x.HasLink l) (h : x.Reaches seed n (l.near direction))
    (hlive : x.Live (l.near direction)) : x.Reaches seed (n + 1) (l.near direction.opposite) := by
  obtain ⟨row, hrow, he⟩ := hl
  rw [storedLink?_near he] at h hlive ⊢
  exact .hop h hlive hrow

theorem Reaches.exists_link (hx : x.Sound) (h : x.Reaches seed (n + 1) e) :
    ∃ l direction, x.HasLink l ∧ x.Reaches seed n (l.near direction) ∧
      x.Live (l.near direction) ∧ l.near direction.opposite = e := by
  cases h with
  | @hop _ kind row direction hreach hlive hrow =>
    obtain ⟨l, hl⟩ := hx.exists_link hrow
    obtain ⟨rfl, -, -⟩ := storedLink?_kind hl
    refine ⟨l, direction, ⟨row, hrow, hl⟩, ?_, ?_, storedLink?_near hl _⟩
    · rw [storedLink?_near hl]
      exact hreach
    · rw [storedLink?_near hl]
      exact hlive

theorem AtDistance.exists_link (hx : x.Sound) (h : x.AtDistance seed (n + 1) e) :
    ∃ l direction, x.HasLink l ∧ x.AtDistance seed n (l.near direction) ∧
      x.Live (l.near direction) ∧ l.near direction.opposite = e := by
  obtain ⟨l, direction, hl, hreach, hlive, rfl⟩ := h.reached.exists_link hx
  refine ⟨l, direction, hl, ⟨hreach, ?_⟩, hlive, rfl⟩
  intro fewer hfewer hnear
  exact h.least (fewer + 1) (Nat.succ_lt_succ hfewer) (hnear.follow hl hlive)

end Links

end MusicIndex.Index
