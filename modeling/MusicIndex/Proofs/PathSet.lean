import MusicIndex.View.Resolve
import Mathlib.Data.Finset.Basic

namespace MusicIndex

abbrev Sharing :=
  StateT (Finset Entity) (Except Error)

namespace Sharing

variable {α β : Type} {s t u : Finset Entity}

theorem run_bind_map {m : Sharing α} {e : Except Error α} {k : α → Sharing β}
    {f : α → Except Error β} (hm : m.run s = e.map fun a => (a, t))
    (hk : ∀ a, (k a).run t = (f a).map fun b => (b, u)) :
    (m >>= k).run s = (e >>= f).map fun b => (b, u) := by
  rw [StateT.run_bind, hm]
  cases e with
  | error e => rfl
  | ok a => exact hk a

theorem run_lift (e : Except Error α) (s : Finset Entity) :
    (liftM e : Sharing α).run s = e.map fun a => (a, s) := by
  cases e <;> rfl

theorem run_modify_bind (f : Finset Entity → Finset Entity) (k : Unit → Sharing α) :
    (modify f >>= k).run s = (k ()).run (f s) :=
  rfl

theorem run_mapM {f : α → Sharing β} {g : α → Except Error β} {l : List α}
    (h : ∀ a ∈ l, (f a).run s = (g a).map fun b => (b, s)) :
    (l.mapM f).run s = (l.mapM g).map fun b => (b, s) := by
  induction l with
  | nil => rfl
  | cons a l ih =>
    obtain ⟨ha, hl⟩ := List.forall_mem_cons.mp h
    rw [List.mapM_cons, List.mapM_cons]
    apply run_bind_map ha
    intro b
    apply run_bind_map (ih hl)
    intro rest
    rfl

end Sharing

namespace Resolver

def sharedViewWith (r : Resolver)
    (expand : RecordKind → StoredIdentifier → Sharing (Option EntityView)) (kind : RecordKind)
    (i : StoredIdentifier) : Sharing (Option EntityView) := do
  let rows ← r.index.recordsOf kind i.id
  let fields := r.mergeRows kind (← r.withSources rows)
  if fields.isEmpty then return none
  modify (insert ⟨kind, i.id⟩)
  let aliases ← r.aliases kind rows
  let neighbours ← (r.links kind i.id).mapM fun (link, direction) => do
    let farKind := link.kind.farKind direction
    let view ← expand farKind (link.far direction)
    return { kind := farKind, direction, link, source := ← r.index.sourceName link.source, view }
  modify (·.erase ⟨kind, i.id⟩)
  return some (.mk kind i fields aliases neighbours)

/-- The view of an entity, with neighbours viewed to a depth unless they are in the set. -/
def sharedView (r : Resolver) : Nat → RecordKind → StoredIdentifier → Sharing (Option EntityView)
  | 0 => r.sharedViewWith fun _ _ => return none
  | depth + 1 => r.sharedViewWith fun kind i => do
    let viewed ← get
    if ⟨kind, i.id⟩ ∈ viewed then return none else r.sharedView depth kind i

def sharedResolve (r : Resolver) (kind : RecordKind) (i : Identifier) (depth : Nat) :
    Except Error EntityView := do
  let seed ← r.index.lookup kind i
  match ← (r.sharedView depth kind seed).run' ∅ with
  | some v => return v
  | none => throw (.identifierNotFound kind i)

variable {r : Resolver} {kind : RecordKind} {i : StoredIdentifier} {path : List Entity}
  {s : Finset Entity}

theorem run_sharedViewWith
    {shared : RecordKind → StoredIdentifier → Sharing (Option EntityView)}
    {expand : List Entity → RecordKind → StoredIdentifier → Except Error (Option EntityView)}
    (hfresh : ⟨kind, i.id⟩ ∉ s)
    (hexpand : ∀ far j, (shared far j).run (insert ⟨kind, i.id⟩ s) =
      (expand (⟨kind, i.id⟩ :: path) far j).map fun v => (v, insert ⟨kind, i.id⟩ s)) :
    (r.sharedViewWith shared kind i).run s =
      (r.viewWith expand path kind i).map fun v => (v, s) := by
  unfold sharedViewWith viewWith
  apply Sharing.run_bind_map (Sharing.run_lift _ s)
  intro rows
  apply Sharing.run_bind_map (Sharing.run_lift _ s)
  intro named
  dsimp only
  split
  · rfl
  · rw [Sharing.run_modify_bind]
    apply Sharing.run_bind_map (Sharing.run_lift _ _)
    intro aliases
    -- every neighbour leaves the set with the entity in it, which is taken out at the end
    refine Sharing.run_bind_map (Sharing.run_mapM ?_) ?_
    · rintro ⟨link, direction⟩ -
      apply Sharing.run_bind_map (hexpand _ _)
      intro view
      apply Sharing.run_bind_map (Sharing.run_lift _ _)
      intro source
      rfl
    · intro neighbours
      rw [Sharing.run_modify_bind, Finset.erase_insert hfresh]
      rfl

/-- A view below a path is the view that shares the set of the path's entities. -/
theorem run_sharedView (depth : Nat) (hs : ∀ e, e ∈ s ↔ e ∈ path) (hfresh : ⟨kind, i.id⟩ ∉ path) :
    (r.sharedView depth kind i).run s = (r.view depth path kind i).map fun v => (v, s) := by
  induction depth generalizing s path kind i with
  | zero => exact run_sharedViewWith (mt (hs _).mp hfresh) fun far j => rfl
  | succ depth ih =>
    have hinsert : ∀ e, e ∈ insert ⟨kind, i.id⟩ s ↔ e ∈ ⟨kind, i.id⟩ :: path := by
      intro e
      rw [Finset.mem_insert, List.mem_cons, hs]
    apply run_sharedViewWith (mt (hs _).mp hfresh)
    intro far j
    change StateT.run (if ⟨far, j.id⟩ ∈ insert ⟨kind, i.id⟩ s then _ else _) _ = _
    by_cases hmem : ⟨far, j.id⟩ ∈ ⟨kind, i.id⟩ :: path
    · rw [if_pos hmem, if_pos ((hinsert _).mpr hmem)]
      rfl
    · rw [if_neg hmem, if_neg (mt (hinsert _).mp hmem)]
      exact ih hinsert hmem

theorem run'_sharedView (depth : Nat) :
    (r.sharedView depth kind i).run' ∅ = r.view depth [] kind i := by
  have hrun : (r.sharedView depth kind i).run ∅ =
      (r.view depth [] kind i).map fun v => (v, ∅) := by
    apply run_sharedView depth _ List.not_mem_nil
    intro e
    exact iff_of_false (Finset.notMem_empty e) List.not_mem_nil
  rw [StateT.run'_eq, hrun]
  cases r.view depth [] kind i <;> rfl

/-- It makes no difference that all of a recursion shares one set. -/
theorem sharedResolve_eq (r : Resolver) (kind : RecordKind) (i : Identifier) (depth : Nat) :
    r.sharedResolve kind i depth = r.resolve kind i depth := by
  apply bind_congr
  intro seed
  exact congrArg (· >>= _) (run'_sharedView depth)

end Resolver

end MusicIndex
