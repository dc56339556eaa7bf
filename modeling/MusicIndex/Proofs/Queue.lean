import MusicIndex.Graph.Build

namespace MusicIndex.Graph

/-- A graph under construction, and the nodes that wait with the hops left from each. -/
structure Queue where
  graph : Graph
  waiting : List (GraphNode × Nat)

namespace Queue

/-- Takes the first node that waits; the nodes that its links add wait behind all others. -/
def advance (r : Resolver) (q : Queue) : Except Error Queue :=
  match q.waiting with
  | [] => .ok q
  | (_, 0) :: rest => .ok ⟨q.graph, rest⟩
  | (node, hops + 1) :: rest => do
    let w ← visit r ⟨q.graph, []⟩ node
    return ⟨w.graph, rest ++ w.next.map fun node => (node, hops)⟩

def run (r : Resolver) : Nat → Queue → Except Error Queue
  | 0, q => .ok q
  | steps + 1, q => do
    let q ← q.advance r
    run r steps q

def start (r : Resolver) (kind : RecordKind) (i : Identifier) (depth : Nat) :
    Except Error Queue := do
  let seed ← r.index.lookup kind i
  let (_, node, g) ← addNode r empty kind seed
  return ⟨g, node.toList.map fun node => (node, depth)⟩

end Queue

def Walk.after (next : List GraphNode) (w : Walk) : Walk :=
  ⟨w.graph, next ++ w.next⟩

theorem foldlM_map {α β ε : Type} {f : β → α → Except ε β} {g : β → β}
    (h : ∀ b a, f (g b) a = (f b a).map g) (l : List α) (b : β) :
    l.foldlM f (g b) = (l.foldlM f b).map g := by
  induction l generalizing b with
  | nil => rfl
  | cons a l ih =>
    rw [List.foldlM_cons, List.foldlM_cons, h]
    cases f b a with
    | error e => rfl
    | ok b => exact ih b

variable {r : Resolver}

theorem follow_after (next : List GraphNode) (w : Walk) (step : StoredLink × Direction) :
    follow r (w.after next) step = (follow r w step).map (·.after next) := by
  unfold follow Walk.after
  dsimp only
  split
  · rfl
  · cases addNode r w.graph step.1.kind.ends.1 step.1.a with
    | error e => rfl
    | ok a =>
      change (addNode r a.2.2 step.1.kind.ends.2 step.1.b >>= _) =
        (addNode r a.2.2 step.1.kind.ends.2 step.1.b >>= _).map _
      cases addNode r a.2.2 step.1.kind.ends.2 step.1.b with
      | error e => rfl
      | ok b =>
        change (r.index.sourceName step.1.source >>= _) =
          (r.index.sourceName step.1.source >>= _).map _
        cases r.index.sourceName step.1.source with
        | error e => rfl
        | ok name =>
          change Except.ok _ = Except.ok _
          rw [List.append_assoc]

theorem visit_after (next : List GraphNode) (w : Walk) (node : GraphNode) :
    visit r (w.after next) node = (visit r w node).map (·.after next) := by
  unfold visit
  cases node.label with
  | none => rfl
  | some label => exact foldlM_map (follow_after next) _ w

namespace Queue

theorem run_add (steps more : Nat) (q : Queue) :
    q.run r (steps + more) = q.run r steps >>= run r more := by
  induction steps generalizing q with
  | zero =>
    rw [Nat.zero_add]
    rfl
  | succ steps ih =>
    rw [Nat.succ_add, run, run]
    cases q.advance r with
    | error e => rfl
    | ok q => exact ih q

theorem run_idle (nodes : List GraphNode) (g : Graph) :
    run r nodes.length ⟨g, nodes.map fun node => (node, 0)⟩ = .ok ⟨g, []⟩ := by
  induction nodes with
  | nil => rfl
  | cons node nodes ih => exact ih

theorem advance_of_hops (node : GraphNode) (hops : Nat) (rest : List (GraphNode × Nat))
    (g : Graph) :
    advance r ⟨g, (node, hops + 1) :: rest⟩ =
      (visit r ⟨g, []⟩ node).map fun w =>
        ⟨w.graph, rest ++ w.next.map fun node => (node, hops)⟩ := by
  change (visit r ⟨g, []⟩ node >>= _) = _
  cases visit r ⟨g, []⟩ node <;> rfl

/-- The nodes of a round are taken before those that they add. -/
theorem run_visits (hops : Nat) (nodes next : List GraphNode) (g : Graph) :
    run r nodes.length
        ⟨g, (nodes.map fun node => (node, hops + 1)) ++ next.map fun node => (node, hops)⟩ =
      (nodes.foldlM (visit r) ⟨g, next⟩).map fun w =>
        ⟨w.graph, w.next.map fun node => (node, hops)⟩ := by
  induction nodes generalizing g next with
  | nil => rfl
  | cons node nodes ih =>
    have hvisit : visit r ⟨g, next⟩ node = (visit r ⟨g, []⟩ node).map (·.after next) := by
      have hafter := visit_after (r := r) next ⟨g, []⟩ node
      rw [Walk.after, List.append_nil] at hafter
      exact hafter
    rw [List.foldlM_cons, hvisit, List.length_cons, List.map_cons, List.cons_append, run,
      advance_of_hops]
    cases visit r ⟨g, []⟩ node with
    | error e => rfl
    | ok w =>
      have hrest := ih (next ++ w.next) w.graph
      rw [List.map_append, ← List.append_assoc] at hrest
      exact hrest

theorem exists_run_eq_walk (hops : Nat) (nodes : List GraphNode) (g : Graph) :
    ∃ steps, run r steps ⟨g, nodes.map fun node => (node, hops)⟩ =
      (walk r hops nodes g).map fun g => ⟨g, []⟩ := by
  induction hops generalizing nodes g with
  | zero => exact ⟨nodes.length, run_idle nodes g⟩
  | succ hops ih =>
    cases nodes with
    | nil => exact ⟨0, rfl⟩
    | cons node rest =>
      have hvisits := run_visits (r := r) hops (node :: rest) [] g
      rw [List.map_nil, List.append_nil] at hvisits
      rw [walk]
      cases hround : (node :: rest).foldlM (visit r) ⟨g, []⟩ with
      | error e =>
        rw [hround] at hvisits
        exact ⟨_, hvisits⟩
      | ok w =>
        obtain ⟨steps, hsteps⟩ := ih w.next w.graph
        rw [hround] at hvisits
        refine ⟨(node :: rest).length + steps, ?_⟩
        rw [run_add, hvisits]
        exact hsteps

/-- The queue of an entity runs empty and leaves the graph around the entity. -/
theorem exists_run_eq_build (r : Resolver) (kind : RecordKind) (i : Identifier) (depth : Nat) :
    ∃ steps, (start r kind i depth >>= run r steps) =
      (build r kind i depth).map fun g => ⟨g, []⟩ := by
  unfold start build
  cases r.index.lookup kind i with
  | error e => exact ⟨0, rfl⟩
  | ok seed =>
    cases hnode : addNode r empty kind seed with
    | error e =>
      refine ⟨0, ?_⟩
      simp only [bind, Except.bind, hnode]
      rfl
    | ok added =>
      obtain ⟨steps, hsteps⟩ := exists_run_eq_walk (r := r) depth added.2.1.toList added.2.2
      refine ⟨steps, ?_⟩
      simp only [bind, Except.bind, hnode]
      exact hsteps

end Queue

end MusicIndex.Graph
