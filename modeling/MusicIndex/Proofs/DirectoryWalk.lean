import Mathlib.Data.String.Basic
import MusicIndex.Files.Tree

namespace MusicIndex.FileTree

section Entries

variable {α β : Type} {name other : String} {a b : α} {entries : List (String × α)}

def Sorted (entries : List (String × α)) : Prop :=
  entries.Pairwise fun e f => e.1 < f.1

theorem mem_setEntry_of_ne (h : other ≠ name) :
    (other, b) ∈ setEntry name a entries ↔ (other, b) ∈ entries := by
  induction entries with
  | nil => simp [setEntry, h]
  | cons entry rest ih =>
    obtain ⟨n, c⟩ := entry
    rw [setEntry]
    split
    · rename_i hn
      simp [h, hn]
    · split
      · simp [h]
      · simp [ih]

theorem mem_setEntry_self (hs : Sorted entries) : (name, b) ∈ setEntry name a entries ↔ b = a := by
  induction entries with
  | nil => simp [setEntry]
  | cons entry rest ih =>
    obtain ⟨n, c⟩ := entry
    obtain ⟨hfirst, hrest⟩ := List.pairwise_cons.mp hs
    have hnot (hle : name ≤ n) : (name, b) ∉ rest := fun hm => absurd (hfirst _ hm) (not_lt.mpr hle)
    rw [setEntry]
    split
    · rename_i hn
      simp [hnot hn.ge]
    · rename_i hn
      split
      · rename_i hlt
        simp [hnot hlt.le, Ne.symm hn]
      · simp [ih hrest, Ne.symm hn]

theorem Sorted.setEntry (hs : Sorted entries) : Sorted (setEntry name a entries) := by
  induction entries with
  | nil => exact List.pairwise_singleton _ _
  | cons entry rest ih =>
    obtain ⟨n, c⟩ := entry
    obtain ⟨hfirst, hrest⟩ := List.pairwise_cons.mp hs
    rw [FileTree.setEntry]
    split
    · rename_i hn
      exact .cons (fun e he => hn ▸ hfirst e he) hrest
    · rename_i hn
      split
      · rename_i hlt
        refine .cons (fun e he => ?_) hs
        rcases List.mem_cons.mp he with rfl | he
        · exact hlt
        · exact hlt.trans (hfirst e he)
      · rename_i hlt
        refine .cons (fun e he => ?_) (ih hrest)
        by_cases hname : e.1 = name
        · rw [hname]
          exact lt_of_le_of_ne (not_lt.mp hlt) hn
        · exact hfirst e ((mem_setEntry_of_ne hname).mp he)

theorem sorted_inOrder (entries : List (String × α)) : Sorted (inOrder entries) := by
  induction entries with
  | nil => exact .nil
  | cons entry rest ih => exact ih.setEntry

theorem mem_inOrder : (name, b) ∈ inOrder entries ↔ entries.lookup name = some b := by
  induction entries with
  | nil => simp [inOrder]
  | cons entry rest ih =>
    obtain ⟨n, c⟩ := entry
    change (name, b) ∈ setEntry n c (inOrder rest) ↔ _
    by_cases h : name = n
    · rw [h, mem_setEntry_self (sorted_inOrder rest), List.lookup_cons_self]
      exact ⟨fun e => e ▸ rfl, fun e => (Option.some.inj e).symm⟩
    · rw [mem_setEntry_of_ne h, ih]
      rw [List.lookup_cons, beq_false_of_ne h]

theorem setEntry_map (f : String → α → β) (name : String) (a : α) (entries : List (String × α)) :
    setEntry name (f name a) (entries.map fun e => (e.1, f e.1 e.2)) =
      (setEntry name a entries).map fun e => (e.1, f e.1 e.2) := by
  induction entries with
  | nil => rfl
  | cons entry rest ih =>
    obtain ⟨n, c⟩ := entry
    rw [List.map_cons, setEntry, setEntry, ih]
    split
    · rfl
    · split <;> rfl

theorem inOrder_map (f : String → α → β) (entries : List (String × α)) :
    inOrder (entries.map fun e => (e.1, f e.1 e.2)) =
      (inOrder entries).map fun e => (e.1, f e.1 e.2) := by
  induction entries with
  | nil => rfl
  | cons entry rest ih =>
    have hstep (γ : Type) (e : String × γ) (l : List (String × γ)) :
        inOrder (e :: l) = setEntry e.1 e.2 (inOrder l) := rfl
    rw [List.map_cons, hstep, hstep, ih, setEntry_map]

end Entries

theorem mem_of_mem_inOrder {α : Type} {e : String × α} {entries : List (String × α)}
    (h : e ∈ inOrder entries) : e ∈ entries := by
  obtain ⟨before, after, rfl, -⟩ := List.lookup_eq_some_iff.mp (mem_inOrder.mp h)
  exact List.mem_append_right _ List.mem_cons_self

@[elab_as_elim]
theorem induct {P : FileTree → Prop} (file : ∀ bytes, P (.file bytes)) (device : P .device)
    (directory : ∀ entries, (∀ e ∈ entries, P e.2) → P (.directory entries)) : ∀ t, P t
  | .file bytes => file bytes
  | .device => device
  | .directory entries => directory entries fun e he =>
    have : sizeOf e.2 < 1 + sizeOf entries := by
      have hlist := List.sizeOf_lt_of_mem he
      have hpair : sizeOf e = 1 + sizeOf e.1 + sizeOf e.2 := rfl
      omega
    induct file device directory e.2

mutual
/-- The files of a tree with the names that lead to them. -/
def named : FileTree → List (List String × List UInt8)
  | .file bytes => [([], bytes)]
  | .device => []
  | .directory entries =>
    (inOrder (namedOfEach entries)).flatMap fun e => e.2.map fun f => (e.1 :: f.1, f.2)

def namedOfEach : List (String × FileTree) → List (String × List (List String × List UInt8))
  | [] => []
  | (name, t) :: rest => (name, named t) :: namedOfEach rest
end

theorem named_directory (entries : List (String × FileTree)) :
    named (.directory entries) =
      (inOrder entries).flatMap fun e => (named e.2).map fun f => (e.1 :: f.1, f.2) := by
  have heach : namedOfEach entries = entries.map fun e => (e.1, named e.2) := by
    induction entries with
    | nil => rfl
    | cons e rest ih => rw [namedOfEach, ih, List.map_cons]
  rw [named, heach, inOrder_map fun _ t => named t, List.flatMap_map]

theorem filesBelow_directory (path : String) (entries : List (String × FileTree)) :
    filesBelow path (.directory entries) =
      (inOrder entries).flatMap fun e => filesBelow (Path.join path e.1) e.2 := by
  have heach : filesOfEach path entries =
      entries.map fun e => (e.1, filesBelow (Path.join path e.1) e.2) := by
    induction entries with
    | nil => rfl
    | cons e rest ih => rw [filesOfEach, ih, List.map_cons]
  rw [filesBelow, heach, inOrder_map fun name t => filesBelow (Path.join path name) t,
    List.flatMap_map]

def pathOf (path : String) (names : List String) : String :=
  names.foldl Path.join path

theorem filesBelow_eq_map (path : String) (t : FileTree) :
    filesBelow path t = (named t).map fun f => (pathOf path f.1, f.2) := by
  induction t using induct generalizing path with
  | file bytes => rfl
  | device => rfl
  | directory entries ih =>
    rw [filesBelow_directory, named_directory, List.map_flatMap]
    apply List.flatMap_congr
    intro e he
    rw [ih e (mem_of_mem_inOrder he), List.map_map]
    rfl

theorem mem_named {names : List String} {bytes : List UInt8} {t : FileTree} :
    (names, bytes) ∈ named t ↔ nodeAt? names t = some (.file bytes) := by
  induction t using induct generalizing names with
  | file content =>
    cases names with
    | nil => simp [named, nodeAt?, eq_comm]
    | cons name rest => simp [named, nodeAt?]
  | device => cases names <;> simp [named, nodeAt?]
  | directory entries ih =>
    rw [named_directory, List.mem_flatMap]
    cases names with
    | nil => simp [nodeAt?]
    | cons name rest =>
      constructor
      · rintro ⟨e, he, hfile⟩
        obtain ⟨f, hf, hname⟩ := List.mem_map.mp hfile
        cases hname
        rw [nodeAt?, mem_inOrder.mp he]
        exact (ih e (mem_of_mem_inOrder he)).mp hf
      · intro hnode
        obtain ⟨t, ht, hrest⟩ := Option.bind_eq_some_iff.mp hnode
        have he : (name, t) ∈ inOrder entries := mem_inOrder.mpr ht
        exact ⟨_, he, List.mem_map.mpr ⟨_, (ih _ (mem_of_mem_inOrder he)).mpr hrest, rfl⟩⟩

theorem sorted_named (t : FileTree) : ((named t).map (·.1)).Pairwise (· < ·) := by
  induction t using induct with
  | file bytes => exact List.pairwise_singleton _ _
  | device => exact .nil
  | directory entries ih =>
    rw [named_directory, List.map_flatMap, List.pairwise_flatMap]
    constructor
    · intro e he
      have hsorted := List.pairwise_map.mp (ih e (mem_of_mem_inOrder he))
      rw [List.map_map]
      exact List.pairwise_map.mpr (hsorted.imp List.Lex.cons)
    · refine (sorted_inOrder entries).imp fun hlt names hn names' hn' => ?_
      rw [List.map_map] at hn hn'
      obtain ⟨f, -, rfl⟩ := List.mem_map.mp hn
      obtain ⟨f', -, rfl⟩ := List.mem_map.mp hn'
      exact List.Lex.rel hlt

end MusicIndex.FileTree
