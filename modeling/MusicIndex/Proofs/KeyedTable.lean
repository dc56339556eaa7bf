import MusicIndex.Index.Table
import MusicIndex.Proofs.FirstOccurrence

namespace MusicIndex.Table

variable {κ α : Type} [DecidableEq κ]

def keyed (keys : List κ) (content : κ → α) : Table α :=
  ⟨keys.map fun key => ⟨number keys key, content key⟩⟩

/-- The rows have the numbers from 1 on, without a gap. -/
def Numbered (t : Table α) : Prop :=
  t.rows.map (·.id) = List.range' 1 t.size

section Numbered

variable {t : Table α} {row other : Row α}

theorem Numbered.sorted (h : t.Numbered) : t.rows.Pairwise (·.id < ·.id) := by
  rw [← List.pairwise_map (f := Row.id) (R := (· < ·)), h]
  exact List.pairwise_lt_range'

theorem Numbered.eq_of_id (h : t.Numbered) (hrow : row ∈ t.rows) (hother : other ∈ t.rows)
    (hid : row.id = other.id) : row = other := by
  have hnodup : (t.rows.map (·.id)).Nodup := by
    rw [h]
    exact List.nodup_range'
  exact List.inj_on_of_nodup_map hnodup hrow hother hid

theorem exists_row_of_get? {id : Nat} {a : α} (h : t.get? id = some a) :
    ∃ row ∈ t.rows, row.id = id ∧ row.content = a := by
  obtain ⟨row, hfind, rfl⟩ := Option.map_eq_some_iff.mp h
  have hid := List.find?_some hfind
  exact ⟨row, List.mem_of_find?_eq_some hfind, beq_iff_eq.mp hid, rfl⟩

theorem Numbered.get?_of_mem (h : t.Numbered) (hrow : row ∈ t.rows) :
    t.get? row.id = some row.content := by
  have hsome : (t.rows.find? (·.id == row.id)).isSome = true :=
    List.find?_isSome.mpr ⟨row, hrow, beq_self_eq_true _⟩
  obtain ⟨found, hfound⟩ := Option.isSome_iff_exists.mp hsome
  have hid := List.find?_some hfound
  obtain rfl := h.eq_of_id (List.mem_of_find?_eq_some hfound) hrow (beq_iff_eq.mp hid)
  rw [get?, hfound]
  rfl

end Numbered

variable {keys : List κ} {content : κ → α} {key : κ} {test : α → Bool}

theorem keyed_congr {other : κ → α} (h : ∀ key ∈ keys, content key = other key) :
    keyed keys content = keyed keys other := by
  unfold keyed
  congr 1
  apply List.map_congr_left
  intro key hk
  rw [h key hk]

@[simp]
theorem contents_keyed : (keyed keys content).contents = keys.map content := by
  simp [contents, keyed]

@[simp]
theorem size_keyed : (keyed keys content).size = keys.length := by
  simp [size, keyed]

theorem mem_rows_keyed {row : Row α} :
    row ∈ (keyed keys content).rows ↔ ∃ key ∈ keys, ⟨number keys key, content key⟩ = row :=
  List.mem_map

theorem numbered_keyed (h : keys.Nodup) : (keyed keys content).Numbered := by
  unfold Numbered
  rw [size_keyed, ← map_number h]
  simp [keyed]

theorem largestId_of_numbered {t : Table α} (h : t.Numbered) : t.largestId = t.size := by
  have hmax (n : Nat) : (List.range' 1 n).foldl max 0 = n := by
    induction n with
    | zero => rfl
    | succ n ih =>
      rw [List.range'_concat, List.foldl_append, ih]
      simp only [List.foldl_cons, List.foldl_nil]
      omega
  calc
    t.largestId = (t.rows.map (·.id)).foldl max 0 := by rw [largestId, List.foldl_map]
    _ = t.size := by rw [h, hmax]

theorem insert_keyed (h : keys.Nodup) (hk : key ∉ keys) :
    (keyed keys content).insert (content key) = keyed (keys ++ [key]) content := by
  have hnew : number (keys ++ [key]) key = keys.length + 1 := by
    rw [← addNew_of_not_mem hk, number_addNew_self_of_not_mem hk]
  rw [insert, largestId_of_numbered (numbered_keyed h), size_keyed]
  simp only [keyed, List.map_append, List.map_cons, List.map_nil, hnew]
  congr 2
  apply List.map_congr_left
  intro k hk
  rw [number_append hk]

theorem find?_keyed (h : ∀ k ∈ keys, test (content k) = true ↔ k = key) :
    (keyed keys content).find? test =
      if key ∈ keys then some ⟨number keys key, content key⟩ else none := by
  have hfind : keys.find? (fun k => test (content k)) = if key ∈ keys then some key else none :=
    find?_of_unique h
  unfold find? keyed
  rw [List.find?_map]
  simp only [Function.comp_def, hfind]
  split <;> rfl

theorem ensure_keyed (hn : keys.Nodup) (h : ∀ k ∈ keys, test (content k) = true ↔ k = key) :
    (keyed keys content).ensure test (content key) =
      (number (addNew keys key) key, keyed (addNew keys key) content) := by
  unfold ensure
  rw [find?_keyed h]
  by_cases hk : key ∈ keys
  · simp only [if_pos hk, addNew_of_mem hk]
  · rw [number_addNew_self_of_not_mem hk, addNew_of_not_mem hk, if_neg hk, insert_keyed hn hk,
      largestId_of_numbered (numbered_keyed hn), size_keyed]

theorem get?_keyed (hk : key ∈ keys) :
    (keyed keys content).get? (number keys key) = some (content key) := by
  have hfind : keys.find? (fun k => number keys k == number keys key) =
      if key ∈ keys then some key else none :=
    find?_of_unique fun _ hk => by rw [beq_iff_eq, number_inj hk]
  unfold get? keyed
  rw [List.find?_map]
  simp only [Function.comp_def, hfind, if_pos hk]
  rfl

theorem modify_keyed (f : α → α) :
    (keyed keys content).modify (number keys key) f =
      keyed keys fun k => if k = key then f (content k) else content k := by
  unfold modify keyed
  simp only [List.map_map, mk.injEq]
  apply List.map_congr_left
  intro k hk'
  by_cases e : k = key
  · simp [e]
  · simp [e, number_inj hk']

end MusicIndex.Table
