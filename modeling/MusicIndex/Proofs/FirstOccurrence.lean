import Mathlib.Data.List.Induction
import Mathlib.Data.List.Nodup

namespace MusicIndex

variable {α β : Type} [DecidableEq α]

def addNew (l : List α) (a : α) : List α :=
  if a ∈ l then l else l ++ [a]

/-- The place of an element, counted from 1. -/
def number (l : List α) (a : α) : Nat :=
  l.idxOf a + 1

theorem mem_addNew {l : List α} {a b : α} : b ∈ addNew l a ↔ b ∈ l ∨ b = a := by
  unfold addNew
  split
  · rename_i h
    constructor
    · exact .inl
    · rintro (hb | rfl)
      · exact hb
      · exact h
  · simp

theorem mem_addNew_self (l : List α) (a : α) : a ∈ addNew l a :=
  mem_addNew.mpr (.inr rfl)

theorem addNew_of_mem {l : List α} {a : α} (h : a ∈ l) : addNew l a = l :=
  if_pos h

theorem addNew_of_not_mem {l : List α} {a : α} (h : a ∉ l) : addNew l a = l ++ [a] :=
  if_neg h

theorem eraseDups_concat (l : List α) (a : α) :
    (l ++ [a]).eraseDups = addNew l.eraseDups a := by
  rw [List.eraseDups_append]
  by_cases h : a ∈ l
  · simp [addNew, List.removeAll, h]
  · simp [addNew, List.removeAll, h, List.eraseDups_cons]

theorem eraseDups_map_filter_concat (p : β → Bool) (f : β → α) (l : List β) (b : β) :
    (((l ++ [b]).filter p).map f).eraseDups =
      if p b then addNew ((l.filter p).map f).eraseDups (f b)
      else ((l.filter p).map f).eraseDups := by
  rw [List.filter_append, List.map_append]
  split
  · rename_i h
    rw [List.filter_cons_of_pos h, List.filter_nil, List.map_singleton, eraseDups_concat]
  · rename_i h
    rw [List.filter_cons_of_neg h, List.filter_nil, List.map_nil, List.append_nil]

theorem nodup_addNew {l : List α} (h : l.Nodup) (a : α) : (addNew l a).Nodup := by
  unfold addNew
  split
  · exact h
  · rename_i ha
    rw [← List.concat_eq_append]
    exact h.concat ha

theorem nodup_eraseDups (l : List α) : l.eraseDups.Nodup := by
  induction l using List.reverseRecOn with
  | nil => exact .nil
  | append_singleton l a ih =>
    rw [eraseDups_concat]
    exact nodup_addNew ih a

theorem filter_eraseDups (p : α → Bool) (l : List α) :
    l.eraseDups.filter p = (l.filter p).eraseDups := by
  induction l using List.reverseRecOn with
  | nil => rfl
  | append_singleton l a ih =>
    have hmap := eraseDups_map_filter_concat p id l a
    simp only [List.map_id, id] at hmap
    rw [hmap, eraseDups_concat, ← ih]
    unfold addNew
    by_cases ha : a ∈ l.eraseDups <;> by_cases hp : p a = true <;>
      simp [ha, hp, List.filter_append]

theorem map_eraseDups [DecidableEq β] {f : α → β} {l : List α}
    (h : ∀ a ∈ l, ∀ b ∈ l, f a = f b → a = b) : l.eraseDups.map f = (l.map f).eraseDups := by
  induction l using List.reverseRecOn with
  | nil => rfl
  | append_singleton l a ih =>
    have hl : ∀ b ∈ l, ∀ c ∈ l, f b = f c → b = c := fun b hb c hc =>
      h b (List.mem_append_left _ hb) c (List.mem_append_left _ hc)
    rw [List.map_append, List.map_singleton, eraseDups_concat, eraseDups_concat, ← ih hl]
    have hmem : f a ∈ l.eraseDups.map f ↔ a ∈ l.eraseDups := by
      rw [List.mem_map]
      constructor
      · rintro ⟨b, hb, e⟩
        have hbl := List.mem_append_left [a] (List.mem_eraseDups.mp hb)
        obtain rfl := h b hbl a (List.mem_append_right _ (List.mem_singleton_self a)) e
        exact hb
      · exact fun ha => ⟨a, ha, rfl⟩
    unfold addNew
    by_cases ha : a ∈ l.eraseDups
    · rw [if_pos ha, if_pos (hmem.mpr ha)]
    · rw [if_neg ha, if_neg (mt hmem.mp ha), List.map_append, List.map_singleton]

theorem number_inj {l : List α} {a b : α} (ha : a ∈ l) : number l a = number l b ↔ a = b := by
  unfold number
  rw [Nat.add_right_cancel_iff, List.idxOf_inj ha]

theorem number_append {l : List α} {a : α} (h : a ∈ l) (m : List α) :
    number (l ++ m) a = number l a := by
  unfold number
  rw [List.idxOf_append_of_mem h]

theorem number_addNew {l : List α} {a : α} (h : a ∈ l) (b : α) :
    number (addNew l b) a = number l a := by
  unfold addNew
  split
  · rfl
  · exact number_append h _

theorem number_addNew_self_of_not_mem {l : List α} {a : α} (h : a ∉ l) :
    number (addNew l a) a = l.length + 1 := by
  rw [addNew_of_not_mem h, number, List.idxOf_append_of_notMem h]
  simp

theorem number_eraseDups_append {l : List α} {a : α} (h : a ∈ l) (m : List α) :
    number (l ++ m).eraseDups a = number l.eraseDups a := by
  rw [List.eraseDups_append]
  exact number_append (List.mem_eraseDups.mpr h) _

theorem map_number {l : List α} (h : l.Nodup) : l.map (number l) = List.range' 1 l.length := by
  apply List.ext_getElem
  · simp
  · intro i hi _
    have hi' : i < l.length := by simpa using hi
    simp only [List.getElem_map, List.getElem_range', number, h.idxOf_getElem i hi']
    omega

theorem find?_of_unique {l : List α} {test : α → Bool} {a : α}
    (h : ∀ b ∈ l, test b = true ↔ b = a) : l.find? test = if a ∈ l then some a else none := by
  induction l with
  | nil => rfl
  | cons b l ih =>
    obtain ⟨hb, hl⟩ := List.forall_mem_cons.mp h
    by_cases e : b = a
    · subst e
      rw [List.find?_cons_of_pos (hb.mpr rfl), if_pos List.mem_cons_self]
    · rw [List.find?_cons_of_neg (fun ht => e (hb.mp ht)), ih hl]
      simp [Ne.symm e]

theorem filter_of_unique {l : List α} {test : α → Bool} {a : α} (hl : l.Nodup)
    (h : ∀ b ∈ l, test b = true ↔ b = a) : l.filter test = if a ∈ l then [a] else [] := by
  have htest : ∀ b ∈ l, test b = (b == a) := by
    intro b hb
    rw [Bool.eq_iff_iff, h b hb, beq_iff_eq]
  rw [List.filter_congr htest, List.filter_beq]
  split
  · rename_i ha
    rw [List.count_eq_one_of_mem hl ha, List.replicate_one]
  · rename_i ha
    rw [List.count_eq_zero_of_not_mem ha, List.replicate_zero]

end MusicIndex
