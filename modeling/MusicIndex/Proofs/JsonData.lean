import Mathlib.Data.List.Perm.Basic
import MusicIndex.Json.Value

namespace MusicIndex.Json

mutual
/-- The same data, where `read` says what of a real counts. -/
def Same {α : Type} (read : Binary64 → α) : Json → Json → Prop
  | .null, w => w = .null
  | .bool b, w => w = .bool b
  | .integer n, w => w = .integer n
  | .real x, w => ∃ y, w = .real y ∧ read x = read y
  | .string s, w => w = .string s
  | .array items, w => ∃ others, w = .array others ∧ SameItems read items others
  | .object members, w => ∃ others, w = .object others ∧ SameMembers read members others

def SameItems {α : Type} (read : Binary64 → α) : List Json → List Json → Prop
  | [], others => others = []
  | v :: rest, others => ∃ w more, others = w :: more ∧ v.Same read w ∧ SameItems read rest more

def SameMembers {α : Type} (read : Binary64 → α) :
    List (String × Json) → List (String × Json) → Prop
  | [], others => others = []
  | (name, v) :: rest, others =>
    ∃ w more, others.Perm ((name, w) :: more) ∧ v.Same read w ∧ SameMembers read rest more
end

variable {α : Type} {read : Binary64 → α} {v w : Json} {vs ws : List Json}
  {ms ns : List (String × Json)} {name : String}

@[simp]
theorem same_integer {m n : Int} : (integer m).Same read (integer n) ↔ m = n := by
  rw [Same, integer.injEq, eq_comm]

@[simp]
theorem same_real {x y : Binary64} : (real x).Same read (real y) ↔ read x = read y := by
  simp [Same]

@[simp]
theorem same_string {s t : String} : (string s).Same read (string t) ↔ s = t := by
  rw [Same, string.injEq, eq_comm]

@[simp]
theorem same_array : (array vs).Same read (array ws) ↔ SameItems read vs ws := by
  simp [Same]

@[simp]
theorem same_object : (object ms).Same read (object ns) ↔ SameMembers read ms ns := by
  simp [Same]

theorem same_null_iff : v.Same read .null ↔ v = .null := by
  cases v <;> simp [Same]

@[simp]
theorem sameItems_nil : SameItems read [] ws ↔ ws = [] := by
  rw [SameItems]

@[simp]
theorem sameItems_cons :
    SameItems read (v :: vs) (w :: ws) ↔ v.Same read w ∧ SameItems read vs ws := by
  simp [SameItems]

@[simp]
theorem sameItems_cons_nil : ¬ SameItems read (v :: vs) [] := by
  simp [SameItems]

@[simp]
theorem sameMembers_nil : SameMembers read [] ns ↔ ns = [] := by
  rw [SameMembers]

theorem SameMembers.perm (h : SameMembers read ms ns) {ns' : List (String × Json)}
    (hperm : ns'.Perm ns) : SameMembers read ms ns' := by
  cases ms with
  | nil =>
    rw [sameMembers_nil] at h ⊢
    subst h
    exact hperm.eq_nil
  | cons m ms =>
    obtain ⟨w, more, hns, hv, hms⟩ := h
    exact ⟨w, more, hperm.trans hns, hv, hms⟩

/-- Members with a name that no other one has are the same by themselves. -/
theorem sameMembers_cons (hname : name ∉ ns.map (·.1)) :
    SameMembers read ((name, v) :: ms) ((name, w) :: ns) ↔
      v.Same read w ∧ SameMembers read ms ns := by
  constructor
  · rintro ⟨w', more, hperm, hv, hms⟩
    have hmem : (name, w') ∈ (name, w) :: ns := hperm.symm.subset List.mem_cons_self
    obtain rfl : w' = w := by
      rcases List.mem_cons.mp hmem with heq | hmem
      · exact congrArg Prod.snd heq
      · exact absurd (List.mem_map_of_mem hmem) hname
    exact ⟨hv, hms.perm hperm.cons_inv⟩
  · rintro ⟨hv, hms⟩
    exact ⟨w, ns, .refl _, hv, hms⟩

theorem not_sameMembers_cons_nil : ¬ SameMembers read ((name, v) :: ms) [] := by
  rintro ⟨w, more, hperm, -⟩
  cases hperm.nil_eq

mutual
theorem Same.refl (read : Binary64 → α) : ∀ v : Json, v.Same read v
  | .null => rfl
  | .bool _ => rfl
  | .integer _ => rfl
  | .real x => ⟨x, rfl, rfl⟩
  | .string _ => rfl
  | .array items => ⟨items, rfl, sameItems_refl read items⟩
  | .object members => ⟨members, rfl, sameMembers_refl read members⟩

theorem sameItems_refl (read : Binary64 → α) : ∀ vs, SameItems read vs vs
  | [] => rfl
  | v :: vs => ⟨v, vs, rfl, Same.refl read v, sameItems_refl read vs⟩

theorem sameMembers_refl (read : Binary64 → α) : ∀ ms, SameMembers read ms ms
  | [] => rfl
  | (_, v) :: ms => ⟨v, ms, .refl _, Same.refl read v, sameMembers_refl read ms⟩
end

section Parts

variable {β γ : Type} {f : β → Json} {g : β → γ}

theorem same_ofOption (hnull : ∀ a, f a ≠ .null)
    (hf : ∀ a b, (f a).Same read (f b) ↔ g a = g b) {o p : Option β} :
    (ofOption f o).Same read (ofOption f p) ↔ o.map g = p.map g := by
  cases o with
  | none =>
    cases p with
    | none => exact iff_of_true rfl rfl
    | some b => exact iff_of_false (hnull b) nofun
  | some a =>
    cases p with
    | none => exact iff_of_false (mt same_null_iff.mp (hnull a)) nofun
    | some b => exact (hf a b).trans (by simp)

theorem same_ofList (hf : ∀ a b, (f a).Same read (f b) ↔ g a = g b) {as bs : List β} :
    (ofList f as).Same read (ofList f bs) ↔ as.map g = bs.map g := by
  rw [ofList, ofList, same_array]
  induction as generalizing bs with
  | nil => simp
  | cons a as ih => cases bs <;> simp [hf, ih]

end Parts

end MusicIndex.Json
