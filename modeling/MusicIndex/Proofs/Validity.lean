import Mathlib.Algebra.Order.Field.Rat
import Mathlib.Data.List.TakeWhile
import Mathlib.Tactic.Positivity
import MusicIndex.Entity.Validity

namespace MusicIndex

theorem bind_eq_ok_iff {ε α β : Type} {x : Except ε α} {f : α → Except ε β} {b : β} :
    x >>= f = .ok b ↔ ∃ a, x = .ok a ∧ f a = .ok b := by
  cases x <;> simp [bind, Except.bind]

theorem checks_eq_ok_iff {first second : Except Invalid Unit} :
    (do first; second) = .ok () ↔ first = .ok () ∧ second = .ok () := by
  cases first <;> simp [bind, Except.bind]

theorem checks_eq_error {first second : Except Invalid Unit} {cause : Invalid}
    (h : (do first; second) = .error cause) :
    first = .error cause ∨ first = .ok () ∧ second = .error cause := by
  cases first with
  | error e => exact .inl h
  | ok u => exact .inr ⟨rfl, h⟩

namespace Text

/-- Nothing is left of a text after trimming. -/
def Blank (s : String) : Prop :=
  trimmed s.toList = []

theorem dropWhile_reverse_eq_nil {p : Char → Bool} {cs : List Char} :
    ((cs.dropWhile p).reverse.dropWhile p).reverse = [] ↔ ∀ c ∈ cs, p c = true := by
  rw [List.reverse_eq_nil_iff, List.dropWhile_eq_nil_iff]
  constructor
  · intro h
    have hs : cs.dropWhile p = [] := by
      by_contra hne
      have hhead := List.head_dropWhile_not p hne
      rw [h _ (List.mem_reverse.mpr (List.head_mem hne))] at hhead
      cases hhead
    exact List.dropWhile_eq_nil_iff.mp hs
  · intro h c hc
    exact h c ((List.dropWhile_sublist p).mem (List.mem_reverse.mp hc))

theorem allBlank_iff {s : String} : allBlank s = true ↔ Blank s := by
  rw [allBlank, List.all_eq_true, Blank, trimmed, dropWhile_reverse_eq_nil]

instance (s : String) : Decidable (Blank s) :=
  decidable_of_iff _ allBlank_iff

end Text

namespace Binary64

/-- The number that a double-precision number stands for. -/
def toRat (x : Binary64) : ℚ :=
  (if x.negative then -1 else 1) * (x.units / 2 ^ 1074)

theorem units_eq_zero {x : Binary64} : x.units = 0 ↔ x.isZero = true := by
  unfold units unitsOf isZero
  simp only [Nat.pow_eq]
  split
  · simp
  · rename_i h
    have hm : x.magnitude ≠ 0 := by
      intro e
      rw [e] at h
      exact h (by positivity)
    have hu : 0 < (2 ^ 52 + x.magnitude % 2 ^ 52) * 2 ^ (x.magnitude / 2 ^ 52 - 1) := by
      positivity
    simp [hm]

theorem toRat_eq_zero {x : Binary64} : x.toRat = 0 ↔ x.isZero = true := by
  have hsign : (if x.negative then -1 else 1 : ℚ) ≠ 0 := by
    split <;> norm_num
  have hscale : (2 ^ 1074 : ℚ) ≠ 0 := by positivity
  rw [toRat, mul_eq_zero, or_iff_right hsign, div_eq_zero_iff, or_iff_left hscale, Nat.cast_eq_zero,
    units_eq_zero]

theorem inRange_iff {n : Nat} {x : Binary64} :
    x.inRange n = true ↔ 0 ≤ x.toRat ∧ x.toRat ≤ n := by
  cases hz : x.isZero
  · have hu : (0 : ℚ) < x.units := by
      have hne : x.units ≠ 0 := by
        rw [Ne, units_eq_zero, hz]
        exact Bool.false_ne_true
      exact_mod_cast Nat.pos_of_ne_zero hne
    have hs : (0 : ℚ) < 2 ^ 1074 := by positivity
    have hq : 0 < (x.units : ℚ) / 2 ^ 1074 := div_pos hu hs
    cases hn : x.negative
    · have hle : x.units ≤ n * 2 ^ 1074 ↔ (x.units : ℚ) / 2 ^ 1074 ≤ n := by
        rw [div_le_iff₀ hs]
        exact_mod_cast Iff.rfl
      simp only [inRange, hz, hn, toRat, Bool.not_false, Bool.false_or, Bool.true_and,
        decide_eq_true_eq, Nat.pow_eq, hle, Bool.false_eq_true, if_false, one_mul, hq.le, true_and]
    · have hneg : ¬ 0 ≤ x.toRat := by
        simp only [toRat, hn, if_true, neg_one_mul, not_le]
        exact neg_lt_zero.mpr hq
      simp only [inRange, hz, hn, hneg, Bool.not_true, Bool.false_and, Bool.or_self,
        Bool.false_eq_true, false_and]
  · simp only [inRange, hz, Bool.true_or, toRat_eq_zero.mpr hz, le_refl, Nat.cast_nonneg, and_self]

@[simp]
theorem toRat_plainZero (x : Binary64) : x.plainZero.toRat = x.toRat := by
  unfold plainZero
  split
  · rename_i h
    rw [toRat_eq_zero.mpr h]
    exact toRat_eq_zero.mpr rfl
  · rfl

theorem unitsOf_strictMono : StrictMono unitsOf := by
  intro a b hab
  unfold unitsOf
  simp only [Nat.pow_eq]
  split
  · rename_i ha
    split
    · exact hab
    · -- a number below the first power of two with an exponent
      have hscale : 1 ≤ 2 ^ (b / 2 ^ 52 - 1) := Nat.one_le_two_pow
      calc a < 2 ^ 52 := ha
        _ ≤ 2 ^ 52 + b % 2 ^ 52 := Nat.le_add_right _ _
        _ ≤ (2 ^ 52 + b % 2 ^ 52) * 2 ^ (b / 2 ^ 52 - 1) := Nat.le_mul_of_pos_right _ hscale
  · rename_i ha
    have hb : ¬ b < 2 ^ 52 := by omega
    rw [if_neg hb]
    have hquot : a / 2 ^ 52 ≤ b / 2 ^ 52 := Nat.div_le_div_right hab.le
    rcases hquot.eq_or_lt with heq | hlt
    · have hrem : a % 2 ^ 52 < b % 2 ^ 52 := by omega
      rw [heq]
      gcongr
    · have hfirst : 1 ≤ a / 2 ^ 52 := by omega
      have hnext : 2 ^ 52 * 2 ^ (a / 2 ^ 52) ≤ 2 ^ 52 * 2 ^ (b / 2 ^ 52 - 1) :=
        Nat.mul_le_mul_left _ (Nat.pow_le_pow_right (by omega) (by omega))
      have hdouble : (2 ^ 52 + 2 ^ 52) * 2 ^ (a / 2 ^ 52 - 1) = 2 ^ 52 * 2 ^ (a / 2 ^ 52) := by
        obtain ⟨k, hk⟩ := Nat.exists_eq_add_of_le' hfirst
        rw [hk, Nat.add_sub_cancel, Nat.pow_succ]
        omega
      have hrem : a % 2 ^ 52 < 2 ^ 52 := Nat.mod_lt _ (by omega)
      calc (2 ^ 52 + a % 2 ^ 52) * 2 ^ (a / 2 ^ 52 - 1)
          < (2 ^ 52 + 2 ^ 52) * 2 ^ (a / 2 ^ 52 - 1) := by gcongr
        _ = 2 ^ 52 * 2 ^ (a / 2 ^ 52) := hdouble
        _ ≤ 2 ^ 52 * 2 ^ (b / 2 ^ 52 - 1) := hnext
        _ ≤ (2 ^ 52 + b % 2 ^ 52) * 2 ^ (b / 2 ^ 52 - 1) :=
          Nat.mul_le_mul_right _ (Nat.le_add_right _ _)

theorem eq_of_toRat_eq {x y : Binary64} (hx : x.isZero = false) (h : x.toRat = y.toRat) :
    x = y := by
  have hunits : 0 < x.units := by
    rw [Nat.pos_iff_ne_zero, Ne, units_eq_zero, hx]
    exact Bool.false_ne_true
  have hscale : (0 : ℚ) < 2 ^ 1074 := by positivity
  rw [toRat, toRat, ← mul_div_assoc, ← mul_div_assoc, div_left_inj' hscale.ne'] at h
  have hsame : x.negative = y.negative ∧ x.units = y.units := by
    cases hnx : x.negative <;> cases hny : y.negative <;> simp [hnx, hny] at h ⊢ <;> omega
  obtain ⟨negative, m, hm⟩ := x
  obtain ⟨negative', n, hn⟩ := y
  obtain ⟨rfl, hmagnitude⟩ := hsame
  obtain rfl : m = n := unitsOf_strictMono.injective hmagnitude
  rfl

/-- Finite numbers are equal up to the sign of a zero if they stand for the same number. -/
theorem toRat_inj {x y : Binary64} : x.toRat = y.toRat ↔ x.plainZero = y.plainZero := by
  refine ⟨fun h => ?_, fun h => by rw [← toRat_plainZero x, h, toRat_plainZero]⟩
  cases hx : x.isZero with
  | true =>
    have hy : y.isZero = true := by rw [← toRat_eq_zero, ← h, toRat_eq_zero, hx]
    rw [plainZero, plainZero, if_pos hx, if_pos hy]
  | false => rw [eq_of_toRat_eq hx h]

end Binary64

/-- True of the numbers from 0 to 100, and of nothing that is infinite or no number. -/
def Double.IsPercentage : Double → Prop
  | finite x => 0 ≤ x.toRat ∧ x.toRat ≤ 100
  | nan | infinite _ => False

theorem Double.inRange_iff {v : Double} : v.inRange 100 = true ↔ v.IsPercentage := by
  cases v with
  | nan => exact iff_of_false Bool.false_ne_true id
  | infinite negative => exact iff_of_false Bool.false_ne_true id
  | finite x =>
    change x.inRange 100 = true ↔ 0 ≤ x.toRat ∧ x.toRat ≤ 100
    simpa using Binary64.inRange_iff (n := 100) (x := x)

namespace Shares

variable {α : Type} [ToDouble α]

def InRange (s : Shares α) : Prop :=
  ∀ name value, (name, some value) ∈ s.named → (ToDouble.toDouble value).IsPercentage

def numbers (s : Shares Binary64) : List (Option ℚ) :=
  s.named.map fun share => share.2.map (·.toRat)

theorem inRange_unknown : (unknown : Shares α).InRange := by
  intro name value h
  simp [named, unknown] at h

theorem inRange_iff {s : Shares α} : s.InRange ↔ ∀ pair ∈ s.named, ∀ value,
    pair.2 = some value → (ToDouble.toDouble value).IsPercentage := by
  constructor
  · rintro h ⟨name, share⟩ hp value rfl
    exact h name value hp
  · intro h name value hp
    exact h _ hp value rfl

theorem mem_named_kept {s : Shares Binary64} {name : String} {value : Binary64}
    (h : (name, some value) ∈ s.kept.named) :
    ∃ v, (name, some v) ∈ s.named ∧ v.plainZero = value := by
  have hnamed : s.kept.named = s.named.map fun m => (m.1, m.2.map .plainZero) := rfl
  rw [hnamed] at h
  simpa [and_comm] using h

theorem mem_named_finite {s : Shares Double} {name : String} {value : Binary64}
    (h : (name, some value) ∈ s.finite.named) : (name, some (.finite value)) ∈ s.named := by
  have hnamed : s.finite.named = s.named.map fun m => (m.1, m.2.bind (·.finite?)) := rfl
  rw [hnamed] at h
  obtain ⟨⟨_, share⟩, hshare, he⟩ := List.mem_map.mp h
  obtain ⟨rfl, hvalue⟩ : _ = name ∧ share.bind (·.finite?) = some value := Prod.mk.inj he
  obtain ⟨v, rfl, hv⟩ := Option.bind_eq_some_iff.mp hvalue
  cases v with
  | finite x =>
    cases hv
    exact hshare
  | _ => cases hv

theorem InRange.kept {s : Shares Binary64} (h : s.InRange) : s.kept.InRange := by
  intro name value hvalue
  obtain ⟨v, hv, rfl⟩ := mem_named_kept hvalue
  change 0 ≤ v.plainZero.toRat ∧ v.plainZero.toRat ≤ 100
  rw [Binary64.toRat_plainZero]
  exact h name v hv

theorem InRange.finite {s : Shares Double} (h : s.InRange) : s.finite.InRange :=
  fun name _ hvalue => h name _ (mem_named_finite hvalue)

theorem map_finite_of_isPercentage {share : Option Double}
    (h : ∀ v, share = some v → v.IsPercentage) :
    (share.bind (·.finite?)).map ToDouble.toDouble = share := by
  cases share with
  | none => rfl
  | some v =>
    cases v with
    | finite x => rfl
    | nan => exact (h _ rfl).elim
    | infinite negative => exact (h _ rfl).elim

/-- Shares in range are numbers, so that none of them is lost. -/
theorem InRange.given_finite {s : Shares Double} (h : s.InRange) : s.finite.given = s := by
  rw [inRange_iff] at h
  simp only [named, List.forall_mem_cons] at h
  obtain ⟨hp, hm, hy, -⟩ := h
  have hp := map_finite_of_isPercentage hp
  have hm := map_finite_of_isPercentage hm
  have hy := map_finite_of_isPercentage hy
  simp only [given, map, Shares.finite, hp, hm, hy]

theorem checkShare_eq_ok_iff {name : String} {share : Option Double} :
    checkShare (name, share) = .ok () ↔ ∀ value, share = some value → value.IsPercentage := by
  cases share with
  | none => simp [checkShare]
  | some value =>
    rw [checkShare]
    split
    · rename_i h
      simpa using Double.inRange_iff.mp h
    · rename_i h
      simpa using mt Double.inRange_iff.mpr h

theorem check_eq_ok_iff {s : Shares Double} : s.check = .ok () ↔ s.InRange := by
  rw [check, checks_eq_ok_iff, checks_eq_ok_iff, inRange_iff]
  simp only [checkShare_eq_ok_iff, named, List.forall_mem_cons]
  simp [ToDouble.toDouble]

end Shares

namespace Identifier

def Improper (i : Identifier) : Prop :=
  Text.Blank i.scheme ∨ Text.Blank i.value

instance (i : Identifier) : Decidable i.Improper :=
  inferInstanceAs (Decidable (_ ∨ _))

theorem check_eq_ok_iff {i : Identifier} : i.check = .ok () ↔ ¬ i.Improper := by
  unfold check Improper
  rw [← Text.allBlank_iff, ← Text.allBlank_iff]
  split
  · simp [*]
  · split <;> simp [*]

end Identifier

theorem checkSource_eq_ok_iff {name : String} : checkSource name = .ok () ↔ ¬ Text.Blank name := by
  unfold checkSource
  rw [← Text.allBlank_iff]
  split <;> simp [*]

namespace Link

variable {α : Type}

/-- An end is improper, or an attribute does not belong to the kind, or a share is no percentage. -/
def Improper [ToDouble α] (l : Link α) : Prop :=
  l.a.Improper ∨ l.b.Improper ∨ (l.kind.attributes = .none ∧ l.role ≠ none) ∨
    (l.kind.attributes ≠ .roleAndShares ∧ l.shares ≠ none) ∨
    (l.kind.attributes = .roleAndShares ∧ ∃ s, l.shares = some s ∧ ¬ s.InRange)

theorem checkRole_eq_ok_iff {l : Link Double} :
    l.checkRole = .ok () ↔ ¬ (l.kind.attributes = .none ∧ l.role ≠ none) := by
  unfold checkRole
  cases l.kind.attributes <;> cases l.role <;> simp

theorem checkShares_eq_ok_iff {l : Link Double} :
    l.checkShares = .ok () ↔ ¬ ((l.kind.attributes ≠ .roleAndShares ∧ l.shares ≠ none) ∨
      (l.kind.attributes = .roleAndShares ∧ ∃ s, l.shares = some s ∧ ¬ s.InRange)) := by
  unfold checkShares
  cases l.kind.attributes <;> cases l.shares <;> simp [Shares.check_eq_ok_iff]

theorem check_eq_ok_iff {l : Link Double} : l.check = .ok () ↔ ¬ l.Improper := by
  rw [check, checks_eq_ok_iff, checks_eq_ok_iff, checks_eq_ok_iff, Identifier.check_eq_ok_iff,
    Identifier.check_eq_ok_iff, checkRole_eq_ok_iff, checkShares_eq_ok_iff, Improper]
  simp only [not_or]

theorem proper_finite {l : Link Double} (h : ¬ l.Improper) : ¬ l.finite.Improper := by
  rintro (ha | hb | hrole | ⟨hkind, hshares⟩ | ⟨hkind, s, hs, hrange⟩)
  · exact h (.inl ha)
  · exact h (.inr (.inl hb))
  · exact h (.inr (.inr (.inl hrole)))
  · refine h (.inr (.inr (.inr (.inl ⟨hkind, fun hnone => hshares ?_⟩))))
    rw [finite, hnone]
    rfl
  · obtain ⟨t, ht, rfl⟩ := Option.map_eq_some_iff.mp hs
    exact h (.inr (.inr (.inr (.inr ⟨hkind, t, ht, fun hr => hrange hr.finite⟩))))

theorem keyRole_of_proper [ToDouble α] {l : Link α} (h : ¬ l.Improper)
    (hk : l.kind.attributes = .none) : l.keyRole = "" := by
  have hnone : l.role = none := by
    by_contra hne
    exact h (.inr (.inr (.inl ⟨hk, hne⟩)))
  simp [keyRole, hnone]

theorem proper_ends [ToDouble α] {l : Link α} (h : ¬ l.Improper) :
    ¬ l.a.Improper ∧ ¬ l.b.Improper :=
  ⟨fun ha => h (.inl ha), fun hb => h (.inr (.inl hb))⟩

end Link

end MusicIndex
