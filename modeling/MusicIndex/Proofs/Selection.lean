import MusicIndex.Merge.Claim
import Mathlib.Data.List.Sort
import Mathlib.Data.Prod.Lex

namespace MusicIndex

namespace Claim

def rank (policy : SourcePolicy) (c : Claim) : Nat ×ₗ Int :=
  toLex (policy.priorityFor c.source, c.record)

/-- Every other claim is of a source with a lower priority, or of an earlier record and of a source
with the same priority. -/
structure Prevails (policy : SourcePolicy) (claims : List Claim) (c : Claim) : Prop where
  mem : c ∈ claims
  others : ∀ d ∈ claims, d ≠ c → policy.priorityFor d.source < policy.priorityFor c.source ∨
    policy.priorityFor d.source = policy.priorityFor c.source ∧ d.record < c.record

variable {policy : SourcePolicy} {claims other : List Claim} {c d : Claim}

theorem rank_lt_rank : d.rank policy < c.rank policy ↔
    policy.priorityFor d.source < policy.priorityFor c.source ∨
      policy.priorityFor d.source = policy.priorityFor c.source ∧ d.record < c.record :=
  Prod.Lex.toLex_lt_toLex

theorem outranks_iff : outranks policy c d = true ↔ d.rank policy < c.rank policy := by
  rw [rank_lt_rank]
  simp [outranks]

theorem record_eq_of_rank_eq (h : d.rank policy = c.rank policy) : d.record = c.record :=
  congrArg (fun r => (ofLex r).2) h

theorem Prevails.unique (hc : c.Prevails policy claims) (hd : d.Prevails policy claims) :
    d = c := by
  by_contra hne
  have hbelow := rank_lt_rank.mpr (hc.others d hd.mem hne)
  have habove := rank_lt_rank.mpr (hd.others c hc.mem (Ne.symm hne))
  exact lt_asymm hbelow habove

theorem Prevails.perm (h : c.Prevails policy claims) (hp : claims.Perm other) :
    c.Prevails policy other where
  mem := hp.mem_iff.mp h.mem
  others d hd := h.others d (hp.mem_iff.mpr hd)

theorem current_eq_none_iff : current policy claims = none ↔ claims = [] := by
  cases claims with
  | nil => simp [current]
  | cons c rest =>
    unfold current
    cases current policy rest with
    | none => simp
    | some d =>
      dsimp only
      split <;> simp

theorem rank_le_current (h : current policy claims = some c) :
    c ∈ claims ∧ ∀ d ∈ claims, d.rank policy ≤ c.rank policy := by
  induction claims generalizing c with
  | nil => cases h
  | cons e rest ih =>
    unfold current at h
    cases hrest : current policy rest with
    | none =>
      obtain rfl := current_eq_none_iff.mp hrest
      rw [hrest] at h
      cases h
      simp
    | some d =>
      obtain ⟨hmem, hmax⟩ := ih hrest
      rw [hrest] at h
      dsimp only at h
      split at h
      · rename_i hout
        cases h
        have hlt := outranks_iff.mp hout
        refine ⟨List.mem_cons_self, List.forall_mem_cons.mpr ⟨le_rfl, ?_⟩⟩
        exact fun f hf => (hmax f hf).trans hlt.le
      · rename_i hout
        cases h
        have hle := not_lt.mp (mt outranks_iff.mpr hout)
        exact ⟨List.mem_cons_of_mem _ hmem, List.forall_mem_cons.mpr ⟨hle, hmax⟩⟩

section Distinct

variable (hrecords : (claims.map (·.record)).Nodup)

include hrecords

theorem current_eq_some_iff : current policy claims = some c ↔ c.Prevails policy claims := by
  have hprevails {d : Claim} (hd : current policy claims = some d) : d.Prevails policy claims := by
    obtain ⟨hmem, hmax⟩ := rank_le_current hd
    refine ⟨hmem, fun e he hne => rank_lt_rank.mp (lt_of_le_of_ne (hmax e he) fun hrank => ?_)⟩
    exact hne (List.inj_on_of_nodup_map hrecords he hmem (record_eq_of_rank_eq hrank))
  refine ⟨hprevails, fun hc => ?_⟩
  have hsome : current policy claims ≠ none :=
    mt current_eq_none_iff.mp (List.ne_nil_of_mem hc.mem)
  obtain ⟨d, hd⟩ := Option.ne_none_iff_exists'.mp hsome
  rw [hd, hc.unique (hprevails hd)]

end Distinct

theorem insertByRecord_eq (c : Claim) (claims : List Claim) :
    insertByRecord c claims = claims.orderedInsert (fun c d => c.record ≤ d.record) c := by
  induction claims with
  | nil => rfl
  | cons d rest ih => rw [insertByRecord, List.orderedInsert_cons, ih]

theorem byRecord_eq (claims : List Claim) :
    byRecord claims = claims.insertionSort fun c d => c.record ≤ d.record := by
  induction claims with
  | nil => rfl
  | cons c rest ih =>
    rw [List.insertionSort_cons, ← ih, ← insertByRecord_eq]
    rfl

theorem byRecord_perm (claims : List Claim) : (byRecord claims).Perm claims := by
  rw [byRecord_eq]
  exact List.perm_insertionSort _ _

theorem byRecord_of_sorted (h : claims.Pairwise (·.record < ·.record)) :
    byRecord claims = claims := by
  rw [byRecord_eq]
  exact List.Pairwise.insertionSort_eq (h.imp le_of_lt)

section Distinct

variable (hrecords : (claims.map (·.record)).Nodup)

include hrecords

theorem nodup_byRecord : ((byRecord claims).map (·.record)).Nodup :=
  ((byRecord_perm claims).map _).nodup_iff.mpr hrecords

theorem sorted_byRecord : (byRecord claims).Pairwise (·.record < ·.record) := by
  have hne : (byRecord claims).Pairwise fun c d => c.record ≠ d.record :=
    List.pairwise_map.mp (nodup_byRecord hrecords)
  have hle : (byRecord claims).Pairwise fun c d => c.record ≤ d.record := by
    have : Std.Total fun c d : Claim => c.record ≤ d.record := ⟨fun c d => le_total _ _⟩
    have : IsTrans Claim fun c d => c.record ≤ d.record := ⟨fun c d e => le_trans⟩
    rw [byRecord_eq]
    exact List.pairwise_insertionSort _ _
  exact hle.imp₂ (fun c d hcd hne => lt_of_le_of_ne hcd hne) hne

theorem byRecord_eq_of_perm (hp : claims.Perm other) : byRecord other = byRecord claims := by
  have hsame := (byRecord_perm other).trans (hp.symm.trans (byRecord_perm claims).symm)
  have hother : (other.map (·.record)).Nodup := (hp.map _).nodup_iff.mp hrecords
  apply hsame.eq_of_pairwise _ (sorted_byRecord hother) (sorted_byRecord hrecords)
  intro c d _ _ hcd hdc
  exact absurd hdc hcd.asymm

end Distinct

end Claim

namespace MergedValue

/-- The claim that gives a merged value. -/
def selected (policy : SourcePolicy) (claims : List Claim) : Option Claim :=
  Claim.current policy (Claim.byRecord claims)

variable {policy : SourcePolicy} {claims other : List Claim} {c : Claim} {v : MergedValue}

theorem merge_eq : merge policy claims = (selected policy claims).map fun c =>
    ⟨c.value, (Claim.byRecord claims).map (Claim.scored policy)⟩ :=
  rfl

theorem selected_eq_none_iff : selected policy claims = none ↔ claims = [] := by
  rw [selected, Claim.current_eq_none_iff, ← List.length_eq_zero_iff,
    (Claim.byRecord_perm claims).length_eq, List.length_eq_zero_iff]

theorem exists_selected (policy : SourcePolicy) (h : claims ≠ []) :
    ∃ c, selected policy claims = some c :=
  Option.ne_none_iff_exists'.mp (mt selected_eq_none_iff.mp h)

theorem merge_of_selected (h : selected policy claims = some c) : merge policy claims =
    some ⟨c.value, (Claim.byRecord claims).map (Claim.scored policy)⟩ := by
  rw [merge_eq, h]
  rfl

theorem merge_eq_none_iff : merge policy claims = none ↔ claims = [] := by
  rw [merge_eq, Option.map_eq_none_iff, selected_eq_none_iff]

section Distinct

variable (hrecords : (claims.map (·.record)).Nodup)

include hrecords

theorem selected_eq_some_iff : selected policy claims = some c ↔ c.Prevails policy claims := by
  rw [selected, Claim.current_eq_some_iff (Claim.nodup_byRecord hrecords)]
  have hp := Claim.byRecord_perm claims
  exact ⟨fun h => h.perm hp, fun h => h.perm hp.symm⟩

theorem merge_eq_some_iff : merge policy claims = some v ↔ ∃ c : Claim, c.Prevails policy claims ∧
    ⟨c.value, (Claim.byRecord claims).map (Claim.scored policy)⟩ = v := by
  simp only [merge_eq, Option.map_eq_some_iff, selected_eq_some_iff hrecords]

theorem merge_of_perm (hp : claims.Perm other) : merge policy other = merge policy claims := by
  rw [merge_eq, merge_eq, selected, selected, Claim.byRecord_eq_of_perm hrecords hp]

theorem isUnanimous_iff (hv : merge policy claims = some v) :
    v.isUnanimous = true ↔ ∀ c ∈ claims, ∀ d ∈ claims, c.value = d.value := by
  obtain ⟨e, he, rfl⟩ := (merge_eq_some_iff hrecords).mp hv
  have hagree : (⟨e.value, (Claim.byRecord claims).map (Claim.scored policy)⟩ :
      MergedValue).isUnanimous = true ↔ ∀ c ∈ claims, c.value = e.value := by
    simp [isUnanimous, Claim.scored, (Claim.byRecord_perm claims).mem_iff]
  rw [hagree]
  constructor
  · exact fun h c hc d hd => (h c hc).trans (h d hd).symm
  · exact fun h c hc => h c hc e he.mem

end Distinct

end MergedValue

/-- Claims of distinct records have a merged value, if there are any, whatever order they come in:
the value of the one claim that prevails, with all claims in the order of their records. -/
theorem merged_value_of_claims (policy : SourcePolicy) {claims : List Claim}
    (hrecords : (claims.map (·.record)).Nodup) :
    (MergedValue.merge policy claims = none ↔ claims = []) ∧
    (∀ v, MergedValue.merge policy claims = some v →
      (∃ c : Claim, c.Prevails policy claims ∧
        (∀ d : Claim, d.Prevails policy claims → d = c) ∧ v.value = c.value) ∧
      (∃ ordered : List Claim, ordered.Perm claims ∧ ordered.Pairwise (·.record < ·.record) ∧
        v.sources = ordered.map fun c => ⟨c.value, c.source, policy.priorityFor c.source⟩) ∧
      (v.isUnanimous = true ↔ ∀ c ∈ claims, ∀ d ∈ claims, c.value = d.value)) ∧
    ∀ other : List Claim, other.Perm claims →
      MergedValue.merge policy other = MergedValue.merge policy claims := by
  refine ⟨MergedValue.merge_eq_none_iff, fun v hv => ⟨?_, ?_, ?_⟩, fun other hp => ?_⟩
  · obtain ⟨c, hc, rfl⟩ := (MergedValue.merge_eq_some_iff hrecords).mp hv
    exact ⟨c, hc, fun d hd => hc.unique hd, rfl⟩
  · obtain ⟨c, -, rfl⟩ := (MergedValue.merge_eq_some_iff hrecords).mp hv
    exact ⟨_, Claim.byRecord_perm claims, Claim.sorted_byRecord hrecords, rfl⟩
  · exact MergedValue.isUnanimous_iff hrecords hv
  · exact MergedValue.merge_of_perm hrecords hp.symm

/-- The later of two claims of the preferred source is the current one, whichever is named first. -/
theorem merged_value_of_three_claims :
    let policy := SourcePolicy.ofEntries [("cwr", 10)]
    let claims : List Claim := [⟨"C", "cwr", 3⟩, ⟨"B", "radio", 4⟩, ⟨"A", "cwr", 1⟩]
    let v : MergedValue := ⟨"C", [⟨"A", "cwr", 10⟩, ⟨"C", "cwr", 10⟩, ⟨"B", "radio", 0⟩]⟩
    (claims.map (·.record)).Nodup ∧ MergedValue.merge policy claims = some v ∧
      v.isUnanimous = false ∧ MergedValue.merge policy claims.reverse = some v ∧
      ∃ c : Claim, c.Prevails policy claims ∧ v.value = c.value := by
  intro policy claims v
  have hrecords : (claims.map (·.record)).Nodup := by decide
  have hv : MergedValue.merge policy claims = some v := by decide +kernel
  obtain ⟨-, hmerged, hperm⟩ := merged_value_of_claims policy hrecords
  obtain ⟨⟨c, hc, -, hvalue⟩, -, hunanimous⟩ := hmerged v hv
  refine ⟨hrecords, hv, ?_, (hperm _ claims.reverse_perm).trans hv, c, hc, hvalue⟩
  exact Bool.eq_false_iff.mpr (mt hunanimous.mp (by decide))

end MusicIndex
