import MusicIndex.Proofs.Selection

namespace MusicIndex

namespace SourcePolicy

variable {policy : SourcePolicy} {name source : String} {p : Nat}
  {entries before after : List (String × Nat)} {own : Option Nat}

/-- Entries before and after a name, and between them the entry of the name itself, if it has
one. -/
structure Placed (name : String) (entries before : List (String × Nat)) (own : Option Nat)
    (after : List (String × Nat)) : Prop where
  entries_eq : entries = before ++ (own.map (Prod.mk name)).toList ++ after
  before_ne : ∀ e ∈ before, e.1 ≠ name
  after_ne : ∀ e ∈ after, e.1 ≠ name

theorem exists_placed (name : String) (p : Nat) (hs : entries.Pairwise (·.1 < ·.1)) :
    ∃ before own after, Placed name entries before own after ∧
      insertEntry name p entries = before ++ (name, p) :: after := by
  induction entries with
  | nil => exact ⟨[], none, [], ⟨rfl, by simp, by simp⟩, rfl⟩
  | cons entry rest ih =>
    obtain ⟨hfirst, hrest⟩ := List.pairwise_cons.mp hs
    rw [insertEntry]
    split
    · rename_i hname
      subst hname
      refine ⟨[], some entry.2, rest, ⟨rfl, by simp, ?_⟩, rfl⟩
      intro e he heq
      exact String.lt_irrefl _ (heq ▸ hfirst e he)
    · rename_i hname
      split
      · rename_i hlt
        refine ⟨[], none, entry :: rest, ⟨rfl, by simp, ?_⟩, rfl⟩
        intro e he heq
        rcases List.mem_cons.mp he with rfl | he
        · exact hname heq.symm
        · exact String.lt_irrefl _ (String.lt_trans hlt (heq ▸ hfirst e he))
      · obtain ⟨before, own, after, ⟨rfl, hbefore, hafter⟩, hinsert⟩ := ih hrest
        exact ⟨entry :: before, own, after,
          ⟨rfl, List.forall_mem_cons.mpr ⟨Ne.symm hname, hbefore⟩, hafter⟩,
          congrArg (entry :: ·) hinsert⟩

theorem Placed.find? (h : Placed name entries before own after) (test : String → Bool) :
    entries.find? (fun e => test e.1) =
      ((before.find? fun e => test e.1).or
        (if test name then own.map (Prod.mk name) else none)).or
        (after.find? fun e => test e.1) := by
  rw [h.entries_eq, List.find?_append, List.find?_append]
  cases own with
  | none => simp
  | some q => cases htest : test name <;> simp [htest]

theorem Placed.find?_name (h : Placed name entries before own after) :
    entries.find? (·.1 == name) = own.map (Prod.mk name) := by
  have hbefore : before.find? (·.1 == name) = none :=
    List.find?_eq_none.mpr fun e he => by simpa using h.before_ne e he
  have hafter : after.find? (·.1 == name) = none :=
    List.find?_eq_none.mpr fun e he => by simpa using h.after_ne e he
  rw [h.find? (· == name), hbefore, hafter]
  simp

/-- A priority that is given to a name stands in the place of the name. -/
theorem exists_placed_withPriority (policy : SourcePolicy) (name : String) (p : Nat) :
    ∃ before own after, Placed name policy.entries before own after ∧
      Placed name (policy.withPriority name p).entries before (some p) after := by
  obtain ⟨before, own, after, h, hinsert⟩ := exists_placed name p policy.sorted
  refine ⟨before, own, after, h, ?_, h.before_ne, h.after_ne⟩
  rw [List.append_assoc]
  exact hinsert

theorem priorityFor_eq (policy : SourcePolicy) (source : String) : policy.priorityFor source =
    ((policy.entries.find? (·.1 == source)).or
      (policy.entries.find? fun e => Text.sameAscii e.1 source)).elim 0 (·.2) := by
  unfold priorityFor
  cases policy.entries.find? (·.1 == source) with
  | some e => rfl
  | none =>
    cases policy.entries.find? fun e => Text.sameAscii e.1 source with
    | some e => rfl
    | none => rfl

theorem find?_withPriority (test : String → Bool) (h : test name = false) :
    ((policy.withPriority name p).entries.find? fun e => test e.1) =
      policy.entries.find? fun e => test e.1 := by
  obtain ⟨before, own, after, hplaced, hraised⟩ := policy.exists_placed_withPriority name p
  rw [hplaced.find? test, hraised.find? test, h]
  simp

theorem priorityFor_withPriority_self (policy : SourcePolicy) (name : String) (p : Nat) :
    (policy.withPriority name p).priorityFor name = p := by
  obtain ⟨before, own, after, -, hraised⟩ := policy.exists_placed_withPriority name p
  rw [priorityFor_eq, hraised.find?_name]
  rfl

theorem priorityFor_withPriority_of_not_alike (p : Nat)
    (h : Text.sameAscii source name = false) :
    (policy.withPriority name p).priorityFor source = policy.priorityFor source := by
  have hne : (name == source) = false := by
    apply beq_eq_false_iff_ne.mpr
    rintro rfl
    rw [Text.sameAscii_refl] at h
    cases h
  have hlike : Text.sameAscii name source = false := Text.sameAscii_comm source name ▸ h
  rw [priorityFor_eq, priorityFor_eq, find?_withPriority (· == source) hne,
    find?_withPriority (Text.sameAscii · source) hlike]

theorem priorityFor_le_of_alike (h : Text.sameAscii source name = true)
    (hp : policy.priorityFor name ≤ p) :
    policy.priorityFor source ≤ (policy.withPriority name p).priorityFor source := by
  by_cases hname : name = source
  · subst hname
    rw [priorityFor_withPriority_self]
    exact hp
  · have hne : (name == source) = false := beq_eq_false_iff_ne.mpr hname
    rw [priorityFor_eq, priorityFor_eq, find?_withPriority (· == source) hne]
    cases policy.entries.find? (·.1 == source) with
    | some e => exact le_rfl
    | none =>
      obtain ⟨before, own, after, hplaced, hraised⟩ := policy.exists_placed_withPriority name p
      rw [priorityFor_eq, hplaced.find?_name] at hp
      simp only [← Text.sameAscii_congr h] at hp
      have hlike : Text.sameAscii name source = true := Text.sameAscii_comm source name ▸ h
      rw [hplaced.find? (Text.sameAscii · source), hlike] at hp
      rw [hplaced.find? (Text.sameAscii · source), hraised.find? (Text.sameAscii · source), hlike]
      -- among the names like the source one may come before the name; it is the same as it was
      cases hbefore : before.find? fun e => Text.sameAscii e.1 source with
      | some e => exact le_rfl
      | none =>
        rw [hbefore] at hp
        cases own with
        | none => exact hp
        | some q => exact hp

theorem priorityFor_le_withPriority (hp : policy.priorityFor name ≤ p) (source : String) :
    policy.priorityFor source ≤ (policy.withPriority name p).priorityFor source := by
  cases hlike : Text.sameAscii source name with
  | true => exact priorityFor_le_of_alike hlike hp
  | false => exact (priorityFor_withPriority_of_not_alike p hlike).ge

end SourcePolicy

/-- The claim of another source keeps its rank when a name is raised, and no claim loses rank. -/
theorem Claim.Prevails.eq_or_alike {policy : SourcePolicy} {name : String} {p : Nat}
    {claims : List Claim} {c d : Claim} (hp : policy.priorityFor name ≤ p)
    (hc : c.Prevails policy claims) (hd : d.Prevails (policy.withPriority name p) claims) :
    d = c ∨ Text.sameAscii d.source name = true := by
  by_contra! hneither
  obtain ⟨hne, hother⟩ := hneither
  have hkept := policy.priorityFor_withPriority_of_not_alike p (Bool.eq_false_iff.mpr hother)
  have hgain := policy.priorityFor_le_withPriority hp c.source
  have hbelow := hc.others d hd.mem hne
  have habove := hd.others c hc.mem (Ne.symm hne)
  omega

/-- Raising one source can only favour that source: its priority is what it was given, sources like
it do not lose, and all others keep theirs. The claim that is selected stays, or gives way to one of
a source like the raised one. -/
theorem raised_source_is_favoured (policy : SourcePolicy) (name : String) {p : Nat}
    (hp : policy.priorityFor name ≤ p) :
    let raised := policy.withPriority name p
    raised.priorityFor name = p ∧
    (∀ source, Text.sameAscii source name = false →
      raised.priorityFor source = policy.priorityFor source) ∧
    (∀ source, Text.sameAscii source name = true →
      policy.priorityFor source ≤ raised.priorityFor source) ∧
    ∀ claims : List Claim, claims ≠ [] → (claims.map (·.record)).Nodup →
      ∃ c d, MergedValue.selected policy claims = some c ∧
        MergedValue.selected raised claims = some d ∧
        (MergedValue.merge policy claims).map (·.value) = some c.value ∧
        (MergedValue.merge raised claims).map (·.value) = some d.value ∧
        (d = c ∨ Text.sameAscii d.source name = true) := by
  intro raised
  refine ⟨policy.priorityFor_withPriority_self name p,
    fun source h => policy.priorityFor_withPriority_of_not_alike p h,
    fun source h => policy.priorityFor_le_of_alike h hp, ?_⟩
  intro claims hclaims hrecords
  obtain ⟨c, hc⟩ := MergedValue.exists_selected policy hclaims
  obtain ⟨d, hd⟩ := MergedValue.exists_selected raised hclaims
  have hprevails := (MergedValue.selected_eq_some_iff hrecords).mp hc
  have hraised := (MergedValue.selected_eq_some_iff hrecords).mp hd
  refine ⟨c, d, hc, hd, ?_, ?_, hprevails.eq_or_alike hp hraised⟩
  · rw [MergedValue.merge_of_selected hc]
    rfl
  · rw [MergedValue.merge_of_selected hd]
    rfl

/-- The priority of `CWR` goes before that of `cwr` for a source that is written in neither way, and
its claim becomes the current one; `cwr` itself keeps what it has. -/
theorem raised_spelling_is_favoured :
    let policy := SourcePolicy.ofEntries [("cwr", 5), ("radio", 7)]
    let raised := policy.withPriority "CWR" 9
    let claims : List Claim := [⟨"A", "Cwr", 1⟩, ⟨"B", "radio", 2⟩]
    policy.priorityFor "CWR" ≤ 9 ∧ (claims.map (·.record)).Nodup ∧
      raised.priorityFor "CWR" = 9 ∧ raised.priorityFor "radio" = policy.priorityFor "radio" ∧
      ["cwr", "Cwr"].map raised.priorityFor = [5, 9] ∧
      MergedValue.selected policy claims = some ⟨"B", "radio", 2⟩ ∧
      ∃ d, MergedValue.selected raised claims = some d ∧
        (d = ⟨"B", "radio", 2⟩ ∨ Text.sameAscii d.source "CWR" = true) := by
  intro policy raised claims
  have hp : policy.priorityFor "CWR" ≤ 9 := by decide +kernel
  have hrecords : (claims.map (·.record)).Nodup := by decide
  have hc : MergedValue.selected policy claims = some ⟨"B", "radio", 2⟩ := by decide +kernel
  obtain ⟨hself, hothers, -, hselected⟩ := raised_source_is_favoured policy "CWR" hp
  obtain ⟨c, d, hc', hd, -, -, hfavoured⟩ := hselected claims (List.cons_ne_nil _ _) hrecords
  obtain rfl := Option.some.inj (hc.symm.trans hc')
  exact ⟨hp, hrecords, hself, hothers "radio" (by decide +kernel), by decide +kernel, hc, d, hd,
    hfavoured⟩

end MusicIndex
