import MusicIndex.Proofs.FeedSegments

namespace MusicIndex

namespace Index

/-- What every line comes to when the lines are tried one after the other, whatever becomes of those
before. -/
def outcomes [Json.Places] (defaultSource : String) :
    List (List UInt8) → Index → List (Except Error Applied)
  | [], _ => []
  | line :: rest, x =>
    let (outcome, y) := (applyLine defaultSource line).attempt x
    outcome :: outcomes defaultSource rest y

end Index

def isApplied : Except Error Applied → Bool
  | .ok .record | .ok .link => true
  | .ok .skipped | .error _ => false

/-- The failures among the outcomes of lines, which are numbered from a line on. -/
def failuresAmong (origin : String) : Nat → List (Except Error Applied) → List EntryFailure
  | _, [] => []
  | number, .ok _ :: rest => failuresAmong origin (number + 1) rest
  | number, .error e :: rest =>
    ⟨origin, number, e.message⟩ :: failuresAmong origin (number + 1) rest

/-- A feed without the lines that were not applied. -/
def appliedPart (feed : List UInt8) (outcomes : List (Except Error Applied)) : List UInt8 :=
  (((feedSegments feed).zip outcomes).filter fun line => isApplied line.2).flatMap (·.1)

variable {origin : String} {number : Nat} {outcomes : List (Except Error Applied)}

section Failures

theorem failuresAmong_ge {f : EntryFailure} (h : f ∈ failuresAmong origin number outcomes) :
    number ≤ f.line := by
  induction outcomes generalizing number with
  | nil => cases h
  | cons outcome rest ih =>
    cases outcome with
    | ok applied => exact (Nat.le_succ number).trans (ih h)
    | error e =>
      rcases List.mem_cons.mp h with rfl | h
      · exact le_refl number
      · exact (Nat.le_succ number).trans (ih h)

theorem sorted_failuresAmong (origin : String) (number : Nat)
    (outcomes : List (Except Error Applied)) :
    ((failuresAmong origin number outcomes).map (·.line)).Pairwise (· < ·) := by
  induction outcomes generalizing number with
  | nil => exact .nil
  | cons outcome rest ih =>
    cases outcome with
    | ok applied => exact ih (number + 1)
    | error e =>
      refine .cons (fun line hline => ?_) (ih (number + 1))
      obtain ⟨f, hf, rfl⟩ := List.mem_map.mp hline
      exact failuresAmong_ge hf

theorem exists_outcome_of_failure {f : EntryFailure}
    (h : f ∈ failuresAmong origin number outcomes) :
    ∃ e, outcomes[f.line - number]? = some (.error e) ∧ f = ⟨origin, f.line, e.message⟩ := by
  induction outcomes generalizing number with
  | nil => cases h
  | cons outcome rest ih =>
    have hrest (hf : f ∈ failuresAmong origin (number + 1) rest) : ∃ e,
        (outcome :: rest)[f.line - number]? = some (.error e) ∧
          f = ⟨origin, f.line, e.message⟩ := by
      obtain ⟨e, he, hfe⟩ := ih hf
      have hline : f.line - number = f.line - (number + 1) + 1 := by
        have hge := failuresAmong_ge hf
        omega
      exact ⟨e, by rw [hline, List.getElem?_cons_succ, he], hfe⟩
    cases outcome with
    | ok applied => exact hrest h
    | error e =>
      rcases List.mem_cons.mp h with rfl | h
      · exact ⟨e, by rw [Nat.sub_self, List.getElem?_cons_zero], rfl⟩
      · exact hrest h

theorem failuresAmong_eq_nil (h : ∀ outcome ∈ outcomes, outcome.isOk = true) :
    failuresAmong origin number outcomes = [] := by
  induction outcomes generalizing number with
  | nil => rfl
  | cons outcome rest ih =>
    cases outcome with
    | ok applied => exact ih fun o ho => h o (List.mem_cons_of_mem _ ho)
    | error e => exact absurd (h _ List.mem_cons_self) (by simp [Except.isOk, Except.toBool])

theorem count_outcomes (origin : String) (number : Nat) (outcomes : List (Except Error Applied)) :
    outcomes.count (.ok .record) + outcomes.count (.ok .link) + outcomes.count (.ok .skipped) +
      (failuresAmong origin number outcomes).length = outcomes.length := by
  induction outcomes generalizing number with
  | nil => rfl
  | cons outcome rest ih =>
    have hrest := ih (number + 1)
    cases outcome with
    | ok applied =>
      cases applied <;> simp only [List.count_cons, failuresAmong, List.length_cons] <;>
        simp <;> omega
    | error e =>
      simp only [List.count_cons, failuresAmong, List.length_cons]
      simp
      omega

end Failures

section Summaries

def IngestSummary.after (summary : IngestSummary) (origin : String) (number : Nat)
    (outcomes : List (Except Error Applied)) : IngestSummary where
  files := summary.files
  records := summary.records + outcomes.count (.ok .record)
  links := summary.links + outcomes.count (.ok .link)
  skipped := summary.skipped + outcomes.count (.ok .skipped)
  failures := summary.failures ++ failuresAmong origin number outcomes

variable {mode : IngestMode} {summary : IngestSummary} {outcome : Except Error Applied}

theorem IngestSummary.after_nil (summary : IngestSummary) (origin : String) (number : Nat) :
    summary.after origin number [] = summary := by
  simp [IngestSummary.after, failuresAmong]

theorem IngestSummary.after_cons (summary : IngestSummary) (origin : String) (number : Nat)
    (outcome : Except Error Applied) (rest : List (Except Error Applied)) :
    summary.after origin number (outcome :: rest) =
      (summary.after origin number [outcome]).after origin (number + 1) rest := by
  cases outcome with
  | ok applied => cases applied <;> simp [IngestSummary.after, failuresAmong] <;> omega
  | error e => simp [IngestSummary.after, failuresAmong]

theorem tally_eq_ok (hmode : mode.failFast = false)
    (h : ∀ e, outcome = .error e → e.isOfEntry = true) :
    Index.tally mode number summary outcome =
      .ok (summary.after mode.origin number [outcome]) := by
  cases outcome with
  | ok applied => cases applied <;> simp [Index.tally, IngestSummary.after, failuresAmong]
  | error e => simp [Index.tally, IngestSummary.after, failuresAmong, h e rfl, hmode]

theorem Index.ingestLines_eq_ok [Json.Places] {x : Index} {lines : List (List UInt8)}
    (hmode : mode.failFast = false)
    (h : ∀ e, .error e ∈ x.outcomes mode.defaultSource lines → e.isOfEntry = true) :
    (ingestLines mode number summary lines x).1 =
      .ok (summary.after mode.origin number (x.outcomes mode.defaultSource lines)) := by
  induction lines generalizing number summary x with
  | nil => exact congrArg _ (summary.after_nil mode.origin number).symm
  | cons line rest ih =>
    obtain ⟨outcome, houtcome⟩ : ∃ outcome,
        outcome = ((applyLine mode.defaultSource line).attempt x).1 := ⟨_, rfl⟩
    simp only [outcomes, ← houtcome] at h ⊢
    have htally : tally mode number summary outcome =
        .ok (summary.after mode.origin number [outcome]) :=
      tally_eq_ok hmode fun e he => h e (he ▸ List.mem_cons_self)
    simp only [ingestLines, ← houtcome, htally]
    rw [ih fun e he => h e (List.mem_cons_of_mem _ he), ← summary.after_cons]

end Summaries

namespace Ledger

variable [Json.Places]

/-- What becomes of a line is up to the line. -/
theorem outcomes_index (defaultSource : String) (lines : List (List UInt8)) (log : List Call) :
    (index log).outcomes defaultSource lines = lines.map (lineOutcome defaultSource) := by
  induction lines generalizing log with
  | nil => rfl
  | cons line rest ih =>
    simp only [Index.outcomes, applyLine_attempt]
    rw [after_index, ih]
    rfl

theorem filter_lineCall? (defaultSource : String) (lines : List (List UInt8)) :
    (lines.filterMap (lineCall? defaultSource)).filter (·.check.isOk) =
      (lines.filter fun line => isApplied (lineOutcome defaultSource line)).filterMap
        (lineCall? defaultSource) := by
  induction lines with
  | nil => rfl
  | cons line rest ih =>
    rw [List.filter_cons, List.filterMap_cons]
    cases hline : FeedEntry.ofLine line with
    | error e => simpa [lineOutcome, lineCall?, hline, isApplied] using ih
    | ok entry? =>
      cases entry? with
      | none => simpa [lineOutcome, lineCall?, hline, isApplied] using ih
      | some entry =>
        cases hcheck : (entry.call defaultSource).check with
        | error cause =>
          simpa [lineOutcome, lineCall?, hline, isApplied, hcheck, Except.isOk, Except.toBool]
            using ih
        | ok u =>
          have happlied : isApplied (.ok entry.applied) = true := by
            unfold FeedEntry.applied
            cases entry.fact <;> rfl
          simpa [lineOutcome, lineCall?, hline, happlied, hcheck, Except.isOk, Except.toBool]
            using ih

theorem accepted_applied (defaultSource : String) (lines : List (List UInt8)) (log : List Call) :
    let calls := (lines.filter fun line =>
      isApplied (lineOutcome defaultSource line)).filterMap (lineCall? defaultSource)
    (index log).accepted calls = calls := by
  intro calls
  rw [accepted_index]
  show calls.filter (·.check.isOk) = calls
  rw [show calls = _ from (filter_lineCall? defaultSource lines).symm, List.filter_filter]
  simp only [Bool.and_self]

theorem after_applied (defaultSource : String) (lines : List (List UInt8)) (log : List Call) :
    (index log).after ((lines.filter fun line =>
        isApplied (lineOutcome defaultSource line)).filterMap (lineCall? defaultSource)) =
      (index log).after (lines.filterMap (lineCall? defaultSource)) := by
  rw [after_index, after_index, accepted_applied, accepted_index, filter_lineCall?]

end Ledger

end MusicIndex
