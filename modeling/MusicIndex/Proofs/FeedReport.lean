import MusicIndex.Proofs.FeedRun

namespace MusicIndex

open Ledger

variable [Json.Places]

def lineOutcome (defaultSource : String) (line : List UInt8) : Except Error Applied :=
  match FeedEntry.ofLine line with
  | .error e => .error e
  | .ok none => .ok .skipped
  | .ok (some entry) =>
    match (entry.call defaultSource).check with
    | .error cause => .error (.invalid cause)
    | .ok () => .ok entry.applied

def report (mode : IngestMode) : Nat → IngestSummary → List (List UInt8) →
    Except IngestError IngestSummary
  | _, summary, [] => .ok summary
  | number, summary, line :: rest =>
    match Index.tally mode number summary (lineOutcome mode.defaultSource line) with
    | .ok summary => report mode (number + 1) summary rest
    | .error e => .error e

theorem FeedEntry.isOfEntry_of_parse_error {line : List Char} {e : Error}
    (h : FeedEntry.parse line = .error e) : e.isOfEntry = true := by
  unfold FeedEntry.parse at h
  split at h
  · cases h
  · cases h
  · split at h
    · cases h
      rfl
    · split at h
      · cases h
        rfl
      · cases h

theorem FeedEntry.isOfEntry_of_ofLine_error {line : List UInt8} {e : Error}
    (h : FeedEntry.ofLine line = .error e) : e.isOfEntry = true := by
  unfold FeedEntry.ofLine at h
  split at h
  · exact isOfEntry_of_parse_error h
  · cases h
    rfl

theorem isOfEntry_of_lineOutcome_error {defaultSource : String} {line : List UInt8} {e : Error}
    (h : lineOutcome defaultSource line = .error e) : e.isOfEntry = true := by
  unfold lineOutcome at h
  split at h
  · rename_i he
    cases h
    exact FeedEntry.isOfEntry_of_ofLine_error he
  · cases h
  · split at h
    · cases h
      rfl
    · cases h

variable {mode : IngestMode}

theorem exists_tally_eq_ok (hmode : mode.failFast = false) (number : Nat) (summary : IngestSummary)
    (line : List UInt8) :
    ∃ counted, Index.tally mode number summary (lineOutcome mode.defaultSource line) =
      .ok counted := by
  cases h : lineOutcome mode.defaultSource line with
  | ok applied => cases applied <;> exact ⟨_, rfl⟩
  | error e =>
    have he := isOfEntry_of_lineOutcome_error h
    simp only [Index.tally, he, hmode, if_true, Bool.false_eq_true, if_false]
    exact ⟨_, rfl⟩

namespace Ledger

theorem applyLine_attempt (defaultSource : String) (line : List UInt8) (log : List Call) :
    (Index.applyLine defaultSource line).attempt (index log) =
      (lineOutcome defaultSource line,
        (index log).after (lineCall? defaultSource line).toList) := by
  have hindex := Index.applyLine_index defaultSource line (index log)
  refine Prod.ext ?_ hindex
  unfold Index.applyLine lineOutcome
  cases FeedEntry.ofLine line with
  | error e => rfl
  | ok entry? =>
    cases entry? with
    | none => rfl
    | some entry =>
      simp only [Index.applyEntry_attempt]
      cases hc : (entry.call defaultSource).check with
      | error cause =>
        rw [attempt_of_check_error hc]
        rfl
      | ok u =>
        rw [attempt_of_proper (Call.check_eq_ok_iff.mp hc)]
        rfl

/-- A run that passes over bad lines reports what its lines decide and carries out their calls. -/
theorem ingestLines_eq_report (hmode : mode.failFast = false) (number : Nat)
    (summary : IngestSummary) (lines : List (List UInt8)) (log : List Call) :
    Index.ingestLines mode number summary lines (index log) =
      (report mode number summary lines,
        (index log).after (lines.filterMap (lineCall? mode.defaultSource))) := by
  -- the log grows from line to line, and what becomes of a line does not depend on it
  induction lines generalizing number summary log with
  | nil => rfl
  | cons line rest ih =>
    obtain ⟨counted, htally⟩ := exists_tally_eq_ok hmode number summary line
    simp only [Index.ingestLines, report, applyLine_attempt, htally]
    rw [Index.filterMap_lineCall?_cons, Index.after_append, after_index, ih]

end Ledger

end MusicIndex
