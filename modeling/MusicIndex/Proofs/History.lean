import MusicIndex.Proofs.LedgerStep

namespace MusicIndex

open Index

theorem Call.isOk_check_iff {c : Call} : c.check.isOk = true ↔ ¬ c.Improper := by
  rw [← check_eq_ok_iff]
  cases c.check with
  | error cause => simp [Except.isOk, Except.toBool]
  | ok u => simp [Except.isOk, Except.toBool]

namespace Ledger

variable {log : List Call} {c : Call}

/-- The answer to the last call of a log. -/
def answer (log : List Call) : Call → Answer
  | .createRecord _ i _ | .resolveIdentifier i => .identifier ⟨number (identifiers log) i, i⟩
  | .createLink l source => .link (storedLink log ⟨l.finite, source⟩)
  | .createTypedLink l source => .link (storedLink log ⟨l.toLink.finite, source⟩)
  | .resolveSource name => .source (number (sources log) name)

theorem keep_index (h : ¬ c.Improper) :
    c.keep (index log) = (answer (log ++ [c]) c, index (log ++ [c])) := by
  cases c with
  | createRecord r i source =>
    simp only [Call.keep, withRecord_index]
    rfl
  | createLink l source =>
    have hl := @withLink_index log (.createLink l source) ⟨l.finite, source⟩ rfl
      (Link.proper_finite (not_or.mp h).1)
    simp only [Call.keep, hl]
    rfl
  | createTypedLink l source =>
    have hl := @withLink_index log (.createTypedLink l source) ⟨l.toLink.finite, source⟩ rfl
      (Link.proper_finite (not_or.mp h).1)
    simp only [Call.keep, hl]
    rfl
  | resolveSource name =>
    have hsource := @ensure_source log (.resolveSource name) name rfl
    simp only [Call.keep, hsource]
    congr 1
    apply ext_tables
    case assignments => exact (assignments_snoc_of_none rfl).symm
    case records => exact fun kind => (records_snoc_of_ne (by rintro f ⟨⟩)).symm
    case links => exact fun kind => (linkTable_snoc_of_ne (by rintro f ⟨⟩)).symm
    case identifiers =>
      change Table.keyed _ _ = Table.keyed _ _
      rw [identifiers_snoc]
      rfl
    all_goals rfl
  | resolveIdentifier i =>
    have hident : (index log).identifiers.ensure (· == i) i =
        (number (identifiers (log ++ [.resolveIdentifier i])) i,
          (index (log ++ [.resolveIdentifier i])).identifiers) := by
      change (Table.keyed (identifiers log) id).ensure _ _ = (_, Table.keyed (identifiers _) id)
      rw [ensure_keyed_id nodup_identifiers, identifiers_snoc]
      rfl
    simp only [Call.keep, hident]
    congr 1
    apply ext_tables
    case assignments => exact (assignments_snoc_of_none rfl).symm
    case records => exact fun kind => (records_snoc_of_ne (by rintro f ⟨⟩)).symm
    case links => exact fun kind => (linkTable_snoc_of_ne (by rintro f ⟨⟩)).symm
    case sources =>
      change Table.keyed _ _ = Table.keyed _ _
      rw [sources_snoc_of_none rfl]
    all_goals rfl

theorem attempt_of_proper (h : ¬ c.Improper) :
    c.perform.attempt (index log) = (.ok (answer (log ++ [c]) c), index (log ++ [c])) := by
  rw [Write.attempt, Call.run_of_proper (isOpen_index log) h, keep_index h]

theorem attempt_of_check_error {cause : Invalid} (h : c.check = .error cause) :
    c.perform.attempt (index log) = (.error (.invalid cause), index log) := by
  rw [Write.attempt, Call.run_of_check_error (isOpen_index log) h]

theorem attempt_of_improper (log : List Call) (h : c.Improper) :
    ∃ cause, c.perform.attempt (index log) = (.error (.invalid cause), index log) := by
  obtain ⟨cause, hc⟩ := Call.exists_check_eq_error h
  exact ⟨cause, attempt_of_check_error hc⟩

theorem after_index (log : List Call) (calls : List Call) :
    (index log).after calls = index (log ++ (index log).accepted calls) := by
  induction calls generalizing log with
  | nil => rw [accepted, List.append_nil]; rfl
  | cons c rest ih =>
    by_cases h : c.Improper
    · obtain ⟨cause, hc⟩ := attempt_of_improper log h
      simp only [after, accepted, hc]
      exact ih log
    · simp only [after, accepted, attempt_of_proper h]
      rw [ih, List.append_assoc]
      rfl

theorem after_empty (calls : List Call) :
    Index.empty.after calls = index (Index.empty.accepted calls) :=
  after_index [] calls

/-- Whether a call succeeds depends on its arguments alone. -/
theorem accepted_index (log calls : List Call) :
    (index log).accepted calls = calls.filter (·.check.isOk) := by
  induction calls generalizing log with
  | nil => rfl
  | cons c rest ih =>
    by_cases h : c.Improper
    · obtain ⟨cause, hc⟩ := attempt_of_improper log h
      have hcheck : ¬ c.check.isOk = true := fun ho => Call.isOk_check_iff.mp ho h
      rw [List.filter_cons, if_neg hcheck]
      simp only [accepted, hc]
      exact ih log
    · have hcheck : c.check.isOk = true := Call.isOk_check_iff.mpr h
      rw [List.filter_cons, if_pos hcheck]
      simp only [accepted, attempt_of_proper h]
      rw [ih]

theorem accepted_empty (calls : List Call) :
    Index.empty.accepted calls = calls.filter (·.check.isOk) :=
  accepted_index [] calls

theorem proper_of_accepted {calls : List Call} (h : c ∈ (index log).accepted calls) :
    ¬ c.Improper := by
  rw [accepted_index] at h
  exact Call.isOk_check_iff.mp (List.mem_filter.mp h).2

end Ledger

end MusicIndex
