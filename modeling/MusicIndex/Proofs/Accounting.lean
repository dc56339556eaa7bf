import MusicIndex.Proofs.FeedOutcomes

namespace MusicIndex

open Ledger

theorem filter_zip_map {α β : Type} (f : α → β) (p : β → Bool) (l : List α) :
    ((l.zip (l.map f)).filter fun ab => p ab.2).map (·.1) = l.filter fun a => p (f a) := by
  induction l with
  | nil => rfl
  | cons a l ih =>
    rw [List.map_cons, List.zip_cons_cons, List.filter_cons, List.filter_cons, ← ih]
    split <;> rfl

theorem feedLines_appliedPart (feed : List UInt8) (f : List UInt8 → Except Error Applied) :
    feedLines (appliedPart feed ((feedLines feed).map f)) =
      (feedLines feed).filter fun line => isApplied (f line) := by
  rw [appliedPart, List.flatMap, ← map_lineOf_feedSegments feed, List.map_map, filter_zip_map]
  have hkept : Segmented ((feedSegments feed).filter fun s => isApplied ((f ∘ lineOf) s)) :=
    (Segmented.feedSegments feed).sublist List.filter_sublist
  rw [hkept.feedLines_flatten, List.filter_map]
  rfl

variable {outcomes : List (Except Error Applied)}

theorem isOk_of_isApplied {outcome : Except Error Applied} (h : isApplied outcome = true) :
    outcome.isOk = true := by
  cases outcome with
  | ok applied => rfl
  | error e => cases h

theorem after_filter_isApplied (origin : String) (outcomes : List (Except Error Applied)) :
    IngestSummary.empty.after origin 1 (outcomes.filter isApplied) =
      { IngestSummary.empty.after origin 1 outcomes with skipped := 0, failures := [] } := by
  have hfailures : failuresAmong origin 1 (outcomes.filter isApplied) = [] :=
    failuresAmong_eq_nil fun o ho => isOk_of_isApplied (List.mem_filter.mp ho).2
  have hskipped : (outcomes.filter isApplied).count (.ok .skipped) = 0 :=
    List.count_eq_zero.mpr fun h => nomatch (List.mem_filter.mp h).2
  simp only [IngestSummary.after, hfailures, hskipped, IngestSummary.empty]
  rw [List.count_filter rfl, List.count_filter rfl]
  rfl

/-- A run that passes over bad lines ends well. Every line of the feed is a record, a link, skipped
or a failure, and the failures are those of lines that were refused, in their order. A feed without
the lines that were not applied makes the same index of the same one, and nothing of it is skipped
or fails: it is the index after the calls on these lines, which all succeed. -/
theorem run_accounts_for_lines [Json.Places] {x : Index} (hx : x.Reachable)
    (origin source : String) (feed : List UInt8) :
    let mode : IngestMode := ⟨origin, source, false⟩
    let run := Index.ingest mode feed x
    let came := x.outcomes source (feedLines feed)
    ∃ summary, run.1 = .ok summary ∧
      summary.records + summary.links + summary.skipped + summary.failures.length =
        lineCount feed ∧
      summary.records = came.count (.ok .record) ∧ summary.links = came.count (.ok .link) ∧
      summary.skipped = came.count (.ok .skipped) ∧
      (summary.failures.map (·.line)).Pairwise (· < ·) ∧
      (∀ f ∈ summary.failures, 1 ≤ f.line ∧ ∃ e, came[f.line - 1]? = some (.error e) ∧
        f = ⟨origin, f.line, e.message⟩) ∧
      Index.ingest mode (appliedPart feed came) x =
        (.ok { summary with skipped := 0, failures := [] }, run.2) ∧
      let calls := (feedLines (appliedPart feed came)).filterMap (lineCall? source)
      run.2 = x.after calls ∧ x.accepted calls = calls := by
  intro mode run came
  obtain ⟨log, -, rfl⟩ := hx.exists_log
  have hcame : came = (feedLines feed).map (lineOutcome source) :=
    outcomes_index source (feedLines feed) log
  -- only the data of a line can be at fault in an index that can be reached
  have hrun (lines : List (List UInt8)) :
      Index.ingestLines mode 1 .empty lines (index log) =
        (.ok (IngestSummary.empty.after origin 1 (lines.map (lineOutcome source))),
          (index log).after (lines.filterMap (lineCall? source))) := by
    refine Prod.ext ?_ ?_
    · rw [Index.ingestLines_eq_ok rfl, outcomes_index]
      intro e he
      rw [outcomes_index] at he
      obtain ⟨line, -, hline⟩ := List.mem_map.mp he
      exact isOfEntry_of_lineOutcome_error hline
    · rw [ingestLines_eq_report rfl]
  have hfeed : run = _ := hrun (feedLines feed)
  have hlines := count_outcomes origin 1 came
  rw [hcame, List.length_map, length_feedLines, ← hcame] at hlines
  refine ⟨IngestSummary.empty.after origin 1 came, ?_, ?_, Nat.zero_add _, Nat.zero_add _,
    Nat.zero_add _, sorted_failuresAmong origin 1 came, ?_, ?_, ?_⟩
  · rw [hfeed, hcame]
  · simpa [IngestSummary.after, IngestSummary.empty] using hlines
  · exact fun f hf => ⟨failuresAmong_ge hf, exists_outcome_of_failure hf⟩
  · have happlied : ((feedLines feed).map (lineOutcome source)).filter isApplied =
        ((feedLines feed).filter fun line => isApplied (lineOutcome source line)).map
          (lineOutcome source) := List.filter_map
    rw [Index.ingest, hcame, feedLines_appliedPart, hrun, after_applied, ← happlied,
      after_filter_isApplied, hfeed]
  · rw [hcame, feedLines_appliedPart]
    refine ⟨?_, accepted_applied source (feedLines feed) log⟩
    rw [after_applied]
    exact congrArg Prod.snd hfeed

/-- Of five lines the second is a comment, the third is no text, and the fourth is refused for its
identifier. -/
theorem five_lines_accounted_for :
    let bo := r#"[["performer","Bo"],["isni","5"],null,null]"#.toUTF8.toList
    let blank := r#"[["work","Air"],["iswc"," "],null,null]"#.toUTF8.toList
    let feed := bo ++ "\n# end\n".toUTF8.toList ++ [255, 10] ++ blank ++ [10] ++ bo
    let x := Index.empty.after [.resolveSource "radio"]
    let run := Index.ingest ⟨"feed", "press", false⟩ feed x
    x.Reachable ∧ ∃ summary, run.1 = .ok summary ∧
      summary.records + summary.links + summary.skipped + summary.failures.length = 5 ∧
      summary.failures.map (·.line) = [3, 4] ∧
      Index.ingest ⟨"feed", "press", false⟩ (bo ++ [10] ++ bo) x =
        (.ok ⟨0, 2, 0, 0, []⟩, run.2) ∧
      run.2.sources.contents = ["radio", "press"] ∧
      (run.2.records .performer).contents = [⟨["Bo"], 2⟩] ∧
      run.2.identifiers.contents = [⟨"isni", "5"⟩] := by
  intro bo blank feed x run
  have hx : x.Reachable := .call _ .empty
  obtain ⟨summary, hrun, hlines, -, -, -, -, -, hkept, -⟩ :=
    run_accounts_for_lines hx "feed" "press" feed
  have hreported : run.1.toOption.map (fun s => (s.records, s.links, s.files)) = some (2, 0, 0) ∧
      run.1.toOption.map (fun s => s.failures.map (·.line)) = some [3, 4] := by
    decide +kernel
  have hpart : appliedPart feed (x.outcomes "press" (feedLines feed)) = bo ++ [10] ++ bo := by
    decide +kernel
  have hcount : lineCount feed = 5 := by decide +kernel
  simp only [run, hrun, Except.toOption, Option.map_some, Option.some.injEq, Prod.mk.injEq]
    at hreported
  obtain ⟨⟨hrecords, hlinks, hfiles⟩, hfailures⟩ := hreported
  refine ⟨hx, summary, hrun, hlines.trans hcount, hfailures, ?_, by decide +kernel,
    by decide +kernel, by decide +kernel⟩
  rw [hpart, hrecords, hlinks, hfiles] at hkept
  exact hkept

end MusicIndex
