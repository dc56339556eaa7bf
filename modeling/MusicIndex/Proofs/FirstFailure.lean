import MusicIndex.Proofs.FeedOutcomes

namespace MusicIndex

/-- The first line with bad data among the outcomes of lines, which are numbered from a line on,
unless the index fails before. -/
def firstFailure? (origin : String) : Nat → List (Except Error Applied) → Option EntryFailure
  | _, [] => none
  | number, .ok _ :: rest => firstFailure? origin (number + 1) rest
  | number, .error e :: _ => if e.isOfEntry then some ⟨origin, number, e.message⟩ else none

variable {origin source : String} {number : Nat} {outcomes : List (Except Error Applied)}

theorem firstFailure?_ge {f : EntryFailure} (h : firstFailure? origin number outcomes = some f) :
    number ≤ f.line := by
  induction outcomes generalizing number with
  | nil => cases h
  | cons outcome rest ih =>
    cases outcome with
    | ok applied => exact (Nat.le_succ number).trans (ih h)
    | error e =>
      rw [firstFailure?] at h
      split at h
      · cases h
        exact le_refl number
      · cases h

theorem head?_failuresAmong (h : ∀ e, .error e ∈ outcomes → e.isOfEntry = true) :
    (failuresAmong origin number outcomes).head? = firstFailure? origin number outcomes := by
  induction outcomes generalizing number with
  | nil => rfl
  | cons outcome rest ih =>
    cases outcome with
    | ok applied => exact ih fun e he => h e (List.mem_cons_of_mem _ he)
    | error e => rw [firstFailure?, if_pos (h e List.mem_cons_self), failuresAmong, List.head?_cons]

namespace Index

variable {x : Index} {lines : List (List UInt8)} {summary counted : IngestSummary}

theorem attempt_error {α : Type} {w : Write α} {e : Error} (h : (w.attempt x).1 = .error e) :
    w.attempt x = (.error e, x) := by
  unfold Write.attempt at h ⊢
  cases hw : w.run x with
  | ok a =>
    rw [hw] at h
    cases h
  | error e' =>
    rw [hw] at h
    cases h
    rfl

theorem tally_ok (mode : IngestMode) (number : Nat) (summary : IngestSummary) (applied : Applied) :
    tally mode number summary (.ok applied) =
      .ok (summary.after mode.origin number [.ok applied]) := by
  cases applied <;> simp [tally, IngestSummary.after, failuresAmong]

/-- A run that ends at the first bad line is one that passes over bad lines, cut short there. -/
theorem ingestLines_failFast [Json.Places] (origin source : String) (number : Nat)
    (summary : IngestSummary) (lines : List (List UInt8)) (x : Index) :
    ingestLines ⟨origin, source, true⟩ number summary lines x =
      match firstFailure? origin number (x.outcomes source lines) with
      | some f => (.error (.entry f.origin f.line f.message),
          (ingestLines ⟨origin, source, false⟩ number summary (lines.take (f.line - number)) x).2)
      | none => ingestLines ⟨origin, source, false⟩ number summary lines x := by
  induction lines generalizing number summary x with
  | nil => rfl
  | cons line rest ih =>
    cases hline : (applyLine source line).attempt x with
    | mk outcome y =>
      simp only [ingestLines, outcomes, hline]
      cases outcome with
      | ok applied =>
        simp only [tally_ok, firstFailure?]
        rw [ih]
        cases hfirst : firstFailure? origin (number + 1) (y.outcomes source rest) with
        | none => rfl
        | some f =>
          have htake : f.line - number = f.line - (number + 1) + 1 := by
            have hge := firstFailure?_ge hfirst
            omega
          simp only [htake, List.take_succ_cons, ingestLines, hline, tally_ok]
      | error e =>
        cases he : e.isOfEntry with
        | true =>
          have hy : y = x := congrArg Prod.snd (hline.symm.trans (attempt_error (by rw [hline])))
          simp [tally, firstFailure?, he, hy, ingestLines]
        | false => simp [tally, firstFailure?, he]

theorem ingestLines_tolerant [Json.Places] (origin source : String) (number : Nat)
    (summary : IngestSummary) (lines : List (List UInt8)) (x : Index) :
    match (ingestLines ⟨origin, source, false⟩ number summary lines x).1 with
    | .ok _ => ∀ e, .error e ∈ x.outcomes source lines → e.isOfEntry = true
    | .error e => ∃ cause, e = .storage cause ∧ cause.isOfEntry = false := by
  induction lines generalizing number summary x with
  | nil => exact fun e he => nomatch he
  | cons line rest ih =>
    cases hline : (applyLine source line).attempt x with
    | mk outcome y =>
      have hfirst (h : ∀ e, outcome = .error e → e.isOfEntry = true)
          (hrest : ∀ e, .error e ∈ y.outcomes source rest → e.isOfEntry = true) :
          ∀ e, .error e ∈ outcome :: y.outcomes source rest → e.isOfEntry = true := by
        intro e he
        exact (List.mem_cons.mp he).elim (fun he => h e he.symm) (hrest e)
      simp only [ingestLines, outcomes, hline]
      cases htally : tally ⟨origin, source, false⟩ number summary outcome with
      | ok counted =>
        have hentry : ∀ e, outcome = .error e → e.isOfEntry = true := by
          rintro e rfl
          by_contra he
          simp [tally, he] at htally
        have hrest := ih (number + 1) counted y
        dsimp only
        split at hrest
        · exact hfirst hentry hrest
        · exact hrest
      | error e =>
        cases outcome with
        | ok applied => simp [tally_ok] at htally
        | error cause =>
          cases hcause : cause.isOfEntry with
          | true => simp [tally, hcause] at htally
          | false =>
            simp only [tally, hcause, Bool.false_eq_true, if_false, Except.error.injEq] at htally
            exact ⟨cause, htally.symm, hcause⟩

end Index

/-- A run that ends at the first bad line ends well if and only if one that passes over bad lines
has none to report, and then they are one and the same. Otherwise it ends with the first failure
that the other one passes over, and leaves the index that the lines before make; and where there is
none, the index fails, and both runs end with that. -/
theorem strict_run_stops_at_first_failure [Json.Places] (x : Index) (origin source : String)
    (feed : List UInt8) :
    let tolerant := Index.ingest ⟨origin, source, false⟩
    let strict := Index.ingest ⟨origin, source, true⟩ feed x
    let first := firstFailure? origin 1 (x.outcomes source (feedLines feed))
    ((∃ s, strict.1 = .ok s) ↔ ∃ s, (tolerant feed x).1 = .ok s ∧ s.isClean = true) ∧
      ((∃ s, strict.1 = .ok s) → strict = tolerant feed x) ∧
      (∀ s, (tolerant feed x).1 = .ok s → s.failures.head? = first) ∧
      (∀ e, (tolerant feed x).1 = .error e → ∃ cause, e = .storage cause ∧
        cause.isOfEntry = false) ∧
      strict =
        match first with
        | some f => (.error (.entry f.origin f.line f.message),
            (tolerant (linesBefore f.line feed) x).2)
        | none => tolerant feed x := by
  intro tolerant strict first
  have hstrict : strict =
      match first with
      | some f => (.error (.entry f.origin f.line f.message),
          (tolerant (linesBefore f.line feed) x).2)
      | none => tolerant feed x := by
    simp only [tolerant, Index.ingest, feedLines_linesBefore]
    exact Index.ingestLines_failFast origin source 1 .empty (feedLines feed) x
  have hended := Index.ingestLines_tolerant origin source 1 .empty (feedLines feed) x
  have hreported : ∀ s, (tolerant feed x).1 = .ok s → s.failures.head? = first := by
    intro s hs
    have hentry : ∀ e, .error e ∈ x.outcomes source (feedLines feed) → e.isOfEntry = true := by
      rw [show (Index.ingestLines _ 1 .empty (feedLines feed) x).1 = .ok s from hs] at hended
      exact hended
    have hsummary : (tolerant feed x).1 = .ok (IngestSummary.empty.after origin 1
        (x.outcomes source (feedLines feed))) := Index.ingestLines_eq_ok rfl hentry
    cases hs.symm.trans hsummary
    exact head?_failuresAmong hentry
  have hfirst : (∃ s, strict.1 = .ok s) → first = none := by
    rintro ⟨s, hs⟩
    cases hnone : first with
    | none => rfl
    | some f =>
      rw [hstrict, hnone] at hs
      cases hs
  have hsame : first = none → strict = tolerant feed x := by
    intro hnone
    rw [hstrict, hnone]
  refine ⟨⟨?_, ?_⟩, fun hok => hsame (hfirst hok), hreported, ?_, hstrict⟩
  · intro hok
    have hnone := hfirst hok
    obtain ⟨s, hs⟩ := hok
    rw [hsame hnone] at hs
    refine ⟨s, hs, List.isEmpty_iff.mpr (List.head?_eq_none_iff.mp ?_)⟩
    rw [hreported s hs, hnone]
  · rintro ⟨s, hs, hclean⟩
    have hnone : first = none := by
      rw [← hreported s hs, List.isEmpty_iff.mp hclean, List.head?_nil]
    exact ⟨s, (congrArg Prod.fst (hsame hnone)).trans hs⟩
  · intro e he
    rw [show (Index.ingestLines _ 1 .empty (feedLines feed) x).1 = .error e from he] at hended
    exact hended

/-- Where a table refuses rows a good line ends the run, though it is no bad entry. -/
theorem strict_run_may_end_in_storage :
    let feed := r#"[["performer","Bo"],["isni","5"],null,null]"#.toUTF8.toList
    let x := ((Index.refuse .source).attempt .empty).2
    let strict := Index.ingest ⟨"feed", "feed", true⟩ feed x
    strict.1 = .error (.storage (.database .insertRefused)) ∧
      ¬ ((∃ s, strict.1 = .ok s) ∨ ∃ origin line message,
        strict.1 = .error (.entry origin line message)) := by
  intro feed x strict
  have hstrict : strict.1 = .error (.storage (.database .insertRefused)) := by decide +kernel
  rw [hstrict]
  refine ⟨rfl, ?_⟩
  rintro (⟨s, hs⟩ | ⟨origin, line, message, he⟩)
  · cases hs
  · cases he

/-- The bad line comes before the one at which the index fails, and its place is told. -/
theorem strict_run_stops_before_storage_failure :
    let bo := r#"[["performer","Bo"],["isni","5"],null,null]"#
    let air := r#"[["work","Air"],["iswc","1"],null,null]"#
    let x := ((Index.refuse (.record .work)).attempt .empty).2
    let _ : Json.Places := ⟨fun text => if text = "?" then " at line 1 column 1" else ""⟩
    let tolerant := Index.ingest ⟨"feed", "press", false⟩
    let strict := Index.ingest ⟨"feed", "press", true⟩ (bo ++ "\n?\n" ++ air).toUTF8.toList x
    (tolerant (bo ++ "\n?\n" ++ air).toUTF8.toList x).1 =
        .error (.storage (.database .insertRefused)) ∧
      strict =
        (.error (.entry "feed" 2 "serialization error: expected value at line 1 column 1"),
          (tolerant (bo ++ "\n").toUTF8.toList x).2) := by
  intro bo air x places tolerant strict
  obtain ⟨-, -, -, -, hstrict⟩ := strict_run_stops_at_first_failure x "feed" "press"
    (bo ++ "\n?\n" ++ air).toUTF8.toList
  have hfirst : firstFailure? "feed" 1 (x.outcomes "press"
      (feedLines (bo ++ "\n?\n" ++ air).toUTF8.toList)) =
        some ⟨"feed", 2, "serialization error: expected value at line 1 column 1"⟩ := by
    decide +kernel
  have hbefore : linesBefore 2 (bo ++ "\n?\n" ++ air).toUTF8.toList =
      (bo ++ "\n").toUTF8.toList := by
    decide +kernel
  rw [hfirst] at hstrict
  dsimp only at hstrict
  rw [hbefore] at hstrict
  exact ⟨by decide +kernel, hstrict⟩

end MusicIndex
