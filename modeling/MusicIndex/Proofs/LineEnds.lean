import Mathlib.Data.List.Forall2
import MusicIndex.Proofs.FeedOutcomes
import MusicIndex.Proofs.MemberOrder

namespace MusicIndex

/-- A feed with a carriage return before each line feed. -/
def withReturns (feed : List UInt8) : List UInt8 :=
  feed.flatMap fun b => if b = 10 then [13, 10] else [b]

/-- A line and the same line, perhaps with a carriage return behind it. -/
def Returned (line line' : List UInt8) : Prop :=
  line' = line ∨ line' = line ++ [13]

theorem forall₂_feedLines_withReturns (feed : List UInt8) :
    List.Forall₂ Returned (feedLines feed) (feedLines (withReturns feed)) := by
  induction feed with
  | nil => exact .nil
  | cons b feed ih =>
    by_cases hb : b = 10
    · have hreturned : withReturns (b :: feed) = 13 :: 10 :: withReturns feed := by
        simp [withReturns, hb]
      rw [hreturned, hb, feedLines_cons_lf, feedLines_cons (by decide), feedLines_cons_lf]
      exact .cons (.inr rfl) ih
    · have hkept : withReturns (b :: feed) = b :: withReturns feed := by
        simp [withReturns, hb]
      rw [hkept, feedLines_cons hb, feedLines_cons hb]
      generalize feedLines feed = lines at ih ⊢
      generalize feedLines (withReturns feed) = lines' at ih ⊢
      cases ih with
      | nil => exact .cons (.inl rfl) .nil
      | cons hline hrest =>
        refine .cons ?_ hrest
        rcases hline with rfl | rfl
        · exact .inl rfl
        · exact .inr rfl

namespace Text

theorem trimmed_concat {c : Char} (hc : isBlank c = true) (cs : List Char) :
    trimmed (cs ++ [c]) = trimmed cs := by
  unfold trimmed
  rw [List.dropWhile_append]
  split
  · rename_i hempty
    simp [List.isEmpty_iff.mp hempty, hc]
  · simp [hc]

namespace Utf8

theorem le_of_continuation {a low high : UInt8} {count : Nat}
    (h : continuation a = some (low, high, count)) : 0x80 ≤ low := by
  unfold continuation at h
  repeat' split at h
  all_goals cases h
  all_goals decide

theorem toOption_map {ε α β : Type} (f : α → β) (x : Except ε α) :
    (f <$> x).toOption = x.toOption.map f := by
  cases x <;> rfl

theorem decodeFrom_concat {b : UInt8} (hb : b < 0x80) (index : Nat) (bytes : List UInt8) :
    (decodeFrom index (bytes ++ [b])).toOption =
      (decodeFrom index bytes).toOption.map (· ++ [Char.ofNat b.toNat]) := by
  have hlow {a low high : UInt8} {count : Nat} (h : continuation a = some (low, high, count)) :
      b < low := UInt8.lt_of_lt_of_le hb (le_of_continuation h)
  have htail : isTail b = false := by
    simp [isTail, UInt8.not_le.mpr hb]
  have hmore (c : Char) (x : Except Fault (List Char)) :
      ((c :: ·) <$> x).toOption.map (· ++ [Char.ofNat b.toNat]) =
        (x.toOption.map (· ++ [Char.ofNat b.toNat])).map (c :: ·) := by
    cases x <;> rfl
  -- the bytes end with a whole character, or inside one that the new byte does not belong to
  fun_induction decodeFrom index bytes with
  | case1 index => simp [decodeFrom, hb, Except.toOption]
  | case2 index a rest ha ih =>
    rw [hmore, ← ih, List.cons_append, decodeFrom, if_pos ha, toOption_map]
  | case3 index a rest ha hnone => simp [decodeFrom, ha, hnone, Except.toOption]
  | case4 index a ha low high count hsome =>
    simp [decodeFrom, ha, hsome, hlow hsome, Except.toOption]
  | case5 index a ha low high count hsome c rest hc =>
    simp [decodeFrom, ha, hsome, hc, Except.toOption]
  | case6 index a ha low high c rest hc hsome ih =>
    rw [hmore, ← ih]
    simp [decodeFrom, ha, hsome, hc, toOption_map]
  | case7 index a ha low high count hsome c hc hcount =>
    simp [decodeFrom, ha, hsome, hc, hcount, htail, Except.toOption]
  | case8 index a ha low high count hsome c hc hcount d rest hd =>
    simp [decodeFrom, ha, hsome, hc, hcount, hd, Except.toOption]
  | case9 index a ha low high c hc d rest hd hsome hcount ih =>
    rw [hmore, ← ih]
    simp [decodeFrom, ha, hsome, hc, hd, toOption_map]
  | case10 index a ha low high count hsome c hc hcount d hd hcount' =>
    simp [decodeFrom, ha, hsome, hc, hcount, hd, hcount', htail, Except.toOption]
  | case11 index a ha low high count hsome c hc hcount d hd hcount' e rest he =>
    simp [decodeFrom, ha, hsome, hc, hcount, hd, hcount', he, Except.toOption]
  | case12 index a ha low high count hsome c hc hcount d hd hcount' e rest he ih =>
    rw [hmore, ← ih]
    simp [decodeFrom, ha, hsome, hc, hcount, hd, hcount', he, toOption_map]

/-- A byte is no text without its followers, whatever else comes; what is wrong with it may
change. -/
example : decode [0xC3] = .error (.incomplete 0) ∧ decode [0xC3, 13] = .error (.invalid 1 0) := by
  decide

end Utf8

end Text

variable {line line' : List UInt8}

theorem FeedEntry.parse_congr [Json.Places] {cs cs' : List Char}
    (h : Text.trimmed cs = Text.trimmed cs') : parse cs = parse cs' := by
  rw [parse, parse, h]

/-- A carriage return behind a line does not matter, unless the line is no text either way. -/
theorem ofLine_of_returned [Json.Places] (h : Returned line line') :
    FeedEntry.ofLine line' = FeedEntry.ofLine line ∨
      (Text.Utf8.decode line).isOk = false ∧
        ∃ cause cause', FeedEntry.ofLine line = .error (.invalid cause) ∧
          FeedEntry.ofLine line' = .error (.invalid cause') := by
  rcases h with rfl | rfl
  · exact .inl rfl
  · have hdecode : (Text.Utf8.decode (line ++ [13])).toOption =
        (Text.Utf8.decode line).toOption.map (· ++ ['\r']) :=
      Text.Utf8.decodeFrom_concat (by decide) 0 line
    unfold FeedEntry.ofLine
    cases hline : Text.Utf8.decode line with
    | ok cs =>
      rw [hline] at hdecode
      rw [Json.toOption_eq_some.mp hdecode]
      exact .inl (FeedEntry.parse_congr (Text.trimmed_concat (by decide) cs))
    | error fault =>
      rw [hline] at hdecode
      cases hline' : Text.Utf8.decode (line ++ [13]) with
      | ok cs =>
        rw [hline'] at hdecode
        cases hdecode
      | error fault' => exact .inr ⟨rfl, _, _, rfl, rfl⟩

theorem applyLine_of_returned [Json.Places] (h : Returned line line') (defaultSource : String)
    (x : Index) :
    (Index.applyLine defaultSource line').attempt x =
        (Index.applyLine defaultSource line).attempt x ∨
      (Text.Utf8.decode line).isOk = false ∧
        ∃ cause cause',
          (Index.applyLine defaultSource line).attempt x = (.error (.invalid cause), x) ∧
          (Index.applyLine defaultSource line').attempt x = (.error (.invalid cause'), x) := by
  unfold Index.applyLine
  rcases ofLine_of_returned h with hsame | ⟨hline, cause, cause', hcause, hcause'⟩
  · rw [hsame]
    exact .inl rfl
  · rw [hcause, hcause']
    exact .inr ⟨hline, cause, cause', rfl, rfl⟩

/-- Failures of the same line, with the same message if the line is text. -/
structure EntryFailure.Agrees (IsText : Nat → Prop) (f g : EntryFailure) : Prop where
  origin : g.origin = f.origin
  line : g.line = f.line
  message : IsText f.line → g.message = f.message

/-- Summaries with the same counts and with failures that agree. -/
structure IngestSummary.Agrees (IsText : Nat → Prop) (s t : IngestSummary) : Prop where
  files : t.files = s.files
  records : t.records = s.records
  links : t.links = s.links
  skipped : t.skipped = s.skipped
  failures : List.Forall₂ (EntryFailure.Agrees IsText) s.failures t.failures

/-- Two runs end alike: both at their last line, both at the same bad line, or both with the same
failure of the index. -/
inductive EndsAlike (IsText : Nat → Prop) :
    Except IngestError IngestSummary → Except IngestError IngestSummary → Prop where
  | ended {s t : IngestSummary} : s.Agrees IsText t → EndsAlike IsText (.ok s) (.ok t)
  | stopped {f g : EntryFailure} : f.Agrees IsText g →
    EndsAlike IsText (.error (.entry f.origin f.line f.message))
      (.error (.entry g.origin g.line g.message))
  | failed (cause : Error) : EndsAlike IsText (.error (.storage cause)) (.error (.storage cause))

variable {IsText : Nat → Prop} {s t : IngestSummary}

theorem IngestSummary.Agrees.fail (h : s.Agrees IsText t) {f g : EntryFailure}
    (hf : f.Agrees IsText g) :
    { s with failures := s.failures ++ [f] }.Agrees IsText
      { t with failures := t.failures ++ [g] } where
  files := h.files
  records := h.records
  links := h.links
  skipped := h.skipped
  failures := List.rel_append h.failures (.cons hf .nil)

theorem tally_of_invalid (h : s.Agrees IsText t) (mode : IngestMode) {number : Nat}
    {e e' : Error} (he : e.isOfEntry = true) (he' : e'.isOfEntry = true)
    (hmessage : IsText number → e'.message = e.message) :
    EndsAlike IsText (Index.tally mode number s (.error e))
      (Index.tally mode number t (.error e')) := by
  have hfailure : EntryFailure.Agrees IsText ⟨mode.origin, number, e.message⟩
      ⟨mode.origin, number, e'.message⟩ := ⟨rfl, rfl, hmessage⟩
  simp only [Index.tally, he, he', if_true]
  split
  · exact .stopped hfailure
  · exact .ended (h.fail hfailure)

theorem tally_of_same (h : s.Agrees IsText t) (mode : IngestMode) (number : Nat)
    (outcome : Except Error Applied) :
    EndsAlike IsText (Index.tally mode number s outcome) (Index.tally mode number t outcome) := by
  cases outcome with
  | ok applied =>
    cases applied with
    | record => exact .ended { h with records := congrArg (· + 1) h.records }
    | link => exact .ended { h with links := congrArg (· + 1) h.links }
    | skipped => exact .ended { h with skipped := congrArg (· + 1) h.skipped }
  | error e =>
    by_cases he : e.isOfEntry = true
    · exact tally_of_invalid h mode he he fun _ => rfl
    · simp only [Index.tally, he, if_false, Bool.false_eq_true]
      exact .failed e

theorem ingestLines_of_returned [Json.Places] (mode : IngestMode)
    {lines lines' : List (List UInt8)} (hlines : List.Forall₂ Returned lines lines')
    {number : Nat} (h : s.Agrees IsText t)
    (htext : ∀ k line, lines[k]? = some line → IsText (number + k) →
      (Text.Utf8.decode line).isOk = true) (x : Index) :
    EndsAlike IsText (Index.ingestLines mode number s lines x).1
        (Index.ingestLines mode number t lines' x).1 ∧
      (Index.ingestLines mode number t lines' x).2 =
        (Index.ingestLines mode number s lines x).2 := by
  induction hlines generalizing number s t x with
  | nil => exact ⟨.ended h, rfl⟩
  | @cons line line' rest rest' hline hrest ih =>
    have hmore : ∀ k line, rest[k]? = some line → IsText (number + 1 + k) →
        (Text.Utf8.decode line).isOk = true := by
      intro k line hk hn
      rw [Nat.add_right_comm] at hn
      exact htext (k + 1) line hk hn
    obtain ⟨y, outcome, outcome', hfirst, hfirst', halike⟩ : ∃ y outcome outcome',
        (Index.applyLine mode.defaultSource line).attempt x = (outcome, y) ∧
        (Index.applyLine mode.defaultSource line').attempt x = (outcome', y) ∧
        EndsAlike IsText (Index.tally mode number s outcome)
          (Index.tally mode number t outcome') := by
      rcases applyLine_of_returned hline mode.defaultSource x with
        hsame | ⟨hbytes, cause, cause', hcause, hcause'⟩
      · exact ⟨_, _, _, rfl, hsame, tally_of_same h mode number _⟩
      · refine ⟨x, _, _, hcause, hcause', tally_of_invalid h mode rfl rfl fun hn => ?_⟩
        rw [htext 0 line rfl hn] at hbytes
        cases hbytes
    simp only [Index.ingestLines, hfirst, hfirst']
    cases htally : Index.tally mode number s outcome with
    | ok counted =>
      rw [htally] at halike
      generalize Index.tally mode number t outcome' = result at halike
      cases halike with
      | ended hcounted => exact ih hcounted hmore y
    | error e =>
      rw [htally] at halike
      generalize Index.tally mode number t outcome' = result at halike
      cases halike with
      | stopped hf => exact ⟨.stopped hf, rfl⟩
      | failed cause => exact ⟨.failed cause, rfl⟩

/-- The lines of a feed that are text, of which the first one has the number 1. -/
def IsTextLine (feed : List UInt8) (number : Nat) : Prop :=
  ∃ line, (feedLines feed)[number - 1]? = some line ∧ (Text.Utf8.decode line).isOk = true

/-- It does not matter whether lines end with a line feed or with a carriage return before it. Both
feeds leave the same index, and both runs end alike: with the same counts and failures of the same
lines, or at the same line, and with the same messages wherever the line is text. -/
theorem line_ends_do_not_matter [Json.Places] (mode : IngestMode) (feed : List UInt8) (x : Index) :
    let run := Index.ingest mode feed x
    let run' := Index.ingest mode (withReturns feed) x
    EndsAlike (IsTextLine feed) run.1 run'.1 ∧ run'.2 = run.2 := by
  refine ingestLines_of_returned mode (forall₂_feedLines_withReturns feed) ?_ ?_ x
  · exact ⟨rfl, rfl, rfl, rfl, .nil⟩
  · rintro k line hk ⟨other, hother, hok⟩
    rw [Nat.add_sub_cancel_left, hk] at hother
    cases hother
    exact hok

end MusicIndex
