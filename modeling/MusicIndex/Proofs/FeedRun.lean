import MusicIndex.Proofs.History

namespace MusicIndex

/-- The call that an entry stands for. -/
def FeedEntry.call (defaultSource : String) (entry : FeedEntry) : Call :=
  match entry.fact with
  | .record r i => .createRecord r i (entry.source.getD defaultSource)
  | .link l => .createLink l (entry.source.getD defaultSource)

def FeedEntry.applied (entry : FeedEntry) : Applied :=
  match entry.fact with
  | .record _ _ => .record
  | .link _ => .link

/-- The call that a line stands for, unless there is no entry on it. -/
def lineCall? [Json.Places] (defaultSource : String) (line : List UInt8) : Option Call :=
  match FeedEntry.ofLine line with
  | .error _ => none
  | .ok none => none
  | .ok (some entry) => some (entry.call defaultSource)

namespace Index

variable {x : Index}

theorem after_append (x : Index) (calls more : List Call) :
    x.after (calls ++ more) = (x.after calls).after more := by
  induction calls generalizing x with
  | nil => rfl
  | cons c rest ih => exact ih _

theorem attempt_map {α β : Type} (f : α → β) (w : Write α) (x : Index) :
    (f <$> w).attempt x = ((w.attempt x).1.map f, (w.attempt x).2) := by
  rw [Write.attempt, Write.attempt, StateT.run_map]
  cases w.run x <;> rfl

theorem attempt_map_const {α β γ : Type} (b : β) (f : α → γ) (w : Write α) (x : Index) :
    ((fun _ => b) <$> w).attempt x =
      (((f <$> w).attempt x).1.map fun _ => b, ((f <$> w).attempt x).2) := by
  rw [attempt_map, attempt_map]
  cases (w.attempt x).1 <;> rfl

theorem applyEntry_attempt (defaultSource : String) (entry : FeedEntry) (x : Index) :
    (applyEntry defaultSource entry).attempt x =
      (((entry.call defaultSource).perform.attempt x).1.map fun _ => entry.applied,
        ((entry.call defaultSource).perform.attempt x).2) := by
  unfold applyEntry FeedEntry.call FeedEntry.applied
  cases entry.fact with
  | record r i => exact attempt_map_const Applied.record Answer.identifier _ x
  | link l => exact attempt_map_const Applied.link Answer.link _ x

theorem line_of_tally_error {mode : IngestMode} {number line : Nat} {summary : IngestSummary}
    {result : Except Error Applied} {origin message : String}
    (h : tally mode number summary result = .error (.entry origin line message)) :
    line = number := by
  cases result with
  | ok applied => cases applied <;> cases h
  | error e =>
    rw [tally] at h
    split at h
    · split at h <;> cases h
      rfl
    · cases h

section Runs

variable [Json.Places]

theorem filterMap_lineCall?_cons (defaultSource : String) (line : List UInt8)
    (rest : List (List UInt8)) :
    (line :: rest).filterMap (lineCall? defaultSource) =
      (lineCall? defaultSource line).toList ++ rest.filterMap (lineCall? defaultSource) := by
  cases h : lineCall? defaultSource line with
  | none =>
    rw [List.filterMap_cons_none h]
    rfl
  | some c =>
    rw [List.filterMap_cons_some h]
    rfl

theorem applyLine_index (defaultSource : String) (line : List UInt8) (x : Index) :
    ((applyLine defaultSource line).attempt x).2 =
      x.after (lineCall? defaultSource line).toList := by
  unfold applyLine lineCall?
  cases FeedEntry.ofLine line with
  | error e => rfl
  | ok entry? =>
    cases entry? with
    | none => rfl
    | some entry => exact congrArg Prod.snd (applyEntry_attempt defaultSource entry x)

/-- The calls of a run over lines, up to the line that ends it. -/
def lineCalls (mode : IngestMode) : Nat → IngestSummary → List (List UInt8) → Index → List Call
  | _, _, [], _ => []
  | number, summary, line :: rest, x =>
    let calls := (lineCall? mode.defaultSource line).toList
    let (result, y) := (applyLine mode.defaultSource line).attempt x
    match tally mode number summary result with
    | .ok summary => calls ++ lineCalls mode (number + 1) summary rest y
    | .error _ => calls

def ingestCalls (mode : IngestMode) (bytes : List UInt8) (x : Index) : List Call :=
  lineCalls mode 1 .empty (feedLines bytes) x

def contentCalls (options : IngestOptions) (path : String)
    (content : Except FileFault (List UInt8)) (x : Index) : List Call :=
  match options.sourceOf path, content with
  | none, _ => []
  | some _, .error _ => []
  | some source, .ok bytes => ingestCalls ⟨path, source, options.failFast⟩ bytes x

def allCalls (options : IngestOptions) : List (String × List UInt8) → Index → List Call
  | [], _ => []
  | (path, bytes) :: rest, x =>
    let calls := contentCalls options path (.ok bytes) x
    match ingestContent options path (.ok bytes) x with
    | (.ok _, y) => calls ++ allCalls options rest y
    | (.error _, _) => calls

def pathCalls (files : Workspace) (options : IngestOptions) (path : String) (x : Index) :
    List Call :=
  match files.find path with
  | .error _ => []
  | .ok (.file bytes) => contentCalls options path (.ok bytes) x
  | .ok .device => []
  | .ok (.directory entries) => allCalls options (feedsAmong path entries) x

theorem ingestLines_eq_after (mode : IngestMode) (number : Nat) (summary : IngestSummary)
    (lines : List (List UInt8)) (x : Index) :
    (ingestLines mode number summary lines x).2 =
      x.after (lineCalls mode number summary lines x) := by
  induction lines generalizing number summary x with
  | nil => rfl
  | cons line rest ih =>
    have hline := applyLine_index mode.defaultSource line x
    rw [ingestLines, lineCalls]
    cases htally : tally mode number summary ((applyLine mode.defaultSource line).attempt x).1 with
    | ok counted =>
      simp only [htally]
      rw [after_append, ← hline, ih]
    | error e =>
      simp only [htally]
      exact hline

theorem ingest_eq_after (mode : IngestMode) (bytes : List UInt8) (x : Index) :
    (ingest mode bytes x).2 = x.after (ingestCalls mode bytes x) :=
  ingestLines_eq_after mode 1 .empty (feedLines bytes) x

/-- A run comes to all lines, or to those up to the one that ends it. -/
theorem exists_reached (mode : IngestMode) (number : Nat) (summary : IngestSummary)
    (lines : List (List UInt8)) (x : Index) :
    ∃ reached, reached <+: lines ∧
      lineCalls mode number summary lines x =
        reached.filterMap (lineCall? mode.defaultSource) ∧
      (∀ s, (ingestLines mode number summary lines x).1 = .ok s → reached = lines) ∧
      ∀ origin line message,
        (ingestLines mode number summary lines x).1 = .error (.entry origin line message) →
        line + 1 = number + reached.length := by
  induction lines generalizing number summary x with
  | nil => exact ⟨[], List.prefix_refl [], rfl, fun _ _ => rfl, nofun⟩
  | cons line rest ih =>
    rw [ingestLines, lineCalls]
    cases htally : tally mode number summary ((applyLine mode.defaultSource line).attempt x).1 with
    | ok counted =>
      obtain ⟨reached, hprefix, hcalls, hall, hlast⟩ :=
        ih (number + 1) counted ((applyLine mode.defaultSource line).attempt x).2
      simp only [htally]
      refine ⟨line :: reached, (List.prefix_cons_inj line).mpr hprefix, ?_, ?_, ?_⟩
      · rw [hcalls, filterMap_lineCall?_cons]
      · intro s hs
        rw [hall s hs]
      · intro origin last message he
        rw [hlast origin last message he, List.length_cons, Nat.add_right_comm, Nat.add_assoc]
    | error e =>
      simp only [htally]
      refine ⟨[line], ⟨rest, rfl⟩, ?_, nofun, ?_⟩
      · rw [filterMap_lineCall?_cons, List.filterMap_nil, List.append_nil]
      · rintro origin last message ⟨⟩
        rw [line_of_tally_error htally, List.length_singleton]

theorem ingestContent_eq_after (options : IngestOptions) (path : String)
    (content : Except FileFault (List UInt8)) (x : Index) :
    (ingestContent options path content x).2 = x.after (contentCalls options path content x) := by
  unfold ingestContent contentCalls
  cases options.sourceOf path with
  | none => rfl
  | some source =>
    cases content with
    | error fault => rfl
    | ok bytes =>
      dsimp only
      rw [← ingest_eq_after]
      split <;> rename_i he <;> rw [he]

theorem ingestAll_eq_after (options : IngestOptions) (feeds : List (String × List UInt8))
    (summary : IngestSummary) (x : Index) :
    (ingestAll options feeds summary x).2 = x.after (allCalls options feeds x) := by
  induction feeds generalizing summary x with
  | nil => rfl
  | cons feed rest ih =>
    obtain ⟨path, bytes⟩ := feed
    have hfirst := ingestContent_eq_after options path (.ok bytes) x
    rw [ingestAll, allCalls]
    cases hresult : ingestContent options path (.ok bytes) x with
    | mk result y =>
      rw [hresult] at hfirst
      cases result with
      | ok more =>
        dsimp only
        rw [after_append, ← hfirst, ih]
      | error e => exact hfirst

theorem ingestPath_eq_after (files : Workspace) (options : IngestOptions) (path : String)
    (x : Index) : (ingestPath files options path x).2 =
      x.after (pathCalls files options path x) := by
  unfold ingestPath pathCalls
  cases files.find path with
  | error fault => rfl
  | ok tree =>
    cases tree with
    | file bytes => exact ingestContent_eq_after options path _ x
    | device => rfl
    | directory entries => exact ingestAll_eq_after options _ _ x

theorem ingest_index (mode : IngestMode) (bytes : List UInt8) (x : Index) :
    ∃ calls, (ingest mode bytes x).2 = x.after calls :=
  ⟨_, ingest_eq_after mode bytes x⟩

theorem ingestPath_index (files : Workspace) (options : IngestOptions) (path : String)
    (x : Index) : ∃ calls, (ingestPath files options path x).2 = x.after calls :=
  ⟨_, ingestPath_eq_after files options path x⟩

end Runs

/-- What calls and feeds make of the empty index, and the calls that succeeded on the way. -/
inductive History : List Call → Index → Prop where
  | empty : History [] empty
  | call {log : List Call} {x : Index} (call : Call) :
    History log x → History (log ++ x.accepted [call]) (call.perform.attempt x).2
  | feed [Json.Places] {log : List Call} {x : Index} (mode : IngestMode) (bytes : List UInt8) :
    History log x → History (log ++ x.accepted (ingestCalls mode bytes x)) (ingest mode bytes x).2
  | path [Json.Places] {log : List Call} {x : Index} (files : Workspace) (options : IngestOptions)
    (path : String) : History log x →
    History (log ++ x.accepted (pathCalls files options path x)) (ingestPath files options path x).2

theorem Reachable.after (h : Reachable x) (calls : List Call) : Reachable (x.after calls) := by
  induction calls generalizing x with
  | nil => exact h
  | cons c rest ih => exact ih (.call c h)

theorem Reachable.exists_history (h : Reachable x) : ∃ log, History log x := by
  induction h with
  | empty => exact ⟨[], .empty⟩
  | call c _ ih =>
    obtain ⟨log, hlog⟩ := ih
    exact ⟨_, .call c hlog⟩
  | feed mode bytes _ ih =>
    obtain ⟨log, hlog⟩ := ih
    exact ⟨_, .feed mode bytes hlog⟩
  | path files options path _ ih =>
    obtain ⟨log, hlog⟩ := ih
    exact ⟨_, .path files options path hlog⟩

theorem History.after {log : List Call} (h : History log x) (calls : List Call) :
    History (log ++ x.accepted calls) (x.after calls) := by
  induction calls generalizing log x with
  | nil =>
    rw [accepted, List.append_nil]
    exact h
  | cons c rest ih =>
    have hrest := ih (h.call c)
    have hlog : x.accepted (c :: rest) =
        x.accepted [c] ++ (c.perform.attempt x).2.accepted rest := by
      rw [accepted, accepted]
      split <;> rename_i he <;> rw [he] <;> rfl
    rw [hlog, ← List.append_assoc]
    exact hrest

theorem History.reachable {log : List Call} (h : History log x) : Reachable x := by
  induction h with
  | empty => exact .empty
  | call c _ ih => exact .call c ih
  | feed mode bytes _ ih => exact .feed mode bytes ih
  | path files options path _ ih => exact .path files options path ih

/-- An index is that of the calls that succeeded on the way to it, and these are proper. -/
theorem History.eq_index {log : List Call} (h : History log x) :
    x = Ledger.index log ∧ ∀ c ∈ log, ¬ c.Improper := by
  have hmore {log calls : List Call} (hlog : ∀ c ∈ log, ¬ c.Improper) :
      ∀ c ∈ log ++ (Ledger.index log).accepted calls, ¬ c.Improper := by
    intro c hc
    rcases List.mem_append.mp hc with hc | hc
    · exact hlog c hc
    · exact Ledger.proper_of_accepted hc
  induction h with
  | empty => exact ⟨rfl, fun c hc => absurd hc List.not_mem_nil⟩
  | call c _ ih =>
    obtain ⟨rfl, hproper⟩ := ih
    exact ⟨Ledger.after_index _ [c], hmore hproper⟩
  | feed mode bytes _ ih =>
    obtain ⟨rfl, hproper⟩ := ih
    rw [ingest_eq_after]
    exact ⟨Ledger.after_index _ _, hmore hproper⟩
  | path files options path _ ih =>
    obtain ⟨rfl, hproper⟩ := ih
    rw [ingestPath_eq_after]
    exact ⟨Ledger.after_index _ _, hmore hproper⟩

theorem Reachable.exists_log (h : Reachable x) :
    ∃ log : List Call, (∀ c ∈ log, ¬ c.Improper) ∧ x = Ledger.index log := by
  obtain ⟨log, hlog⟩ := h.exists_history
  obtain ⟨hx, hproper⟩ := hlog.eq_index
  exact ⟨log, hproper, hx⟩

end Index

end MusicIndex
