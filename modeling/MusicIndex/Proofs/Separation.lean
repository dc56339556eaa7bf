import MusicIndex.Proofs.Content
import MusicIndex.Proofs.History

namespace MusicIndex

open Ledger

namespace Ledger

variable {log : List Call} {c : Call} {name : String}

/-- The calls that a source is responsible for. -/
def callsOf (name : String) (calls : List Call) : List Call :=
  calls.filter (·.source? = some name)

theorem filterMap_callsOf {α : Type} {f : Call → Option α} {source : α → String}
    (h : ∀ c a, f c = some a → c.source? = some (source a)) (name : String) (log : List Call) :
    (callsOf name log).filterMap f = (log.filterMap f).filter (source · = name) := by
  rw [callsOf, List.filterMap_filter, List.filter_filterMap]
  apply List.filterMap_congr
  intro c _
  cases hc : f c with
  | none => simp
  | some a => simp [h c a hc, Option.filter]

theorem facts_callsOf (name : String) (log : List Call) :
    facts (callsOf name log) = (facts log).filter (·.source = name) :=
  filterMap_callsOf (fun _ _ h => source?_of_record? h) name log

theorem links_callsOf (name : String) (log : List Call) :
    links (callsOf name log) = (links log).filter (·.source = name) :=
  filterMap_callsOf (fun _ _ h => (source?_of_link? h).1) name log

theorem claims_filter (kind : RecordKind) (name : String) (facts : List RecordFact) :
    claims kind (facts.filter (·.source = name)) =
      (claims kind facts).filter (·.source = name) := by
  rw [claims, claims, filter_eraseDups, List.filter_map, List.filter_filter, List.filter_filter]
  simp only [Function.comp_def, RecordFact.claim, Bool.and_comm]

theorem keys_filter (kind : LinkKind) (name : String) (links : List LinkFact) :
    keys kind (links.filter (·.source = name)) = (keys kind links).filter (·.source = name) := by
  rw [keys, keys, filter_eraseDups, List.filter_map, List.filter_filter, List.filter_filter]
  simp only [Function.comp_def, LinkFact.key, Bool.and_comm]

theorem lastShares_filter {kind : LinkKind} {key : LinkKey} (h : key.source = name)
    (links : List LinkFact) :
    lastShares kind key (links.filter (·.source = name)) = lastShares kind key links := by
  have hsame (f : LinkFact) : (decide (f.link.kind = kind ∧ f.key = key) &&
      decide (f.source = name)) = decide (f.link.kind = kind ∧ f.key = key) := by
    by_cases hf : f.link.kind = kind ∧ f.key = key
    · have hs : f.source = name := by
        rw [← h, ← hf.2]
        rfl
      simp [hf, hs]
    · simp [hf]
  rw [lastShares, lastShares, List.filter_filter]
  simp only [hsame]

theorem filter_map_some {α β : Type} (g : α → β) {p : β → Prop} [DecidablePred p] {q : α → Bool}
    (h : ∀ a, p (g a) ↔ q a = true) (l : List α) :
    ((l.map (some ∘ g) : Multiset (Option β)).filter fun o => ∃ b ∈ o, p b) =
      (l.filter q).map (some ∘ g) := by
  rw [Multiset.filter_coe, List.filter_map]
  congr 2
  apply List.filter_congr
  intro a _
  simp [h a]

theorem sharedLink_callsOf {kind : LinkKind} {key : LinkKey} (h : key.source = name) :
    sharedLink (callsOf name log) kind key = sharedLink log kind key := by
  rw [sharedLink, sharedLink, rowShares, rowShares, links_callsOf, lastShares_filter h]

theorem claims_of_index (name : String) (log : List Call) :
    (index log).claims.of name = (index (callsOf name log)).claims := by
  have hrecords (kind : RecordKind) : ((index log).claims.of name).records kind =
      (index (callsOf name log)).claims.records kind := by
    change Multiset.filter _ ((index log).claims.records kind) = _
    rw [claims_records_index, claims_records_index, facts_callsOf, claims_filter]
    exact filter_map_some id (fun c => by simp) _
  have hbindings : ((index log).claims.of name).bindings =
      (index (callsOf name log)).claims.bindings := by
    change Multiset.filter _ (index log).claims.bindings = _
    rw [claims_bindings_index, claims_bindings_index, facts_callsOf, ← filter_eraseDups]
    -- a fact has one source for its record and for its binding
    exact filter_map_some RecordFact.binding
      (fun f => by simp [RecordFact.binding, RecordFact.claim]) _
  have hlinks (kind : LinkKind) : ((index log).claims.of name).links kind =
      (index (callsOf name log)).claims.links kind := by
    change Multiset.filter _ ((index log).claims.links kind) = _
    rw [claims_links_index, claims_links_index, links_callsOf, keys_filter]
    -- the shares of a key are given by links of its own source only
    have hown : ((keys kind (links log)).filter (·.source = name)).map
        (some ∘ sharedLink (callsOf name log) kind) =
          ((keys kind (links log)).filter (·.source = name)).map (some ∘ sharedLink log kind) := by
      apply List.map_congr_left
      intro key hk
      have hs : key.source = name := of_decide_eq_true (List.mem_filter.mp hk).2
      rw [Function.comp_apply, sharedLink_callsOf hs]
      rfl
    rw [hown]
    exact filter_map_some (sharedLink log kind) (fun key => by simp [sharedLink]) _
  exact Claims.ext (funext hrecords) hbindings (funext hlinks)

theorem callsOf_callsOf (name : String) (calls : List Call) :
    callsOf name (callsOf name calls) = callsOf name calls := by
  simp [callsOf, List.filter_filter]

end Ledger

/-- What a source claims after any calls is what it claims after its own ones alone, and no call of
another source changes it. -/
theorem claims_of_source_alone (calls : List Call) (name : String) :
    let x := Index.empty.after calls
    let alone := Index.empty.after (calls.filter (·.source? = some name))
    x.claims.of name = alone.claims.of name ∧
      ∀ call : Call, call.source? ≠ some name →
        (call.perform.attempt x).2.claims.of name = x.claims.of name := by
  intro x alone
  have hx : x = index (calls.filter (·.check.isOk)) := by
    rw [← accepted_empty]
    exact after_empty calls
  have halone : alone = index (callsOf name (calls.filter (·.check.isOk))) := by
    have hfilter : (callsOf name calls).filter (·.check.isOk) =
        callsOf name (calls.filter (·.check.isOk)) := List.filter_comm _ _ _
    rw [← hfilter, ← accepted_empty]
    exact after_empty (callsOf name calls)
  constructor
  · rw [hx, halone, claims_of_index, claims_of_index, callsOf_callsOf]
  · intro call hcall
    rw [hx]
    by_cases h : call.Improper
    · obtain ⟨cause, hc⟩ := attempt_of_improper (calls.filter (·.check.isOk)) h
      rw [hc]
    · have hsame : callsOf name (calls.filter (·.check.isOk) ++ [call]) =
          callsOf name (calls.filter (·.check.isOk)) := by
        rw [callsOf, List.filter_append, List.filter_cons_of_neg (by simpa using hcall)]
        simp [callsOf]
      rw [attempt_of_proper h, claims_of_index, hsame, ← claims_of_index]

/-- The press gives the record and the link of the radio as well, with shares of its own. -/
theorem press_leaves_radio_alone :
    let anna : Record := ⟨.performer, ⟨["Anna"], rfl⟩⟩
    let isni : Identifier := ⟨"isni", "1"⟩
    let song (share : Option Binary64) : Link Binary64 :=
      ⟨.publisherWork, isni, ⟨"iswc", "2"⟩, some "E", some ⟨share, none, none⟩⟩
    let calls : List Call := [.createRecord anna ⟨"ipi", "3"⟩ "press",
      .createLink (song (some .zero)) "radio", .createRecord anna isni "radio",
      .createLink (song none) "press"]
    let press : Call := .createRecord anna isni "press"
    let x := Index.empty.after calls
    let alone := Index.empty.after (calls.filter (·.source? = some "radio"))
    ((x.links .publisherWork).size, (alone.links .publisherWork).size) = (2, 1) ∧
      x.claims.of "radio" = alone.claims.of "radio" ∧
      press.source? ≠ some "radio" ∧
      (press.perform.attempt x).2.claims.of "radio" = x.claims.of "radio" := by
  intro anna isni song calls press x alone
  have hpress : press.source? ≠ some "radio" := by decide
  obtain ⟨halone, hother⟩ := claims_of_source_alone calls "radio"
  exact ⟨by decide +kernel, halone, hpress, hother press hpress⟩

end MusicIndex
