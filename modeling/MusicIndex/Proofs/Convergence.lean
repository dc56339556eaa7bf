import MusicIndex.Proofs.Content
import MusicIndex.Proofs.History

namespace MusicIndex

open Ledger

def Call.Asserts (c : Call) : Prop :=
  (∃ f, c.record? = some f) ∨ ∃ f, c.link? = some f

/-- Two logs assert the same: the same records under the same identifiers and the same links, all of
them for the same sources, and links that carry shares are given the same ones last. -/
structure SameAssertions (log other : List Call) : Prop where
  records : ∀ f, f ∈ facts log ↔ f ∈ facts other
  links : ∀ kind key, key ∈ keys kind (links log) ↔ key ∈ keys kind (links other)
  shares : ∀ kind key, kind.attributes = .roleAndShares →
    (lastShares kind key (Ledger.links log)).kept = (lastShares kind key (Ledger.links other)).kept

theorem SameAssertions.symm {log other : List Call} (h : SameAssertions log other) :
    SameAssertions other log where
  records f := (h.records f).symm
  links kind key := (h.links kind key).symm
  shares kind key hk := (h.shares kind key hk).symm

namespace Ledger

variable {log other : List Call}

/-- Only what occurs in one of the logs is to be compared. -/
theorem sameAssertions_iff : SameAssertions log other ↔
    (facts log ⊆ facts other ∧ facts other ⊆ facts log) ∧
      ((∀ f ∈ links log, f.key ∈ keys f.link.kind (links other)) ∧
        ∀ f ∈ links other, f.key ∈ keys f.link.kind (links log)) ∧
      ∀ f ∈ links log, f.link.kind.attributes = .roleAndShares →
        (lastShares f.link.kind f.key (links log)).kept =
          (lastShares f.link.kind f.key (links other)).kept := by
  constructor
  · intro h
    have hkey {l : List Call} {f : LinkFact} (hf : f ∈ links l) :
        f.key ∈ keys f.link.kind (links l) := mem_keys.mpr ⟨f, hf, rfl, rfl⟩
    exact ⟨⟨fun f => (h.records f).mp, fun f => (h.records f).mpr⟩,
      ⟨fun f hf => (h.links _ _).mp (hkey hf), fun f hf => (h.links _ _).mpr (hkey hf)⟩,
      fun f _ => h.shares _ _⟩
  · rintro ⟨⟨hrecords, hrecords'⟩, ⟨hlinks, hlinks'⟩, hshares⟩
    have hkeys (kind : LinkKind) (key : LinkKey) :
        key ∈ keys kind (links log) ↔ key ∈ keys kind (links other) := by
      constructor
      · intro hk
        obtain ⟨f, hf, rfl, rfl⟩ := mem_keys.mp hk
        exact hlinks f hf
      · intro hk
        obtain ⟨f, hf, rfl, rfl⟩ := mem_keys.mp hk
        exact hlinks' f hf
    refine ⟨fun f => ⟨fun h => hrecords h, fun h => hrecords' h⟩, hkeys, ?_⟩
    intro kind key hk
    by_cases hkey : key ∈ keys kind (links log)
    · obtain ⟨f, hf, rfl, rfl⟩ := mem_keys.mp hkey
      exact hshares f hf hk
    -- neither log gives anything to a key that it does not have
    · rw [lastShares_of_not_mem_keys hkey,
        lastShares_of_not_mem_keys (mt (hkeys kind key).mpr hkey)]

instance (log other : List Call) : Decidable (SameAssertions log other) :=
  decidable_of_iff _ sameAssertions_iff.symm

-- A call that only resolves a name makes it known without asserting anything, so the names that two
-- logs know can be compared only where every call asserts.
theorem sources_subset (hlog : ∀ c ∈ log, c.Asserts) (h : SameAssertions log other) :
    sources log ⊆ sources other := by
  intro name hn
  obtain ⟨c, hc, hs⟩ := List.mem_filterMap.mp (List.mem_eraseDups.mp hn)
  rcases hlog c hc with ⟨f, hf⟩ | ⟨f, hf⟩
  · obtain rfl : f.source = name := Option.some.inj ((source?_of_record? hf).symm.trans hs)
    have hfact : f ∈ facts log := List.mem_filterMap.mpr ⟨c, hc, hf⟩
    exact source_mem_of_fact ((h.records f).mp hfact)
  · obtain rfl : f.source = name := Option.some.inj ((source?_of_link? hf).1.symm.trans hs)
    have hlink : f ∈ links log := List.mem_filterMap.mpr ⟨c, hc, hf⟩
    have hkey := (h.links f.link.kind f.key).mp (mem_keys.mpr ⟨f, hlink, rfl, rfl⟩)
    exact (known_of_key hkey).1

theorem identifiers_subset (hlog : ∀ c ∈ log, c.Asserts) (h : SameAssertions log other) :
    identifiers log ⊆ identifiers other := by
  intro i hi
  obtain ⟨c, hc, hi⟩ := List.mem_flatMap.mp (List.mem_eraseDups.mp hi)
  rcases hlog c hc with ⟨f, hf⟩ | ⟨f, hf⟩
  · have hids : c.identifiers = [f.identifier] := by
      cases c <;> cases hf
      rfl
    rw [hids] at hi
    obtain rfl := List.mem_singleton.mp hi
    have hfact : f ∈ facts log := List.mem_filterMap.mpr ⟨c, hc, hf⟩
    exact identifier_mem_of_fact ((h.records f).mp hfact)
  · have hlink : f ∈ links log := List.mem_filterMap.mpr ⟨c, hc, hf⟩
    have hkey := (h.links f.link.kind f.key).mp (mem_keys.mpr ⟨f, hlink, rfl, rfl⟩)
    obtain ⟨-, ha, hb⟩ := known_of_key hkey
    rw [(source?_of_link? hf).2.2] at hi
    rcases List.mem_pair.mp hi with rfl | rfl
    · exact ha
    · exact hb

theorem sources_perm (hlog : ∀ c ∈ log, c.Asserts) (hother : ∀ c ∈ other, c.Asserts)
    (h : SameAssertions log other) : (sources log).Perm (sources other) :=
  (List.subperm_of_subset nodup_sources (sources_subset hlog h)).antisymm
    (List.subperm_of_subset nodup_sources (sources_subset hother h.symm))

theorem identifiers_perm (hlog : ∀ c ∈ log, c.Asserts) (hother : ∀ c ∈ other, c.Asserts)
    (h : SameAssertions log other) : (identifiers log).Perm (identifiers other) :=
  (List.subperm_of_subset nodup_identifiers (identifiers_subset hlog h)).antisymm
    (List.subperm_of_subset nodup_identifiers (identifiers_subset hother h.symm))

theorem claims_perm (h : SameAssertions log other) (kind : RecordKind) :
    (claims kind (facts log)).Perm (claims kind (facts other)) := by
  apply (List.perm_ext_iff_of_nodup nodup_claims nodup_claims).mpr
  intro c
  simp only [mem_claims, h.records]

theorem facts_perm (h : SameAssertions log other) :
    (facts log).eraseDups.Perm (facts other).eraseDups := by
  apply (List.perm_ext_iff_of_nodup (nodup_eraseDups _) (nodup_eraseDups _)).mpr
  intro f
  rw [List.mem_eraseDups, List.mem_eraseDups]
  exact h.records f

theorem keys_perm (h : SameAssertions log other) (kind : LinkKind) :
    (keys kind (links log)).Perm (keys kind (links other)) :=
  (List.perm_ext_iff_of_nodup nodup_keys nodup_keys).mpr (h.links kind)

theorem sharedLink_eq (h : SameAssertions log other) (kind : LinkKind) :
    sharedLink log kind = sharedLink other kind := by
  funext key
  unfold sharedLink rowShares
  split
  · rename_i hk
    rw [h.shares kind key hk]
  · rfl

theorem claims_eq (h : SameAssertions log other) : (index log).claims = (index other).claims := by
  have hrecords (kind : RecordKind) :
      (index log).claims.records kind = (index other).claims.records kind := by
    rw [claims_records_index, claims_records_index, Multiset.coe_eq_coe]
    exact (claims_perm h kind).map _
  have hbindings : (index log).claims.bindings = (index other).claims.bindings := by
    rw [claims_bindings_index, claims_bindings_index, Multiset.coe_eq_coe]
    exact (facts_perm h).map _
  have hlinks (kind : LinkKind) :
      (index log).claims.links kind = (index other).claims.links kind := by
    rw [claims_links_index, claims_links_index, sharedLink_eq h, Multiset.coe_eq_coe]
    exact (keys_perm h kind).map _
  exact Claims.ext (funext hrecords) hbindings (funext hlinks)

theorem content_eq (hlog : ∀ c ∈ log, c.Asserts) (hother : ∀ c ∈ other, c.Asserts)
    (h : SameAssertions log other) : (index log).content = (index other).content := by
  have hsources : ((index log).sources.contents : Multiset String) =
      (index other).sources.contents := by
    change Multiset.ofList (Table.keyed (sources log) id).contents =
      Multiset.ofList (Table.keyed (sources other) id).contents
    rw [Table.contents_keyed, Table.contents_keyed, Multiset.coe_eq_coe]
    exact (sources_perm hlog hother h).map _
  have hidentifiers : ((index log).identifiers.contents : Multiset Identifier) =
      (index other).identifiers.contents := by
    change Multiset.ofList (Table.keyed (identifiers log) id).contents =
      Multiset.ofList (Table.keyed (identifiers other) id).contents
    rw [Table.contents_keyed, Table.contents_keyed, Multiset.coe_eq_coe]
    exact (identifiers_perm hlog hother h).map _
  rw [Index.content, Index.content, claims_eq h, hsources, hidentifiers]

end Ledger

/-- Two runs of calls that assert the same, in whatever order and however often, make indexes that
say the same and have tables of the same sizes. -/
theorem content_of_same_assertions {calls others : List Call}
    (hcalls : ∀ c ∈ calls, c.Asserts) (hothers : ∀ c ∈ others, c.Asserts)
    (h : SameAssertions (Index.empty.accepted calls) (Index.empty.accepted others)) :
    let x := Index.empty.after calls
    let y := Index.empty.after others
    x.content = y.content ∧ x.stats = y.stats := by
  intro x y
  have hsub {l : List Call} (hl : ∀ c ∈ l, c.Asserts) :
      ∀ c ∈ Index.empty.accepted l, c.Asserts := by
    intro c hc
    rw [accepted_empty] at hc
    exact hl c (List.mem_filter.mp hc).1
  have hcontent : x.content = y.content := by
    change (Index.empty.after calls).content = (Index.empty.after others).content
    rw [after_empty, after_empty]
    exact content_eq (hsub hcalls) (hsub hothers) h
  exact ⟨hcontent, Index.stats_eq_of_content_eq hcontent⟩

/-- Two writers come in two orders, in one of them with repetitions and a failure. -/
theorem interleaved_writers_converge :
    let anna : Record := ⟨.performer, ⟨["Anna"], rfl⟩⟩
    let isni : Identifier := ⟨"isni", "1"⟩
    let song (value : Binary64) : Link Binary64 :=
      ⟨.publisherWork, isni, ⟨"iswc", "2"⟩, some "E", some ⟨some value, none, none⟩⟩
    let half : Binary64 := ⟨false, 1021 * 2 ^ 52, by decide⟩
    let label : Call := .createLink ⟨.recordLabelSong, isni, ⟨"iswc", "2"⟩, none, none⟩ "press"
    let calls : List Call := [.createRecord anna isni "radio", .createLink (song .zero) "radio",
      label, .createLink (song half) "radio", .createRecord anna isni "press"]
    let others : List Call := [.createRecord anna isni "press", .createLink (song half) "radio",
      .createLink (song .zero) "radio", .createRecord anna isni " ",
      .createRecord anna isni "radio", .createLink (song half) "radio", label, label]
    let x := Index.empty.after calls
    let y := Index.empty.after others
    (x.sources.contents, y.sources.contents) = (["radio", "press"], ["press", "radio"]) ∧
      x.content = y.content ∧ x.stats = y.stats := by
  intro anna isni song half label calls others x y
  refine ⟨by decide +kernel, content_of_same_assertions ?_ ?_ (by decide +kernel)⟩
  · simp [calls, label, Call.Asserts, Call.record?, Call.link?]
  · simp [others, label, Call.Asserts, Call.record?, Call.link?]

end MusicIndex
