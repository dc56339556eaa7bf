import MusicIndex.Proofs.History
import MusicIndex.Proofs.LedgerRead

namespace MusicIndex

open Ledger

/-- A stored link reports a key among links. -/
structure ReportsLink (x : Index) (links : List LinkFact) (kind : LinkKind) (key : LinkKey)
    (l : StoredLink) : Prop where
  id : l.id = number (keys kind links) key
  a : x.find? key.a = some l.a
  b : x.find? key.b = some l.b
  role : l.role = if key.role = "" then none else some key.role
  shares : l.shares =
    if kind.attributes = .roleAndShares then some (lastShares kind key links).kept else none
  source : x.sourceName l.source = .ok key.source
  kind : l.kind = kind

/-- The answer to a link repeats it, and the link is listed under both its ends, once and just as it
was answered except for the sign of zero shares. -/
structure AnswersLink (x : Index) (f : LinkFact) (l : StoredLink) : Prop where
  kind : l.kind = f.link.kind
  a : x.find? f.link.a = some l.a
  b : x.find? f.link.b = some l.b
  role : l.role = if f.link.keyRole = "" then none else some f.link.keyRole
  shares : l.shares =
    if l.kind.attributes = .roleAndShares then some (f.link.shares.getD .unknown) else none
  source : x.sourceName l.source = .ok f.source
  listed : ∀ direction,
    (x.linksOf l.kind direction (l.far direction.opposite).id).filter (·.id = l.id) =
      [{ l with shares := l.shares.map .kept }]

namespace Ledger

variable {log : List Call} {c : Call} {f : LinkFact}

theorem reportsLink_listedLink {kind : LinkKind} {key : LinkKey}
    (hk : key ∈ keys kind (links log)) :
    ReportsLink (index log) (links log) kind key (listedLink log kind key) := by
  obtain ⟨hs, ha, hb⟩ := known_of_key hk
  exact {
    id := rfl
    a := find?_index_of_mem ha
    b := find?_index_of_mem hb
    role := rfl
    shares := rfl
    source := sourceName_index hs
    kind := rfl }

theorem reportsLinks_index (log : List Call) (kind : LinkKind) (direction : Direction)
    (i : Identifier) :
    List.Forall₂ (ReportsLink (index log) (links log) kind)
      ((keys kind (links log)).filter (·.near direction = i))
      ((index log).linksOf kind direction (number (identifiers log) i)) := by
  rw [linksOf_index, List.forall₂_map_right_iff, List.forall₂_same]
  intro key hk
  exact reportsLink_listedLink (List.mem_filter.mp hk).1

theorem filter_listedLink {kind : LinkKind} {key : LinkKey} {p : LinkKey → Bool}
    (hk : key ∈ keys kind (links log)) (hp : p key = true) :
    (((keys kind (links log)).filter p).map (listedLink log kind)).filter
        (·.id = number (keys kind (links log)) key) =
      [listedLink log kind key] := by
  have hpick : ((keys kind (links log)).filter p).filter
      (fun other => number (keys kind (links log)) other = number (keys kind (links log)) key) =
        [key] := by
    have heq : ∀ other ∈ (keys kind (links log)).filter p,
        decide (number (keys kind (links log)) other = number (keys kind (links log)) key) =
          (other == key) := by
      intro other ho
      simp only [number_inj (List.mem_filter.mp ho).1, beq_eq_decide]
    have hcount : ((keys kind (links log)).filter p).count key = 1 :=
      List.count_eq_one_of_mem (nodup_keys.filter _) (List.mem_filter.mpr ⟨hk, hp⟩)
    rw [List.filter_congr heq, List.filter_beq, hcount]
    rfl
  rw [List.filter_map]
  exact congrArg _ hpick

theorem keptShares_eq (l : Link Binary64) : Index.keptShares l =
    if l.kind.attributes = .roleAndShares then some (l.shares.getD .unknown) else none := by
  unfold Index.keptShares
  generalize l.kind.attributes = attributes
  cases attributes <;> rfl

theorem listedLink_of_proper (h : c.link? = some f) (hp : ¬ f.link.Improper) :
    listedLink (log ++ [c]) f.link.kind f.key =
      { storedLink (log ++ [c]) f with
        shares := (storedLink (log ++ [c]) f).shares.map .kept } := by
  have hshares : (if f.link.kind.attributes = .roleAndShares then
      some (lastShares f.link.kind f.key (links (log ++ [c]))).kept else none) =
        (Index.keptShares f.link).map .kept := by
    rw [lastShares_of_link? h, keptShares_eq]
    split <;> rfl
  rw [listedLink, key_role_of_proper hp, hshares]
  rfl

theorem answersLink_storedLink (h : c.link? = some f) (hp : ¬ f.link.Improper) :
    AnswersLink (index (log ++ [c])) f (storedLink (log ++ [c]) f) := by
  have hf : f ∈ links (log ++ [c]) := by
    rw [links_snoc h]
    exact List.mem_append_right _ (List.mem_singleton_self f)
  have hk : f.key ∈ keys f.link.kind (links (log ++ [c])) := mem_keys.mpr ⟨f, hf, rfl, rfl⟩
  obtain ⟨hs, ha, hb⟩ := known_of_link hf
  exact {
    kind := rfl
    a := find?_index_of_mem ha
    b := find?_index_of_mem hb
    role := rfl
    shares := keptShares_eq f.link
    source := sourceName_index hs
    listed := by
      intro direction
      have hend : ((storedLink (log ++ [c]) f).far direction.opposite).id =
          number (identifiers (log ++ [c])) (f.key.near direction) := by
        cases direction <;> rfl
      rw [hend, ← listedLink_of_proper h hp]
      change ((index (log ++ [c])).linksOf f.link.kind _ _).filter _ = _
      rw [linksOf_index]
      exact filter_listedLink hk (decide_eq_true rfl) }

theorem answer_of_link? (h : c.link? = some f) :
    answer (log ++ [c]) c = .link (storedLink (log ++ [c]) f) := by
  cases c <;> cases h <;> rfl

end Ledger

/-- After any calls the links of a known identifier are the distinct keys that successful calls gave
to links from it, in the order of their first call and with the shares of the last. What a call
that keeps a link answers is what is listed right after it, but for the sign of a zero share. -/
theorem links_refine_log (calls : List Call) :
    let x := Index.empty.after calls
    let links := links (Index.empty.accepted calls)
    (∀ kind direction i,
      match x.find? i with
      | some stored =>
        List.Forall₂ (ReportsLink x links kind) ((keys kind links).filter (·.near direction = i))
          (x.linksOf kind direction stored.id)
      | none => links.filter (fun f => f.link.a = i ∨ f.link.b = i) = []) ∧
    ∀ call : Call,
      match call.link?, call.perform.attempt x with
      | some f, (.ok answer, y) => ∃ l, answer = .link l ∧ AnswersLink y f l
      | _, _ => True := by
  intro x links
  have hx : x = index (Index.empty.accepted calls) := after_empty calls
  constructor
  · intro kind direction i
    rw [hx]
    by_cases hi : i ∈ identifiers (Index.empty.accepted calls)
    · rw [find?_index_of_mem hi]
      exact reportsLinks_index _ kind direction i
    · rw [find?_index, if_neg hi]
      apply List.filter_eq_nil_iff.mpr
      intro f hf he
      obtain ⟨-, ha, hb⟩ := known_of_link hf
      rcases of_decide_eq_true he with rfl | rfl
      · exact hi ha
      · exact hi hb
  · intro call
    cases hl : call.link? with
    | none => trivial
    | some f =>
      rw [hx]
      by_cases hc : call.Improper
      · obtain ⟨cause, he⟩ := attempt_of_improper _ hc
        rw [he]
        trivial
      · rw [attempt_of_proper hc]
        exact ⟨_, answer_of_link? hl, answersLink_storedLink hl (proper_of_link? hl hc)⟩

/-- The answer to a link repeats the sign of a zero share, and the list does not. -/
theorem signed_zero_share_is_listed_unsigned :
    let given : Shares Binary64 := ⟨some ⟨true, 0, by decide⟩, none, none⟩
    let l : Link Binary64 := ⟨.publisherWork, ⟨"isni", "1"⟩, ⟨"iswc", "2"⟩, none, some given⟩
    let kept := (Index.createLink l "labels").attempt .empty
    let listed := kept.2.linksOf .publisherWork .forward 1
    kept.1.toOption.map (·.shares) = some (some given) ∧
      listed.map (·.shares) = [some ⟨some .zero, none, none⟩] ∧
      ∀ l ∈ listed, kept.1.toOption ≠ some l := by
  decide +kernel

end MusicIndex
