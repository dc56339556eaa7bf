import Mathlib.Data.List.Find
import MusicIndex.Proofs.LedgerRead
import MusicIndex.Proofs.Transaction

namespace MusicIndex

namespace Table

variable {α : Type} {t : Table α} {test : α → Bool} {content : α}

theorem find?_insert_of_none (h : t.find? test = none) (hc : test content = true) :
    (t.insert content).find? test = some ⟨t.largestId + 1, content⟩ := by
  unfold find? at h ⊢
  rw [insert, List.find?_append, h, Option.none_or]
  exact List.find?_cons_of_pos hc

theorem find?_ensure (hc : test content = true) :
    ∃ c, (t.ensure test content).2.find? test = some ⟨(t.ensure test content).1, c⟩ := by
  unfold ensure
  cases h : t.find? test with
  | some row => exact ⟨row.content, h⟩
  | none => exact ⟨content, find?_insert_of_none h hc⟩

theorem get?_insert_isSome {id : Nat} (h : (t.get? id).isSome) :
    ((t.insert content).get? id).isSome := by
  unfold get? at h ⊢
  rw [Option.isSome_map] at h ⊢
  rw [insert, List.find?_append, Option.isSome_or, h, Bool.true_or]

theorem get?_ensure_isSome {id : Nat} (h : (t.get? id).isSome) :
    ((t.ensure test content).2.get? id).isSome := by
  unfold ensure
  cases t.find? test with
  | some row => exact h
  | none => exact get?_insert_isSome h

theorem get?_ensure_self_isSome :
    ((t.ensure test content).2.get? (t.ensure test content).1).isSome := by
  unfold ensure
  cases h : t.find? test with
  | some row =>
    unfold get?
    rw [Option.isSome_map, List.find?_isSome]
    exact ⟨row, List.mem_of_find?_eq_some h, beq_self_eq_true _⟩
  | none =>
    unfold get?
    rw [Option.isSome_map, List.find?_isSome]
    exact ⟨_, List.mem_append_right _ (List.mem_singleton_self _), beq_self_eq_true _⟩

end Table

namespace Transaction

variable {α β : Type}

section Running

variable {t other : Transaction α} {f : α → Transaction β} {fault : Option Nat} {s s' : Session}

theorem on_bind_ok {a : α} (h : t.on fault s = (.ok a, s')) :
    (t >>= f).on fault s = (f a).on fault s' := by
  have h : t fault s = (.ok a, s') := h
  simp only [on, bind, ReaderT.run, ReaderT.bind, ExceptT.run, ExceptT.bind, ExceptT.mk,
    StateT.run, StateT.bind, h]
  rfl

theorem on_bind_error {e : Failure} (h : t.on fault s = (.error e, s')) :
    (t >>= f).on fault s = (.error e, s') := by
  have h : t fault s = (.error e, s') := h
  simp only [on, bind, ReaderT.run, ReaderT.bind, ExceptT.run, ExceptT.bind, ExceptT.mk,
    StateT.run, StateT.bind, h]
  rfl

theorem on_onConflict (h : t.on fault s = (.error .conflict, s')) :
    (onConflict t other).on fault s = other.on fault s' := by
  have h : t fault s = (.error .conflict, s') := h
  simp only [on, onConflict, tryCatch, tryCatchThe, MonadExceptOf.tryCatch, ReaderT.run,
    ExceptT.run, ExceptT.tryCatch, ExceptT.mk, StateT.run, bind, StateT.bind, h]

theorem on_onConflict_of_ne {r : Except Failure α} (h : t.on fault s = (r, s'))
    (hr : r ≠ .error .conflict) : (onConflict t other).on fault s = (r, s') := by
  have h : t fault s = (r, s') := h
  simp only [on, onConflict, tryCatch, tryCatchThe, MonadExceptOf.tryCatch, ReaderT.run,
    ExceptT.run, ExceptT.tryCatch, ExceptT.mk, StateT.run, bind, StateT.bind, h]
  rcases r with e | a
  · cases e with
    | conflict => exact absurd rfl hr
    | _ => rfl
  · rfl

end Running

/-- Without faults a part answers and goes from one state of the tables to another. -/
def Yields (t : Transaction α) (x : Index) (a : α) (y : Index) : Prop :=
  ∀ committed n, ∃ m, t.on none ⟨committed, x, n⟩ = (.ok a, ⟨committed, y, m⟩)

def Fails (t : Transaction α) (x : Index) (e : Failure) : Prop :=
  ∀ committed n, ∃ y m, t.on none ⟨committed, x, n⟩ = (.error e, ⟨committed, y, m⟩)

def Ends (t : Transaction α) (x : Index) (r : Except Failure α) (y : Index) : Prop :=
  ∀ n, ∃ z m, t.on none ⟨x, x, n⟩ = (r, ⟨y, z, m⟩)

section Parts

variable {t other : Transaction α} {f : α → Transaction β} {x y z : Index} {a : α} {b : β}
  {e : Failure}

theorem Yields.pure (a : α) (x : Index) : Yields (Pure.pure a) x a x :=
  fun _ n => ⟨n, rfl⟩

theorem Yields.bind (ht : t.Yields x a y) (hf : (f a).Yields y b z) : (t >>= f).Yields x b z := by
  intro committed n
  obtain ⟨m, h⟩ := ht committed n
  obtain ⟨k, hk⟩ := hf committed m
  exact ⟨k, by rw [on_bind_ok h, hk]⟩

theorem Fails.bind (ht : t.Fails x e) : (t >>= f).Fails x e := by
  intro committed n
  obtain ⟨y, m, h⟩ := ht committed n
  exact ⟨y, m, on_bind_error h⟩

theorem demand_yields {check : Except Invalid Unit} (h : check = .ok ()) (x : Index) :
    (demand check).Yields x () x := by
  rw [h]
  exact Yields.pure () x

theorem demand_fails {check : Except Invalid Unit} {cause : Invalid} (h : check = .error cause)
    (x : Index) : (demand check).Fails x (.refused (.invalid cause)) := by
  rw [h]
  exact fun _ n => ⟨x, n, rfl⟩

theorem on_query_ok {act : Index → Except Failure (α × Index)} {s : Session}
    (h : act s.working = .ok (a, y)) :
    (query act).on none s =
      (.ok a, { s with working := y, statements := s.statements + 1 }) := by
  simp only [on, query, statement, ReaderT.run, ExceptT.run, StateT.run, h]
  rfl

theorem on_query_error {act : Index → Except Failure (α × Index)} {s : Session}
    (h : act s.working = .error e) :
    (query act).on none s = (.error e, { s with statements := s.statements + 1 }) := by
  simp only [on, query, statement, ReaderT.run, ExceptT.run, StateT.run, h]
  rfl

theorem query_yields {act : Index → Except Failure (α × Index)} (h : act x = .ok (a, y)) :
    (query act).Yields x a y :=
  fun _ n => ⟨n + 1, on_query_ok h⟩

theorem Yields.onConflict (ht : t.Yields x a y) : (onConflict t other).Yields x a y := by
  intro committed n
  obtain ⟨m, h⟩ := ht committed n
  exact ⟨m, on_onConflict_of_ne h nofun⟩

theorem Yields.after_conflict {act : Index → Except Failure (α × Index)}
    (h : act x = .error .conflict) (ho : other.Yields x a y) :
    (Transaction.onConflict (query act) other).Yields x a y := by
  intro committed n
  obtain ⟨m, hm⟩ := ho committed (n + 1)
  have hq : (query act).on none ⟨committed, x, n⟩ = (.error .conflict, ⟨committed, x, n + 1⟩) :=
    on_query_error h
  exact ⟨m, by rw [on_onConflict hq, hm]⟩

theorem whole_ends (h : t.Yields x a y) : (whole t).Ends x (.ok a) y := by
  intro n
  obtain ⟨m, hm⟩ := h x (n + 1)
  have hbegin : begin.on none ⟨x, x, n⟩ = (.ok (), ⟨x, x, n + 1⟩) := rfl
  refine ⟨y, m + 1, ?_⟩
  rw [whole, on_bind_ok hbegin, on_bind_ok hm]
  rfl

theorem whole_ends_of_fails (h : t.Fails x e) : (whole t).Ends x (.error e) x := by
  intro n
  obtain ⟨y, m, hm⟩ := h x (n + 1)
  have hbegin : begin.on none ⟨x, x, n⟩ = (.ok (), ⟨x, x, n + 1⟩) := rfl
  exact ⟨y, m, by rw [whole, on_bind_ok hbegin, on_bind_error hm]⟩

theorem Yields.bind_ends {r : Except Failure β} (ht : t.Yields x a x) (hf : (f a).Ends x r y) :
    (t >>= f).Ends x r y := by
  intro n
  obtain ⟨m, h⟩ := ht x n
  obtain ⟨z, k, hk⟩ := hf m
  exact ⟨z, k, by rw [on_bind_ok h, hk]⟩

theorem Fails.ends (h : t.Fails x e) : t.Ends x (.error e) x :=
  fun n => h x n

theorem Ends.return {r : Except Failure α} {g : α → β} (h : t.Ends x r y) :
    (do return g (← t) : Transaction β).Ends x (r.map g) y := by
  intro n
  obtain ⟨z, m, hm⟩ := h n
  refine ⟨z, m, ?_⟩
  cases r with
  | ok a => rw [on_bind_ok hm]; rfl
  | error e => rw [on_bind_error hm]; rfl

end Parts

section Rows

variable {place : Place α} {same : α → Bool} {references : Index → Bool} {row : α} {x : Index}

theorem select_yields {test : α → Bool} {found : Row α}
    (h : (place.get x).find? test = some found) :
    (select place test).Yields x found.id x := by
  apply query_yields
  simp only [h]

theorem insert_yields (h : (place.get x).find? same = none) (hr : references x = true) :
    (insert place same references row).Yields x ((place.get x).largestId + 1)
      (place.set x ((place.get x).insert row)) := by
  apply query_yields
  simp only [h, hr, if_true]

/-- Putting in a row, or looking for the one it conflicts with, ensures it. -/
theorem ensure_yields (hr : references x = true) :
    (onConflict (insert place same references row) (select place same)).Yields x
      ((place.get x).ensure same row).1 (place.set x ((place.get x).ensure same row).2) := by
  unfold Table.ensure
  cases h : (place.get x).find? same with
  | none => exact (insert_yields h hr).onConflict
  | some found =>
    rw [place.set_get]
    refine Yields.after_conflict ?_ (select_yields h)
    simp only [h]

theorem insertOrIgnore_yields (hr : references x = true) :
    (insertOrIgnore place same true references row).Yields x ()
      (place.set x ((place.get x).ensure same row).2) := by
  apply query_yields
  unfold Table.ensure
  cases (place.get x).find? same with
  | none => simp only [hr, if_true]
  | some found => simp only [place.set_get]

end Rows

section Calls

variable {x : Index} {i : Identifier} {name : String}

theorem resolveSource_yields (x : Index) (h : checkSource name = .ok ()) :
    (resolveSource name).Yields x (x.sources.ensure (· == name) name).1
      { x with sources := (x.sources.ensure (· == name) name).2 } :=
  (demand_yields h x).bind (ensure_yields rfl)

theorem scheme_and_value_of_check (h : i.check = .ok ()) :
    (i.scheme != "" && i.value != "") = true := by
  have hempty : Text.Blank "" := by decide
  obtain ⟨hs, hv⟩ := not_or.mp (Identifier.check_eq_ok_iff.mp h)
  simp only [Bool.and_eq_true, bne_iff_ne]
  exact ⟨fun e => hs (e ▸ hempty), fun e => hv (e ▸ hempty)⟩

theorem resolveIdentifier_yields (x : Index) (h : i.check = .ok ()) :
    (resolveIdentifier i).Yields x ⟨(x.identifiers.ensure (· == i) i).1, i⟩
      { x with identifiers := (x.identifiers.ensure (· == i) i).2 } := by
  obtain ⟨c, hc⟩ := @Table.find?_ensure _ x.identifiers (· == i) i (beq_self_eq_true i)
  refine (demand_yields h x).bind ?_
  rw [scheme_and_value_of_check h]
  exact (insertOrIgnore_yields rfl).bind ((select_yields hc).bind (Yields.pure _ _))

theorem storeRecord_yields {source : Nat} (r : Record) (h : knownSource source x = true) :
    (storeRecord r source).Yields x
      ((x.records r.kind).ensure (· == ⟨r.values, source⟩) ⟨r.values, source⟩).1
      (x.setRecords r.kind
        ((x.records r.kind).ensure (· == ⟨r.values, source⟩) ⟨r.values, source⟩).2) :=
  ensure_yields h

theorem storeAssignment_yields {a : Assignment} (hi : knownIdentifier a.identifier x = true)
    (hs : knownSource a.source x = true) :
    (storeAssignment a).Yields x ()
      { x with assignments := (x.assignments.ensure (· == a) a).2 } :=
  insertOrIgnore_yields (by rw [hi, hs]; rfl)

theorem find?_sameKey {kind : LinkKind} {claim : LinkClaim}
    (h : kind.attributes = .none → ∀ c ∈ (x.links kind).contents, c.role = claim.role) :
    (x.links kind).find? (sameKey kind claim) = (x.links kind).find? (Index.sameLink claim) := by
  have hsame : ∀ row ∈ (x.links kind).rows,
      sameKey kind claim row.content = Index.sameLink claim row.content := by
    intro row hrow
    unfold sameKey Index.sameLink
    by_cases hk : kind.attributes = .none
    · have hrole := h hk row.content (List.mem_map_of_mem hrow)
      simp [hk, hrole]
    · have hb : (kind.attributes == .none) = false := beq_eq_false_iff_ne.mpr hk
      rw [hb, Bool.false_or]
  exact List.find?_congr hsame

theorem storeLink_yields {kind : LinkKind} {claim : LinkClaim}
    (hrole : kind.attributes = .none → ∀ c ∈ (x.links kind).contents, c.role = claim.role)
    (ha : knownIdentifier claim.a x = true) (hb : knownIdentifier claim.b x = true)
    (hs : knownSource claim.source x = true) :
    (storeLink kind claim).Yields x
      ((x.links kind).putLink (kind.attributes = .roleAndShares) claim).1
      (x.setLinks kind ((x.links kind).putLink (kind.attributes = .roleAndShares) claim).2) := by
  have hfind := find?_sameKey hrole
  unfold storeLink Table.putLink
  cases h : (x.links kind).find? (Index.sameLink claim) with
  | none =>
    have hnone : ((Place.links kind).get x).find? (sameKey kind claim) = none := hfind.trans h
    exact (insert_yields hnone (by rw [ha, hb, hs]; rfl)).onConflict
  | some found =>
    have hsome : ((Place.links kind).get x).find? (sameKey kind claim) = some found :=
      hfind.trans h
    refine Yields.after_conflict (by simp only [hsome]) ((select_yields hsome).bind ?_)
    by_cases hk : kind.attributes = .roleAndShares
    · simp only [hk, decide_true, if_true]
      exact Yields.bind (query_yields rfl) (Yields.pure _ _)
    · simp only [hk, decide_false, if_false, Bool.false_eq_true, Index.setLinks_self]
      exact Yields.bind (Yields.pure _ _) (Yields.pure _ _)

theorem knownSource_of_ensure {t : Table String} {test : String → Bool}
    (h : x.sources = (t.ensure test name).2) : knownSource (t.ensure test name).1 x = true := by
  rw [knownSource, h]
  exact Table.get?_ensure_self_isSome

theorem knownIdentifier_of_ensure {t : Table Identifier} {test : Identifier → Bool}
    (h : x.identifiers = (t.ensure test i).2) : knownIdentifier (t.ensure test i).1 x = true := by
  rw [knownIdentifier, h]
  exact Table.get?_ensure_self_isSome

theorem createRecord_ends {r : Record} (hi : i.check = .ok ()) (hn : checkSource name = .ok ()) :
    (createRecord r i name).Ends x (.ok (x.withRecord r i name).1) (x.withRecord r i name).2 := by
  refine (demand_yields hi x).bind_ends (whole_ends ?_)
  refine (resolveSource_yields x hn).bind ?_
  refine (storeRecord_yields r (knownSource_of_ensure rfl)).bind ?_
  refine (resolveIdentifier_yields _ hi).bind ?_
  refine (storeAssignment_yields (knownIdentifier_of_ensure rfl)
    (knownSource_of_ensure rfl)).bind ?_
  exact Yields.pure _ _

theorem createLink_ends {l : Link Double} (hl : l.check = .ok ()) (hn : checkSource name = .ok ())
    (hrole : l.kind.attributes = .none → ∀ c ∈ (x.links l.kind).contents, c.role = l.keyRole) :
    (createLink l name).Ends x (.ok (x.withLink l.finite name).1) (x.withLink l.finite name).2 := by
  obtain ⟨ha, hb⟩ := Link.proper_ends (Link.check_eq_ok_iff.mp hl)
  have ha := Identifier.check_eq_ok_iff.mpr ha
  have hb := Identifier.check_eq_ok_iff.mpr hb
  refine (demand_yields hl x).bind_ends (whole_ends ?_)
  refine (resolveSource_yields x hn).bind ?_
  refine (resolveIdentifier_yields _ ha).bind ?_
  refine (resolveIdentifier_yields _ hb).bind ?_
  have hknown :
      knownIdentifier (x.identifiers.ensure (· == l.a) l.a).1 (x.withLink l.finite name).2 =
        true :=
    Table.get?_ensure_isSome Table.get?_ensure_self_isSome
  refine (storeLink_yields hrole hknown (knownIdentifier_of_ensure rfl)
    (knownSource_of_ensure rfl)).bind ?_
  exact Yields.pure _ _

theorem createRecord_ends_refused {r : Record} {cause : Invalid}
    (h : (do i.check; checkSource name) = .error cause) :
    (createRecord r i name).Ends x (.error (.refused (.invalid cause))) x := by
  rcases checks_eq_error h with hi | ⟨hi, hn⟩
  · exact (demand_fails hi x).bind.ends
  · exact (demand_yields hi x).bind_ends (whole_ends_of_fails (demand_fails hn x).bind.bind)

theorem createLink_ends_refused {l : Link Double} {cause : Invalid}
    (h : (do l.check; checkSource name) = .error cause) :
    (createLink l name).Ends x (.error (.refused (.invalid cause))) x := by
  rcases checks_eq_error h with hl | ⟨hl, hn⟩
  · exact (demand_fails hl x).bind.ends
  · exact (demand_yields hl x).bind_ends (whole_ends_of_fails (demand_fails hn x).bind.bind)

end Calls

end Transaction

namespace Call

variable {x : Index} {c : Call}

/-- A kind of link without attributes has no roles stored. -/
def RoleFree (x : Index) : Prop :=
  ∀ kind, kind.attributes = .none → ∀ c ∈ (x.links kind).contents, c.role = ""

theorem createLink_ends_of_roleFree (hx : RoleFree x) {l : Link Double} {name : String}
    (h : (do l.check; checkSource name) = .ok ()) :
    (Transaction.createLink l name).Ends x (.ok (x.withLink l.finite name).1)
      (x.withLink l.finite name).2 := by
  obtain ⟨hl, hn⟩ := checks_eq_ok_iff.mp h
  apply Transaction.createLink_ends hl hn
  intro hk c hc
  rw [hx l.kind hk c hc, Link.keyRole_of_proper (Link.check_eq_ok_iff.mp hl) hk]

theorem transaction_ends (hx : RoleFree x) (h : c.check = .ok ()) :
    c.transaction.Ends x (.ok (c.keep x).1) (c.keep x).2 := by
  cases c with
  | createRecord r i name =>
    obtain ⟨hi, hn⟩ := checks_eq_ok_iff.mp h
    exact (Transaction.createRecord_ends hi hn).return
  | createLink l name => exact (createLink_ends_of_roleFree hx h).return
  | createTypedLink l name => exact (createLink_ends_of_roleFree hx h).return
  | resolveSource name =>
    exact (Transaction.whole_ends (Transaction.resolveSource_yields x h)).return
  | resolveIdentifier i =>
    exact (Transaction.whole_ends (Transaction.resolveIdentifier_yields x h)).return

theorem transaction_ends_refused {cause : Invalid} (h : c.check = .error cause) :
    c.transaction.Ends x (.error (.refused (.invalid cause))) x := by
  cases c with
  | createRecord r i name => exact (Transaction.createRecord_ends_refused h).return
  | createLink l name => exact (Transaction.createLink_ends_refused h).return
  | createTypedLink l name => exact (Transaction.createLink_ends_refused h).return
  | resolveSource name =>
    exact (Transaction.whole_ends_of_fails (Transaction.demand_fails h x).bind).return
  | resolveIdentifier i =>
    exact (Transaction.whole_ends_of_fails (Transaction.demand_fails h x).bind).return

/-- Where the engine fails no statement, the transaction of a call does what the call does. -/
theorem carryOut_none (ho : x.IsOpen) (hx : RoleFree x) (c : Call) :
    c.carryOut none x =
      ((c.perform.attempt x).1.mapError .refused, (c.perform.attempt x).2) := by
  cases h : c.check with
  | error cause =>
    obtain ⟨y, m, hm⟩ := transaction_ends_refused (x := x) h 0
    rw [carryOut, hm, Write.attempt, run_of_check_error ho h]
    rfl
  | ok u =>
    obtain ⟨y, m, hm⟩ := transaction_ends hx h 0
    rw [carryOut, hm, Write.attempt, run_of_proper ho (check_eq_ok_iff.mp h)]
    rfl

end Call

namespace Ledger

theorem roleFree_index (log : List Call) : Call.RoleFree (index log) := by
  intro kind hk c hc
  obtain ⟨key, hkey, rfl⟩ := mem_links_index.mp hc
  exact role_of_mem_keys hkey hk

end Ledger

end MusicIndex
