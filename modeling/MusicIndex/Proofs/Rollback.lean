import MusicIndex.Proofs.FeedRun
import MusicIndex.Proofs.TransactionRun

namespace MusicIndex

namespace Transaction

variable {α β : Type}

/-- A fault after the last statement changes nothing; one before it ends the part, and nothing is
committed until then. -/
structure Stoppable (t : Transaction α) : Prop where
  mono : ∀ s, s.statements ≤ (t.on none s).2.statements
  spared : ∀ k s, (t.on none s).2.statements ≤ k → t.on (some k) s = t.on none s
  struck : ∀ k s, s.statements ≤ k → k < (t.on none s).2.statements →
    ∃ s', t.on (some k) s = (.error .engine, s') ∧ s'.committed = s.committed

structure Contained (t : Transaction α) : Prop extends Stoppable t where
  secluded : ∀ s, (t.on none s).2.committed = s.committed

variable {t other : Transaction α} {f : α → Transaction β}

section Steps

theorem on_statement_struck {act : Session → Except Failure (α × Session)} (s : Session) :
    (statement act).on (some s.statements) s =
      (.error .engine, { s with statements := s.statements + 1 }) := by
  simp only [on, statement, ReaderT.run, ExceptT.run, StateT.run, if_true]
  rfl

theorem on_statement_spared {act : Session → Except Failure (α × Session)} {k : Nat} {s : Session}
    (h : k ≠ s.statements) : (statement act).on (some k) s = (statement act).on none s := by
  have hk : some k ≠ some s.statements := fun e => h (Option.some.inj e)
  simp only [on, statement, ReaderT.run, ExceptT.run, StateT.run, if_neg hk, reduceCtorEq, if_false]

theorem statements_on_statement {act : Session → Except Failure (α × Session)} (s : Session) :
    ((statement act).on none s).2.statements = s.statements + 1 := by
  simp only [on, statement, ReaderT.run, ExceptT.run, StateT.run, reduceCtorEq, if_false]
  cases act s <;> rfl

theorem Stoppable.statement (act : Session → Except Failure (α × Session)) :
    Stoppable (statement act) where
  mono s := by
    rw [statements_on_statement]
    exact Nat.le_succ _
  spared k s h := by
    rw [statements_on_statement] at h
    exact on_statement_spared (by omega)
  struck k s hs hk := by
    rw [statements_on_statement] at hk
    obtain rfl : k = s.statements := by omega
    exact ⟨_, on_statement_struck s, rfl⟩

theorem Contained.pure (a : α) : Contained (Pure.pure a : Transaction α) where
  mono _ := le_refl _
  spared _ _ _ := rfl
  struck _ _ hs hk := absurd hk (not_lt.mpr hs)
  secluded _ := rfl

theorem Contained.throw (e : Failure) : Contained (throw e : Transaction α) where
  mono _ := le_refl _
  spared _ _ _ := rfl
  struck _ _ hs hk := absurd hk (not_lt.mpr hs)
  secluded _ := rfl

theorem Contained.demand (check : Except Invalid Unit) : Contained (demand check) := by
  cases check with
  | ok u => exact .pure ()
  | error cause => exact .throw _

theorem Contained.query (act : Index → Except Failure (α × Index)) : Contained (query act) where
  toStoppable := Stoppable.statement _
  secluded s := by
    cases h : act s.working with
    | ok r => rw [on_query_ok h]
    | error e => rw [on_query_error h]

theorem Contained.begin : Contained begin where
  toStoppable := Stoppable.statement _
  secluded _ := rfl

end Steps

section Sequences

/-- A part goes on with what another one results in. -/
structure Continues (t : Transaction α) (next : Except Failure α → Transaction β)
    (whole : Transaction β) : Prop where
  on_eq : ∀ {fault s r s'}, t.on fault s = (r, s') → whole.on fault s = (next r).on fault s'
  engine : ∀ fault s, (next (.error .engine)).on fault s = (.error .engine, s)

variable {next : Except Failure α → Transaction β} {u : Transaction β}

theorem Continues.stoppable (h : Continues t next u) (ht : Contained t)
    (hn : ∀ r, Stoppable (next r)) : Stoppable u where
  mono s := by
    have hm := ht.mono s
    rcases hr : t.on none s with ⟨r, s'⟩
    rw [hr] at hm
    rw [h.on_eq hr]
    exact hm.trans ((hn r).mono s')
  spared k s hk := by
    rcases hr : t.on none s with ⟨r, s'⟩
    rw [h.on_eq hr] at hk ⊢
    have hs' : s'.statements ≤ k := ((hn r).mono s').trans hk
    rw [h.on_eq ((ht.spared k s (by rw [hr]; exact hs')).trans hr)]
    exact (hn r).spared k s' hk
  struck k s hs hk := by
    rcases Nat.lt_or_ge k (t.on none s).2.statements with hlt | hge
    · obtain ⟨s', he, hc⟩ := ht.struck k s hs hlt
      exact ⟨s', by rw [h.on_eq he, h.engine], hc⟩
    · have hsame := ht.spared k s hge
      have hcommitted := ht.secluded s
      rcases hr : t.on none s with ⟨r, s'⟩
      rw [hr] at hge hcommitted hsame
      rw [h.on_eq hr] at hk
      obtain ⟨s'', he, hc⟩ := (hn r).struck k s' hge hk
      exact ⟨s'', by rw [h.on_eq hsame, he], hc.trans hcommitted⟩

theorem Continues.contained (h : Continues t next u) (ht : Contained t)
    (hn : ∀ r, Contained (next r)) : Contained u where
  toStoppable := h.stoppable ht fun r => (hn r).toStoppable
  secluded s := by
    have hc := ht.secluded s
    rcases hr : t.on none s with ⟨r, s'⟩
    rw [hr] at hc
    rw [h.on_eq hr]
    exact ((hn r).secluded s').trans hc

theorem continues_bind (t : Transaction α) (f : α → Transaction β) :
    Continues t (fun | .ok a => f a | .error e => throw e) (t >>= f) where
  on_eq {_ _ r _} h := by
    cases r with
    | ok a => exact on_bind_ok h
    | error e => exact on_bind_error h
  engine _ _ := rfl

/-- A fault is no conflict, so it is not taken for one. -/
theorem continues_onConflict (t other : Transaction α) :
    Continues t (fun | .ok a => pure a | .error .conflict => other | .error e => throw e)
      (onConflict t other) where
  on_eq {_ _ r _} h := by
    rcases r with e | a
    · cases e with
      | conflict => exact on_onConflict h
      | _ => exact on_onConflict_of_ne h nofun
    · exact on_onConflict_of_ne h nofun
  engine _ _ := rfl

theorem Stoppable.bind (ht : Contained t) (hf : ∀ a, Stoppable (f a)) : Stoppable (t >>= f) :=
  (continues_bind t f).stoppable ht fun
    | .ok a => hf a
    | .error e => (Contained.throw e).toStoppable

theorem Contained.bind (ht : Contained t) (hf : ∀ a, Contained (f a)) : Contained (t >>= f) :=
  (continues_bind t f).contained ht fun
    | .ok a => hf a
    | .error e => .throw e

theorem Contained.onConflict (ht : Contained t) (ho : Contained other) :
    Contained (onConflict t other) := by
  apply (continues_onConflict t other).contained ht
  rintro (e | a)
  · cases e with
    | conflict => exact ho
    | _ => exact .throw _
  · exact .pure a

theorem Stoppable.return (ht : Stoppable t) (g : α → β) :
    Stoppable (do return g (← t) : Transaction β) where
  mono s := by
    have hm := ht.mono s
    rcases hr : t.on none s with ⟨r, s'⟩
    rw [hr] at hm
    rw [(continues_bind t _).on_eq hr]
    cases r <;> exact hm
  spared k s hk := by
    rcases hr : t.on none s with ⟨r, s'⟩
    rw [(continues_bind t _).on_eq hr] at hk ⊢
    have hs' : s'.statements ≤ k := by cases r <;> exact hk
    rw [(continues_bind t _).on_eq ((ht.spared k s (by rw [hr]; exact hs')).trans hr)]
    cases r <;> rfl
  struck k s hs hk := by
    have hlt : k < (t.on none s).2.statements := by
      rcases hr : t.on none s with ⟨r, s'⟩
      rw [(continues_bind t _).on_eq hr] at hk
      cases r <;> exact hk
    obtain ⟨s', he, hc⟩ := ht.struck k s hs hlt
    exact ⟨s', on_bind_error he, hc⟩

theorem Contained.whole (ht : Contained t) : Stoppable (whole t) :=
  .bind .begin fun _ => .bind ht fun _ => Stoppable.return (Stoppable.statement _) _

end Sequences

section Calls

theorem Contained.resolveSource (name : String) : Contained (resolveSource name) :=
  .bind (.demand _) fun _ => .onConflict (.query _) (.query _)

theorem Contained.resolveIdentifier (i : Identifier) : Contained (resolveIdentifier i) :=
  .bind (.demand _) fun _ => .bind (.query _) fun _ => .bind (.query _) fun _ => .pure _

theorem Contained.storeRecord (r : Record) (source : Nat) : Contained (storeRecord r source) :=
  .onConflict (.query _) (.query _)

theorem Contained.storeAssignment (a : Assignment) : Contained (storeAssignment a) := by
  unfold Transaction.storeAssignment
  exact .query _

theorem Contained.storeLink (kind : LinkKind) (claim : LinkClaim) :
    Contained (storeLink kind claim) := by
  refine .onConflict (.query _) (.bind (.query _) fun id => ?_)
  split
  · exact .bind (.query _) fun _ => .pure _
  · exact .pure _

theorem stoppable_createRecord (r : Record) (i : Identifier) (name : String) :
    Stoppable (createRecord r i name) := by
  refine .bind (.demand _) fun _ => Contained.whole ?_
  refine .bind (.resolveSource name) fun source => .bind (.storeRecord r source) fun record => ?_
  exact .bind (.resolveIdentifier i) fun _ => .bind (.storeAssignment _) fun _ => .pure _

theorem stoppable_createLink (l : Link Double) (name : String) : Stoppable (createLink l name) := by
  refine .bind (.demand _) fun _ => Contained.whole ?_
  refine .bind (.resolveSource name) fun source => .bind (.resolveIdentifier l.a) fun a => ?_
  exact .bind (.resolveIdentifier l.b) fun b => .bind (.storeLink _ _) fun _ => .pure _

end Calls

end Transaction

namespace Call

open Transaction

theorem stoppable_transaction (c : Call) : Stoppable c.transaction := by
  cases c with
  | createRecord r i name => exact (stoppable_createRecord r i name).return _
  | createLink l name => exact (stoppable_createLink l name).return _
  | createTypedLink l name => exact (stoppable_createLink l.toLink name).return _
  | resolveSource name => exact (Contained.resolveSource name).whole.return _
  | resolveIdentifier i => exact (Contained.resolveIdentifier i).whole.return _

/-- Whichever statement of a call the engine fails, the call fails with it and leaves no trace. -/
theorem carryOut_some (c : Call) (k : Nat) (x : Index) :
    c.carryOut (some k) x =
      if k < c.statements x then (.error .engine, x) else c.carryOut none x := by
  have hc := stoppable_transaction c
  by_cases hk : k < c.statements x
  · obtain ⟨s, he, hs⟩ := hc.struck k ⟨x, x, 0⟩ (Nat.zero_le k) hk
    rw [if_pos hk, carryOut, he]
    exact congrArg _ hs
  · rw [if_neg hk, carryOut, hc.spared k ⟨x, x, 0⟩ (not_lt.mp hk)]
    rfl

end Call

/-- A call on an index that can be reached fails if and only if its arguments are improper. Then it
is refused for the data, and the index is as before. The same holds of its transaction; and where
the engine fails one of the statements, the call fails with it and the index is as before, too. -/
theorem call_fails_iff_improper {x : Index} (hx : x.Reachable) (c : Call) :
    ((∃ e, (c.perform.attempt x).1 = .error e) ↔ c.Improper) ∧
      (∀ e, (c.perform.attempt x).1 = .error e →
        (∃ cause, e = .invalid cause) ∧ (c.perform.attempt x).2 = x) ∧
      c.carryOut none x =
        ((c.perform.attempt x).1.mapError .refused, (c.perform.attempt x).2) ∧
      ∀ k, c.carryOut (some k) x =
        if k < c.statements x then (.error .engine, x) else c.carryOut none x := by
  obtain ⟨log, -, rfl⟩ := hx.exists_log
  refine ⟨?_, ?_, ?_, ?_⟩
  · by_cases h : c.Improper
    · obtain ⟨cause, hc⟩ := Ledger.attempt_of_improper log h
      rw [hc]
      exact ⟨fun _ => h, fun _ => ⟨_, rfl⟩⟩
    · rw [Ledger.attempt_of_proper h]
      exact ⟨fun ⟨_, he⟩ => (nomatch he), fun hc => absurd hc h⟩
  · intro e he
    by_cases h : c.Improper
    · obtain ⟨cause, hc⟩ := Ledger.attempt_of_improper log h
      rw [hc] at he ⊢
      cases he
      exact ⟨⟨cause, rfl⟩, rfl⟩
    · rw [Ledger.attempt_of_proper h] at he
      cases he
  · exact Call.carryOut_none (Ledger.isOpen_index log) (Ledger.roleFree_index log) c
  · exact fun k => c.carryOut_some k _

/-- A replay overwrites shares in eleven statements, of which the last one commits. A blank source
and a share that is no number are refused. -/
theorem replayed_link_rolls_back :
    let link (share : Double) : Link Double :=
      ⟨.publisherWork, ⟨"isni", "1"⟩, ⟨"iswc", "2"⟩, some "E", some ⟨some share, none, none⟩⟩
    let replay := Call.createLink (link (.finite .zero)) "labels"
    let x := Index.empty.after [replay]
    let blank := Call.createLink (link (.finite .zero)) " "
    let odd := Call.createLink (link .nan) "labels"
    x.Reachable ∧ replay.statements x = 11 ∧ replay.carryOut (some 10) x = (.error .engine, x) ∧
      (¬ ∃ e, (replay.perform.attempt x).1 = .error e) ∧
      (∃ e, (blank.perform.attempt x).1 = .error e) ∧
      ∃ e, (odd.perform.attempt x).1 = .error e := by
  intro link replay x blank odd
  have hx : x.Reachable := .call _ .empty
  have hcount : replay.statements x = 11 := by decide +kernel
  obtain ⟨hreplay, -, -, hfault⟩ := call_fails_iff_improper hx replay
  obtain ⟨hblank, -, -, -⟩ := call_fails_iff_improper hx blank
  obtain ⟨hodd, -, -, -⟩ := call_fails_iff_improper hx odd
  have hproper : ¬ replay.Improper := Call.check_eq_ok_iff.mp (by decide +kernel)
  have himproper : blank.Improper := .inr (by decide)
  have hnan : ¬ Shares.InRange ⟨some Double.nan, none, none⟩ :=
    fun hrange => hrange "performance" .nan (.head _)
  have hrefused : odd.Improper := .inl (.inr (.inr (.inr (.inr ⟨rfl, _, rfl, hnan⟩))))
  refine ⟨hx, hcount, ?_, mt hreplay.mp hproper, hblank.mpr himproper, hodd.mpr hrefused⟩
  rw [hfault 10, hcount]
  rfl

end MusicIndex
