import MusicIndex.Proofs.Growth

namespace MusicIndex

open Ledger

def LinkKind.mayAdd (kind : LinkKind) : TableName → Nat
  | .source => 1
  | .identifier => 2
  | .assignment => 0
  | .record _ => 0
  | .link k => if k = kind then 1 else 0

/-- How many rows a call may add to a table. -/
def Call.mayAdd : Call → TableName → Nat
  | .createRecord r _ _, table =>
    match table with
    | .source | .identifier | .assignment => 1
    | .record kind => if kind = r.kind then 1 else 0
    | .link _ => 0
  | .createLink l _, table => l.kind.mayAdd table
  | .createTypedLink l _, table => l.toLink.kind.mayAdd table
  | .resolveSource _, table => if table = .source then 1 else 0
  | .resolveIdentifier _, table => if table = .identifier then 1 else 0

/-- The numbers in the answer to a call stand for what the call was about. -/
def Answer.Denotes (x : Index) (c : Call) : Answer → Prop
  | .identifier i => i.identifier ∈ c.identifiers ∧ x.identifiers.get? i.id = some i.identifier
  | .source id => ∃ name, c.source? = some name ∧ x.sources.get? id = some name
  | .link l => ∃ f, c.link? = some f ∧ l.kind = f.link.kind ∧
      x.linkKeyAt? f.link.kind l.id = some f.key ∧
      x.identifiers.get? l.a.id = some f.link.a ∧ x.identifiers.get? l.b.id = some f.link.b ∧
      x.sources.get? l.source = some f.source

/-- What becomes of an index by calls and by feeds. -/
inductive Index.Leads (x : Index) : Index → Prop where
  | refl : x.Leads x
  | call {y : Index} (call : Call) : x.Leads y → x.Leads (call.perform.attempt y).2
  | feed [Json.Places] {y : Index} (mode : IngestMode) (bytes : List UInt8) :
    x.Leads y → x.Leads (Index.ingest mode bytes y).2
  | path [Json.Places] {y : Index} (files : Workspace) (options : IngestOptions) (path : String) :
    x.Leads y → x.Leads (Index.ingestPath files options path y).2

namespace Ledger

variable {log : List Call} {c : Call}

theorem length_removeAll_le {α : Type} [DecidableEq α] (l m : List α) :
    (l.removeAll m).length ≤ l.length :=
  List.length_filter_le _ l

theorem length_map_filter_singleton {α β κ : Type} [DecidableEq κ] (f : α → β) (kindOf : α → κ)
    (kind : κ) (a : α) :
    (([a].filter (kindOf · = kind)).map f).length = if kind = kindOf a then 1 else 0 := by
  by_cases h : kindOf a = kind
  · simp [h]
  · simp [h, Ne.symm h]

theorem newRows_le_mayAdd (log : List Call) (c : Call) (table : TableName) :
    newRows log [c] table ≤ c.mayAdd table := by
  -- at most all that the call speaks of is new
  cases table with
  | source =>
    refine (length_removeAll_le _ _).trans ?_
    cases c <;> exact Nat.le_of_eq rfl
  | identifier =>
    refine (length_removeAll_le _ _).trans ?_
    cases c <;> exact Nat.le_of_eq rfl
  | assignment =>
    refine (length_removeAll_le _ _).trans ?_
    cases c <;> exact Nat.le_of_eq rfl
  | record kind =>
    refine (length_removeAll_le _ _).trans ?_
    cases c with
    | createRecord r i name =>
      exact (length_map_filter_singleton RecordFact.claim (·.record.kind) kind ⟨r, i, name⟩).le
    | _ => exact Nat.zero_le _
  | link kind =>
    refine (length_removeAll_le _ _).trans ?_
    cases c with
    | createLink l name =>
      exact (length_map_filter_singleton LinkFact.key (·.link.kind) kind ⟨l.finite, name⟩).le
    | createTypedLink l name =>
      exact (length_map_filter_singleton LinkFact.key (·.link.kind) kind
        ⟨l.toLink.finite, name⟩).le
    | _ => exact Nat.zero_le _

theorem links_singleton (c : Call) : links [c] = c.link?.toList := by
  cases c <;> rfl

theorem grows_snoc (log : List Call) (c : Call) :
    (index log).Grows c.mayAdd c.link?.toList (index (log ++ [c])) := by
  rw [← links_singleton]
  exact (grows_append log [c]).mono (newRows_le_mayAdd log c)

end Ledger

namespace Index

variable {x y z : Index}

theorem keeps_call (hx : x.Reachable) (c : Call) : x.Keeps (c.perform.attempt x).2 := by
  obtain ⟨log, -, rfl⟩ := hx.exists_log
  by_cases h : c.Improper
  · obtain ⟨cause, hc⟩ := attempt_of_improper log h
    rw [hc]
    exact .refl _
  · rw [attempt_of_proper h]
    exact (grows_snoc log c).keeps

theorem keeps_after (hx : x.Reachable) (calls : List Call) : x.Keeps (x.after calls) := by
  induction calls generalizing x with
  | nil => exact .refl x
  | cons c rest ih => exact (keeps_call hx c).trans (ih (.call c hx))

theorem Leads.reachable (h : x.Leads y) (hx : x.Reachable) : y.Reachable := by
  induction h with
  | refl => exact hx
  | call c _ ih => exact .call c ih
  | feed mode bytes _ ih => exact .feed mode bytes ih
  | path files options path _ ih => exact .path files options path ih

theorem Leads.keeps (h : x.Leads y) (hx : x.Reachable) : x.Keeps y := by
  induction h with
  | refl => exact .refl x
  | call c hy ih => exact ih.trans (keeps_call (hy.reachable hx) c)
  | @feed _ y mode bytes hy ih =>
    obtain ⟨calls, he⟩ := ingest_index mode bytes y
    rw [he]
    exact ih.trans (keeps_after (hy.reachable hx) calls)
  | @path _ y files options path hy ih =>
    obtain ⟨calls, he⟩ := ingestPath_index files options path y
    rw [he]
    exact ih.trans (keeps_after (hy.reachable hx) calls)

end Index

theorem Answer.Denotes.keeps {x y : Index} {c : Call} {answer : Answer}
    (h : answer.Denotes x c) (hk : x.Keeps y) : answer.Denotes y c := by
  cases answer with
  | identifier i => exact ⟨h.1, hk.identifier h.2⟩
  | source id =>
    obtain ⟨name, hname, hs⟩ := h
    exact ⟨name, hname, hk.source hs⟩
  | link l =>
    obtain ⟨f, hf, hkind, hkey, ha, hb, hs⟩ := h
    exact ⟨f, hf, hkind, hk.link hkey, hk.identifier ha, hk.identifier hb, hk.source hs⟩

end MusicIndex
