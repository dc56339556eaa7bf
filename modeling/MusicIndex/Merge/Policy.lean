import MusicIndex.Json.Decoder
import MusicIndex.Text.Ascii

namespace MusicIndex

/-- The priorities of sources, by name in increasing order. -/
structure SourcePolicy where
  entries : List (String × Nat)
  sorted : entries.Pairwise (·.1 < ·.1)
deriving DecidableEq

namespace SourcePolicy

def empty : SourcePolicy := ⟨[], .nil⟩

instance : Inhabited SourcePolicy := ⟨empty⟩

def insertEntry (name : String) (priority : Nat) : List (String × Nat) → List (String × Nat)
  | [] => [(name, priority)]
  | (other, p) :: rest =>
    if name = other then (name, priority) :: rest
    else if name < other then (name, priority) :: (other, p) :: rest
    else (other, p) :: insertEntry name priority rest

theorem mem_insertEntry {name : String} {priority : Nat} {entries : List (String × Nat)}
    {e : String × Nat} (h : e ∈ insertEntry name priority entries) :
    e = (name, priority) ∨ e ∈ entries := by
  induction entries with
  | nil => exact .inl (List.mem_singleton.mp h)
  | cons entry rest ih =>
    rw [insertEntry] at h
    grind

theorem sorted_insertEntry (name : String) (priority : Nat) {entries : List (String × Nat)}
    (h : entries.Pairwise (·.1 < ·.1)) :
    (insertEntry name priority entries).Pairwise (·.1 < ·.1) := by
  induction entries with
  | nil => exact List.pairwise_singleton _ _
  | cons entry rest ih =>
    obtain ⟨hfirst, hrest⟩ := List.pairwise_cons.mp h
    rw [insertEntry]
    split
    · rename_i hname
      exact .cons (fun e he => hname ▸ hfirst e he) hrest
    · split
      · rename_i hlt
        refine .cons (fun e he => ?_) h
        rcases List.mem_cons.mp he with rfl | he
        · exact hlt
        · exact String.lt_trans hlt (hfirst e he)
      · rename_i hname hlt
        refine .cons (fun e he => ?_) (ih hrest)
        rcases mem_insertEntry he with rfl | he
        · exact Std.lt_of_le_of_ne (String.not_lt.mp hlt) (Ne.symm hname)
        · exact hfirst e he

def withPriority (policy : SourcePolicy) (name : String) (priority : Nat) : SourcePolicy :=
  ⟨insertEntry name priority policy.entries, sorted_insertEntry name priority policy.sorted⟩

def ofEntries (entries : List (String × Nat)) : SourcePolicy :=
  entries.foldl (fun policy (name, priority) => policy.withPriority name priority) empty

/-- A source that is not listed has the priority of the first listed name that differs from its own
by case alone, and otherwise the priority 0. -/
def priorityFor (policy : SourcePolicy) (source : String) : Nat :=
  match policy.entries.find? (·.1 == source) with
  | some (_, priority) => priority
  | none =>
    match policy.entries.find? (fun (name, _) => Text.sameAscii name source) with
    | some (_, priority) => priority
    | none => 0

structure Draft where
  entries : Option (List (String × Nat))

def shape : Json.Shape Draft where
  title := "struct SourcePolicy"
  blank := ⟨none⟩
  fields := [.of "source_priority" (.map .word32) (·.entries) (fun _ x => ⟨x⟩) true]
  isClosed := false

def decoder : Json.Decoder SourcePolicy := fun depth r => do
  let d ← shape.draft depth r
  return ofEntries (d.entries.getD [])

end SourcePolicy

end MusicIndex
