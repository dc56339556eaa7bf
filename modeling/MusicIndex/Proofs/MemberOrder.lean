import Mathlib.Data.List.Pairwise
import Mathlib.Data.List.Perm.Basic
import MusicIndex.Json.Decoder

namespace MusicIndex.Json

theorem toOption_bind {ε α β : Type} (x : Except ε α) (f : α → Except ε β) :
    (x >>= f).toOption = x.toOption.bind fun a => (f a).toOption := by
  cases x <;> rfl

theorem toOption_eq_some {ε α : Type} {x : Except ε α} {a : α} :
    x.toOption = some a ↔ x = .ok a := by
  cases x <;> simp [Except.toOption]

def isScalar : Json → Bool
  | .array _ | .object _ => false
  | _ => true

theorem skip_ofJson {v : Json} (h : v.isScalar = true) : (Reading.ofJson v).skip = .ok () := by
  cases v <;> first | rfl | cases h

namespace FieldSpec

variable {σ α β : Type}

def Fills (f : FieldSpec σ) : Prop :=
  ∀ depth r s t, f.read depth r s = .ok t → f.isGiven t = true

structure Apart (f g : FieldSpec σ) : Prop where
  given_left : ∀ depth r s t, g.read depth r s = .ok t → f.isGiven t = f.isGiven s
  given_right : ∀ depth r s t, f.read depth r s = .ok t → g.isGiven t = g.isGiven s
  swap : ∀ depth r r' s,
    ((f.read depth r s).toOption.bind fun t => (g.read depth r' t).toOption) =
      (g.read depth r' s).toOption.bind fun t => (f.read depth r t).toOption

instance : Std.Symm (@Apart σ) :=
  ⟨fun _ _ h => ⟨h.given_right, h.given_left, fun depth r r' s => (h.swap depth r' r s).symm⟩⟩

variable {name name' : String} {decoder : Decoder α} {decoder' : Decoder β}
  {get : σ → Option α} {set : σ → Option α → σ} {get' : σ → Option β} {set' : σ → Option β → σ}
  {mayEnd mayEnd' : Bool}

theorem read_of {depth : Nat} {r : Reading} {s : σ} :
    (FieldSpec.of name decoder get set mayEnd).read depth r s =
      (decoder depth r).map fun a => set s (some a) := by
  change (decoder depth r >>= fun a => pure (set s (some a))) = _
  cases decoder depth r <;> rfl

theorem fills_of (h : ∀ s x, get (set s x) = x) :
    (FieldSpec.of name decoder get set mayEnd).Fills := by
  intro depth r s t hread
  rw [read_of] at hread
  cases hdecoded : decoder depth r with
  | error fault => rw [hdecoded] at hread; cases hread
  | ok a =>
    rw [hdecoded] at hread
    cases hread
    exact congrArg Option.isSome (h s (some a))

theorem apart_of (hget : ∀ s y, get (set' s y) = get s) (hget' : ∀ s x, get' (set s x) = get' s)
    (hset : ∀ s x y, set' (set s x) y = set (set' s y) x) :
    Apart (.of name decoder get set mayEnd) (.of name' decoder' get' set' mayEnd') := by
  refine ⟨fun depth r s t hread => ?_, fun depth r s t hread => ?_, fun depth r r' s => ?_⟩
  · rw [read_of] at hread
    cases hdecoded : decoder' depth r <;> rw [hdecoded] at hread <;> cases hread
    exact congrArg Option.isSome (hget s _)
  · rw [read_of] at hread
    cases hdecoded : decoder depth r <;> rw [hdecoded] at hread <;> cases hread
    exact congrArg Option.isSome (hget' s _)
  · simp only [read_of]
    cases decoder depth r <;> cases decoder' depth r' <;> simp [Except.toOption, Except.map, hset]

end FieldSpec

namespace Shape

variable {σ : Type} {shape : Shape σ} {depth : Nat} {s t : σ} {ms ms' : List (String × Json)}

/-- Each field has a place of its own. -/
structure Lawful (shape : Shape σ) : Prop where
  fills : ∀ f ∈ shape.fields, f.Fills
  apart : shape.fields.Pairwise FieldSpec.Apart

theorem find?_eq_none {name : String} (h : name ∉ shape.fields.map (·.name)) :
    shape.fields.find? (·.name == name) = none := by
  rw [List.find?_eq_none]
  intro f hf heq
  exact h (beq_iff_eq.mp heq ▸ List.mem_map_of_mem hf)

def step (shape : Shape σ) (depth : Nat) (s : Option σ) (m : String × Json) : Option σ :=
  s.bind fun s => (shape.member depth s m.1 (.ofJson m.2)).toOption

theorem step_none (m : String × Json) : shape.step depth none m = none := rfl

theorem foldl_step_none (ms : List (String × Json)) : ms.foldl (shape.step depth) none = none := by
  induction ms with
  | nil => rfl
  | cons m ms ih => exact ih

theorem toOption_members (s : σ) (ms : List (String × Json)) :
    (shape.members depth s (Reading.ofJsonMembers ms)).toOption =
      ms.foldl (shape.step depth) (some s) := by
  induction ms generalizing s with
  | nil => rfl
  | cons m ms ih =>
    obtain ⟨name, v⟩ := m
    change (shape.member depth s name (.ofJson v) >>= fun t =>
      shape.members depth t (Reading.ofJsonMembers ms)).toOption = _
    rw [toOption_bind, List.foldl_cons]
    cases hstep : shape.step depth (some s) (name, v) with
    | none =>
      rw [foldl_step_none, show (shape.member depth s name (.ofJson v)).toOption = none from hstep]
      rfl
    | some t =>
      rw [← ih, show (shape.member depth s name (.ofJson v)).toOption = some t from hstep]
      rfl

theorem step_unknown {m : String × Json}
    (hfind : shape.fields.find? (·.name == m.1) = none) (depth : Nat) :
    (∀ s, shape.step depth s m = s) ∨ ∀ s, shape.step depth s m = none := by
  cases hclosed : shape.isClosed with
  | true => exact .inr fun s => by cases s <;> simp [step, member, hfind, hclosed, Except.toOption]
  | false =>
    cases hskip : (Reading.ofJson m.2).skip with
    | error fault =>
      refine .inr fun s => ?_
      cases s <;> simp [step, member, hfind, hclosed, hskip, Except.toOption]
    | ok u =>
      refine .inl fun s => ?_
      cases s <;> simp [step, member, hfind, hclosed, hskip, Except.toOption, bind, pure,
        Except.bind, Except.pure]

theorem step_known {m : String × Json} {f : FieldSpec σ}
    (hfind : shape.fields.find? (·.name == m.1) = some f) (depth : Nat) (s : Option σ) :
    shape.step depth s m =
      s.bind fun s => if f.isGiven s then none else (f.read depth (.ofJson m.2) s).toOption := by
  cases s with
  | none => rfl
  | some s =>
    simp only [step, Option.bind_some, member, hfind]
    split <;> rfl

theorem read_twice {f : FieldSpec σ} (h : f.Fills) (r r' : Reading) :
    ((if f.isGiven s then none else (f.read depth r s).toOption).bind fun t =>
      if f.isGiven t then none else (f.read depth r' t).toOption) = none := by
  split
  · rfl
  · cases hread : f.read depth r s with
    | error fault => rfl
    | ok t => simp [Except.toOption, h depth r s t hread]

theorem read_apart {f g : FieldSpec σ} (h : f.Apart g) (r r' : Reading) :
    ((if f.isGiven s then none else (f.read depth r s).toOption).bind fun t =>
        if g.isGiven t then none else (g.read depth r' t).toOption) =
      (if g.isGiven s then none else (g.read depth r' s).toOption).bind fun t =>
        if f.isGiven t then none else (f.read depth r t).toOption := by
  have hleft : ((f.read depth r s).toOption.bind fun t =>
      if g.isGiven t then none else (g.read depth r' t).toOption) =
        if g.isGiven s then none
        else (f.read depth r s).toOption.bind fun t => (g.read depth r' t).toOption := by
    cases hread : f.read depth r s with
    | error fault => simp [Except.toOption]
    | ok t => simp [Except.toOption, h.given_right depth r s t hread]
  have hright : ((g.read depth r' s).toOption.bind fun t =>
      if f.isGiven t then none else (f.read depth r t).toOption) =
        if f.isGiven s then none
        else (g.read depth r' s).toOption.bind fun t => (f.read depth r t).toOption := by
    cases hread : g.read depth r' s with
    | error fault => simp [Except.toOption]
    | ok t => simp [Except.toOption, h.given_left depth r' s t hread]
  cases hf : f.isGiven s <;> cases hg : g.isGiven s <;>
    simp [hleft, hright, hf, hg, h.swap depth r r' s]

theorem step_comm (h : shape.Lawful) (s : Option σ) (m m' : String × Json) :
    shape.step depth (shape.step depth s m) m' = shape.step depth (shape.step depth s m') m := by
  cases hf : shape.fields.find? (·.name == m.1) with
  | none => rcases step_unknown hf depth with hm | hm <;> simp [hm, step_none]
  | some f =>
    cases hf' : shape.fields.find? (·.name == m'.1) with
    | none => rcases step_unknown hf' depth with hm | hm <;> simp [hm, step_none]
    | some f' =>
      cases s with
      | none => rfl
      | some s =>
        simp only [step_known hf, step_known hf', Option.bind_some]
        have hmem := List.mem_of_find?_eq_some hf
        by_cases hne : f = f'
        · rw [← hne, read_twice (h.fills f hmem), read_twice (h.fills f hmem)]
        · exact read_apart (h.apart.forall hmem (List.mem_of_find?_eq_some hf') hne) _ _

/-- The order of the members does not matter. -/
theorem members_perm (h : shape.Lawful) (hperm : ms.Perm ms')
    (hread : shape.members depth s (Reading.ofJsonMembers ms) = .ok t) :
    shape.members depth s (Reading.ofJsonMembers ms') = .ok t := by
  rw [← toOption_eq_some, toOption_members] at hread ⊢
  rwa [← hperm.foldl_eq' fun m _ m' _ s => step_comm h s m m']

theorem members_append (s : σ) (ms ms' : List (String × Json)) :
    shape.members depth s (Reading.ofJsonMembers (ms ++ ms')) =
      shape.members depth s (Reading.ofJsonMembers ms) >>= fun t =>
        shape.members depth t (Reading.ofJsonMembers ms') := by
  induction ms generalizing s with
  | nil => rfl
  | cons m ms ih =>
    obtain ⟨name, v⟩ := m
    change (shape.member depth s name (.ofJson v) >>= fun t => shape.members depth t _) =
      (shape.member depth s name (.ofJson v) >>= fun t => shape.members depth t _) >>= _
    rw [bind_assoc]
    exact congrArg _ (funext ih)

theorem members_extra (hopen : shape.isClosed = false)
    (h : ∀ m ∈ ms, m.1 ∉ shape.fields.map (·.name) ∧ m.2.isScalar = true) (s : σ) :
    shape.members depth s (Reading.ofJsonMembers ms) = .ok s := by
  induction ms with
  | nil => rfl
  | cons m ms ih =>
    obtain ⟨⟨hname, hscalar⟩, hrest⟩ := List.forall_mem_cons.mp h
    obtain ⟨name, v⟩ := m
    have hfind := find?_eq_none hname
    have hmember : shape.member depth s name (.ofJson v) = .ok s := by
      simp [member, hfind, hopen, skip_ofJson hscalar, bind, Except.bind, pure, Except.pure]
    change (shape.member depth s name (.ofJson v) >>= fun t => shape.members depth t _) = _
    rw [hmember]
    exact ih hrest

theorem members_refused (hclosed : shape.isClosed = true) {name : String} {v : Json}
    (hname : name ∉ shape.fields.map (·.name))
    (hread : shape.members depth s (Reading.ofJsonMembers (ms ++ ms')) = .ok t) :
    shape.members depth s (Reading.ofJsonMembers (ms ++ (name, v) :: ms')) =
      .error (.unknownField name (shape.fields.map (·.name))) := by
  have hfind := find?_eq_none hname
  rw [members_append] at hread ⊢
  cases hbefore : shape.members depth s (Reading.ofJsonMembers ms) with
  | error fault => rw [hbefore] at hread; cases hread
  | ok u =>
    change (shape.member depth u name (.ofJson v) >>= fun t => shape.members depth t _) = _
    simp [member, hfind, hclosed, bind, Except.bind]

end Shape

end MusicIndex.Json
