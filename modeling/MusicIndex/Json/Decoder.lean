import MusicIndex.Json.Reading

namespace MusicIndex.Json

/-- Reads data, given how deep arrays and objects may still go. -/
abbrev Decoder (α : Type) := Nat → Reading → Except Fault α

namespace Decoder

def maxDepth : Nat := 128

def text {α : Type} (decoder : Decoder α) (s : String) : Except Fault α := do
  let (reading, rest) := Reading.ofText s.toList
  let a ← decoder maxDepth reading
  if (Reading.skipSpace rest).isEmpty then return a else throw .trailingCharacters

def string : Decoder String
  | _, .string s => .ok s
  | _, r => r.mismatch "a string"

def real : Decoder Binary64
  | _, .real x => .ok x
  | _, .integer n =>
    match Binary64.nearest (n < 0) n.natAbs 1 with
    | some x => .ok x
    | none => .error .numberTooLarge
  | _, r => r.mismatch "f64"

def natural (bound : Nat) (expected : String) : Decoder Nat
  | _, .integer n =>
    if 0 ≤ n ∧ n < bound then .ok n.toNat else .error (.wrongValue (.integer n) expected)
  | _, r => r.mismatch expected

def word32 : Decoder Nat :=
  natural (Nat.pow 2 32) "u32"

def count : Decoder Nat :=
  natural (Nat.pow 2 64) "usize"

def optional {α : Type} (decoder : Decoder α) : Decoder (Option α)
  | _, .null => .ok none
  | depth, r => some <$> decoder depth r

def variant {α : Type} (find : String → Option α) (names : List String) (s : String) :
    Except Fault α :=
  match find s with
  | some a => .ok a
  | none => .error (.unknownVariant s names)

/-- A name is told from the first character alone, so a value that begins like no name is none. -/
def choiceFault : Fault → Fault
  | .noWord | .endOfValue | .badNumber | .numberTooLarge => .noValue
  | fault => fault

/-- One of several names: a string, or an object whose one member has that name and holds `null`. -/
def choice {α : Type} (find : String → Option α) (names : List String) : Decoder α
  | _, .string s => variant find names s
  | _, .unreadable fault => .error (choiceFault fault)
  | _, .broken fault _ => .error (choiceFault fault)
  | _, .absent => .error .endOfValue
  | depth, .object members => do
    let _ ← Reading.enter depth
    match members with
    | [] => .error .noValue
    | (key, value) :: rest =>
      let a ← variant find names (← Reading.name key)
      match value with
      | .null =>
        match rest with
        | [] => .ok a
        | [(.broken .endOfObject _, _)] => .error .endOfObject
        | _ => .error .noValue
      | value => value.mismatch "unit"
  | _, _ => .error .noValue

def items {α : Type} (decoder : Decoder α) (depth : Nat) : List Reading → Except Fault (List α)
  | [] => .ok []
  | r :: rest => do
    let a ← decoder depth r
    let rest ← items decoder depth rest
    return a :: rest

def list {α : Type} (decoder : Decoder α) : Decoder (List α)
  | depth, .array rs => do
    let depth ← Reading.enter depth
    items decoder depth rs
  | _, r => r.mismatch "a sequence"

def members {α : Type} (decoder : Decoder α) (depth : Nat) :
    List (Reading × Reading) → Except Fault (List (String × α))
  | [] => .ok []
  | (key, r) :: rest => do
    let key ← Reading.name key
    let a ← decoder depth r
    let rest ← members decoder depth rest
    return (key, a) :: rest

def map {α : Type} (decoder : Decoder α) : Decoder (List (String × α))
  | depth, .object ms => do
    let depth ← Reading.enter depth
    members decoder depth ms
  | _, r => r.mismatch "a map"

end Decoder

structure FieldSpec (σ : Type) where
  name : String
  isGiven : σ → Bool
  read : Nat → Reading → σ → Except Fault σ
  /-- An array may end before this field. -/
  mayEnd : Bool

def FieldSpec.of {σ α : Type} (name : String) (decoder : Decoder α) (get : σ → Option α)
    (set : σ → Option α → σ) (mayEnd : Bool) : FieldSpec σ where
  name := name
  isGiven s := (get s).isSome
  read depth r s := do
    let a ← decoder depth r
    return set s (some a)
  mayEnd := mayEnd

def elements (count : Nat) : String :=
  s!"{count} element" ++ (if count = 1 then "" else "s")

/-- A structure of named fields, written as an object or as an array of the fields in order. While
it is read it is a draft, with a place for each field. -/
structure Shape (σ : Type) where
  title : String
  blank : σ
  fields : List (FieldSpec σ)
  /-- No member may have another name. -/
  isClosed : Bool
  /-- An array is read to its end before its length is judged. -/
  isCounted : Bool := false

namespace Shape

variable {σ : Type}

def member (shape : Shape σ) (depth : Nat) (s : σ) (name : String) (r : Reading) :
    Except Fault σ :=
  match shape.fields.find? (·.name == name) with
  | some field =>
    if field.isGiven s then .error (.duplicateField name) else field.read depth r s
  | none =>
    if shape.isClosed then .error (.unknownField name (shape.fields.map (·.name)))
    else do
      r.skip
      return s

def members (shape : Shape σ) (depth : Nat) (s : σ) :
    List (Reading × Reading) → Except Fault σ
  | [] => .ok s
  | (key, r) :: rest => do
    let name ← Reading.name key
    let s ← shape.member depth s name r
    members shape depth s rest

def expected (shape : Shape σ) : String :=
  s!"{shape.title} with {elements shape.fields.length}"

def atEnd (shape : Shape σ) : List Reading → Except Fault Unit
  | [] => .ok ()
  | rs =>
    if shape.isCounted then
      let count := shape.fields.length
      .error (.wrongLength (count + rs.length) (elements count ++ " in sequence"))
    else
      match rs with
      | .broken .trailingComma _ :: _ => .error .trailingComma
      | .broken .endOfList _ :: _ => .error .endOfList
      | _ => .error .trailingCharacters

def items (shape : Shape σ) (depth index : Nat) (s : σ) :
    List (FieldSpec σ) → List Reading → Except Fault σ
  | [], rs => do
    shape.atEnd rs
    return s
  | field :: fields, [] =>
    if field.mayEnd then items shape depth (index + 1) s fields []
    else .error (.wrongLength index shape.expected)
  | field :: fields, r :: rs => do
    let s ← field.read depth r s
    items shape depth (index + 1) s fields rs

def draft (shape : Shape σ) : Decoder σ
  | depth, .object ms => do
    let depth ← Reading.enter depth
    shape.members depth shape.blank ms
  | depth, .array rs => do
    let depth ← Reading.enter depth
    shape.items depth 0 shape.blank shape.fields rs
  | _, r => r.mismatch shape.title

end Shape

def required {α : Type} (name : String) : Option α → Except Fault α
  | some a => .ok a
  | none => .error (.missingField name)

end MusicIndex.Json
