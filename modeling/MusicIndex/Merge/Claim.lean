import MusicIndex.Merge.Policy

namespace MusicIndex

structure Claim where
  value : String
  source : String
  record : Int
deriving DecidableEq

structure ScoredClaim where
  value : String
  source : String
  score : Nat
deriving DecidableEq

/-- The current value of a field, and every claim about it. -/
structure MergedValue where
  value : String
  sources : List ScoredClaim
deriving DecidableEq

namespace Claim

def insertByRecord (c : Claim) : List Claim → List Claim
  | [] => [c]
  | d :: rest => if c.record ≤ d.record then c :: d :: rest else d :: insertByRecord c rest

def byRecord (claims : List Claim) : List Claim :=
  claims.foldr insertByRecord []

/-- A claim outranks another by the priority of its source, or if those are equal by its record. -/
def outranks (policy : SourcePolicy) (c d : Claim) : Bool :=
  let p := policy.priorityFor c.source
  let q := policy.priorityFor d.source
  q < p || (q == p && d.record < c.record)

/-- The last claim that no other one outranks. -/
def current (policy : SourcePolicy) : List Claim → Option Claim
  | [] => none
  | c :: rest =>
    match current policy rest with
    | none => some c
    | some d => if outranks policy c d then some c else some d

def scored (policy : SourcePolicy) (c : Claim) : ScoredClaim :=
  ⟨c.value, c.source, policy.priorityFor c.source⟩

end Claim

namespace MergedValue

def merge (policy : SourcePolicy) (claims : List Claim) : Option MergedValue :=
  let claims := Claim.byRecord claims
  (Claim.current policy claims).map fun c => ⟨c.value, claims.map (Claim.scored policy)⟩

def isUnanimous (v : MergedValue) : Bool :=
  v.sources.all fun c => c.value == v.value

end MergedValue

end MusicIndex
