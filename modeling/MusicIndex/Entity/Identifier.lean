namespace MusicIndex

/-- A value under a scheme, such as an ISRC or an ISWC. -/
structure Identifier where
  scheme : String
  value : String
deriving DecidableEq

namespace Identifier

def isrc (value : String) : Identifier := ⟨"isrc", value⟩

def iswc (value : String) : Identifier := ⟨"iswc", value⟩

def grid (value : String) : Identifier := ⟨"grid", value⟩

def upc (value : String) : Identifier := ⟨"upc", value⟩

def ean (value : String) : Identifier := ⟨"ean", value⟩

def dpid (value : String) : Identifier := ⟨"dpid", value⟩

def ipi (value : String) : Identifier := ⟨"ipi", value⟩

def isni (value : String) : Identifier := ⟨"isni", value⟩

def doid (value : String) : Identifier := ⟨"doid", value⟩

def mbid (value : String) : Identifier := ⟨"mbid", value⟩

def text (i : Identifier) : String :=
  i.scheme ++ ":" ++ i.value

def numberedText (i : Identifier) (id : Int) : String :=
  s!"{i.text} (#{id})"

end Identifier

/-- Numbers of rows. An index counts its own from one; stored data may carry any integer. -/
class RowNumber (ι : Type) where
  toInt : ι → Int
  toInt_inj {m n : ι} : toInt m = toInt n ↔ m = n

instance : RowNumber Nat := ⟨Int.ofNat, Int.ofNat_inj⟩

instance : RowNumber Int := ⟨id, Iff.rfl⟩

structure StoredIdentifier (ι : Type := Nat) where
  id : ι
  identifier : Identifier
deriving DecidableEq

def StoredIdentifier.text (i : StoredIdentifier) : String :=
  i.identifier.numberedText i.id

end MusicIndex
