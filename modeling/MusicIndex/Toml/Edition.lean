namespace MusicIndex.Toml

structure Edition where
  /-- How deep arrays and inline tables may go, and how many parts a key may have. -/
  maxDepth : Nat
  hasShortEscapes : Bool
  hasShortTimes : Bool
  /-- An inline table may go over several lines, and a comma may follow its last pair. -/
  hasLongTables : Bool
  hasFloatsBelow : Bool
deriving DecidableEq

namespace Edition

/-- Edition 1.0: for policies, and for the text of a configuration on its own. -/
def v1_0 : Edition := ⟨79, false, false, false, true⟩

/-- Edition 1.1: for the configuration that a run finds around it. -/
def v1_1 : Edition := ⟨80, true, true, true, false⟩

end Edition

end MusicIndex.Toml
