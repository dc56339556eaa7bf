import MusicIndex.Error
import MusicIndex.Text.Blank

namespace MusicIndex

def checkSource (name : String) : Except Invalid Unit :=
  if Text.allBlank name then .error .blankSource else .ok ()

def Identifier.check (i : Identifier) : Except Invalid Unit :=
  if Text.allBlank i.scheme then .error (.blankScheme i.value)
  else if Text.allBlank i.value then .error (.blankValue i.scheme)
  else .ok ()

def checkShare : String × Option Double → Except Invalid Unit
  | (_, none) => .ok ()
  | (name, some value) =>
    if value.inRange 100 then .ok () else .error (.shareOutOfRange name value)

def Shares.check (s : Shares Double) : Except Invalid Unit := do
  checkShare ("performance", s.performance)
  checkShare ("mechanical", s.mechanical)
  checkShare ("synchronization", s.synchronization)

def Link.checkRole (l : Link Double) : Except Invalid Unit :=
  match l.kind.attributes, l.role with
  | .none, some _ => .error (.misplacedRole l.kind)
  | _, _ => .ok ()

/-- Shares stand only where the kind carries them, and are in range there. -/
def Link.checkShares (l : Link Double) : Except Invalid Unit :=
  match l.kind.attributes, l.shares with
  | .roleAndShares, some shares => shares.check
  | _, some _ => .error (.misplacedShares l.kind)
  | _, none => .ok ()

def Link.check (l : Link Double) : Except Invalid Unit := do
  l.a.check
  l.b.check
  l.checkRole
  l.checkShares

end MusicIndex
