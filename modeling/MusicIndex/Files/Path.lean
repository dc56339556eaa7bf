namespace MusicIndex.Path

def segments (path : String) : List String :=
  (path.toList.foldr (fun c pieces =>
    if c = '/' then [] :: pieces
    else
      match pieces with
      | [] => [[c]]
      | piece :: rest => (c :: piece) :: rest) [[]]).map String.ofList

def isAbsolute (path : String) : Bool :=
  path.toList.head? == some '/'

/-- A path below another one; an absolute path stands for itself. -/
def join (base path : String) : String :=
  if isAbsolute path then path
  else
    match base.toList.getLast? with
    | none => path
    | some '/' => base ++ path
    | some _ => base ++ "/" ++ path

def names (path : String) : List String :=
  (segments path).filter fun s => s != "" && s != "."

def fileName? (path : String) : Option String :=
  match (names path).getLast? with
  | some ".." => none
  | name => name

/-- The stem and the extension of a file's name; a dot in front begins no extension. -/
def splitName (name : String) : String × Option String :=
  let backwards := name.toList.reverse
  match backwards.dropWhile (· != '.') with
  | [] => (name, none)
  | [_] => (name, none)
  | _ :: stem =>
    (String.ofList stem.reverse, some (String.ofList (backwards.takeWhile (· != '.')).reverse))

def stem? (path : String) : Option String :=
  (fileName? path).map fun name => (splitName name).1

def extension? (path : String) : Option String :=
  (fileName? path).bind fun name => (splitName name).2

/-- Names from the root, after going through some more of them; those before come last first. -/
def descend : List String → List String → List String
  | before, [] => before.reverse
  | before, ".." :: rest => descend before.tail rest
  | before, name :: rest => descend (name :: before) rest

def fromRoot (directory : List String) (path : String) : List String :=
  descend (if isAbsolute path then [] else directory.reverse) (names path)

end MusicIndex.Path
