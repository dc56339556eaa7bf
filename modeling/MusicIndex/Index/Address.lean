import MusicIndex.Text.Ascii
import MusicIndex.Text.Hexadecimal
import MusicIndex.Text.Utf8

namespace MusicIndex

/-- What a database may be opened for: reading, writing too, making its file if there is none, or
living in memory. -/
inductive Access where
  | read
  | write
  | create
  | memory
deriving DecidableEq

namespace Access

def ofName? : String → Option Access
  | "ro" => some .read
  | "rw" => some .write
  | "rwc" => some .create
  | "memory" => some .memory
  | _ => none

def mayBecome : Access → Access → Bool
  | _, .memory => true
  | .memory, _ => true
  | .create, _ => true
  | .write, b => b == .read || b == .write
  | .read, b => b == .read

end Access

structure Address where
  path : String
  access : Access
  isTransient : Bool
  /-- A log of changes can be kept beside the file. -/
  hasLog : Bool
  /-- The file is taken as one that nobody changes. -/
  isFrozen : Bool
deriving DecidableEq

namespace Address

def isReadOnly (a : Address) : Bool :=
  a.access == .read || a.isFrozen

def isTransientPath (path : String) : Bool :=
  path == "" || path == ":memory:"

def ofPath (path : String) : Address :=
  ⟨path, .create, isTransientPath path, true, false⟩

/-- The bytes of a part of an address. A byte zero ends the part. -/
def unescape : List Char → List UInt8
  | [] => []
  | '%' :: a :: b :: rest =>
    match Text.hexValue? a, Text.hexValue? b with
    | some high, some low =>
      if high = 0 ∧ low = 0 then [] else UInt8.ofNat (high * 16 + low) :: unescape rest
    | _, _ => Text.Utf8.encode "%" ++ unescape (a :: b :: rest)
  | c :: rest => Text.Utf8.encode (String.ofList [c]) ++ unescape rest

def spelled? (s : List Char) : Option String :=
  match Text.Utf8.decode (unescape s) with
  | .ok cs => some (String.ofList cs)
  | .error _ => none

def afterAuthority? : List Char → Option (List Char)
  | '/' :: '/' :: s =>
    let authority := String.ofList (s.takeWhile (· != '/'))
    if authority = "" ∨ authority = "localhost" then some (s.dropWhile (· != '/')) else none
  | s => some s

def optionOf (s : List Char) : String × String :=
  ((spelled? (s.takeWhile (· != '='))).getD "",
    (spelled? ((s.dropWhile (· != '=')).drop 1)).getD "")

def optionsOf (s : List Char) : List (String × String) :=
  ((String.ofList s).splitOn "&").map (fun piece => optionOf piece.toList)
    |>.filter (·.1 != "")

def valuesOf (name : String) (options : List (String × String)) : List String :=
  (options.filter (·.1 == name)).map (·.2)

/-- True of a value that switches an option on: a word that says so, or a number whose last byte is
not zero. -/
def isOn (value : String) : Bool :=
  match value.toList.takeWhile Char.isDigit with
  | [] => ["on", "yes", "true"].any (Text.sameAscii value)
  | digits =>
    let n := digits.foldl (fun n c => n * 10 + (c.toNat - 48)) 0
    n < Nat.pow 2 31 && n % 256 != 0

def hasOption (name : String) (options : List (String × String)) : Bool :=
  (options.lookup name).any isOn

def accessOf? (options : List (String × String)) : Option Access :=
  (valuesOf "mode" options).foldlM (fun access name => do
    let next ← Access.ofName? name
    if access.mayBecome next then some next else none) .create

/-- The ways to keep a file, by name, and whether a log can be kept beside it. -/
def keepers : List (String × Bool) :=
  [("unix", true), ("unix-excl", true), ("unix-none", false), ("unix-dotfile", false),
    ("memdb", false)]

def ofOptions? (path : String) (options : List (String × String)) : Option Address := do
  let access ← accessOf? options
  if !(valuesOf "cache" options).all fun v => v == "shared" || v == "private" then none
  let keeper := (valuesOf "vfs" options).getLast?.getD "unix"
  let hasLog ← keepers.lookup keeper
  let inMemory := isTransientPath path || access == .memory
  return {
    path, access
    isTransient := inMemory || keeper == "memdb"
    hasLog := hasLog && !hasOption "nolock" options
    isFrozen := hasOption "immutable" options && !inMemory }

def ofText? (text : String) : Option Address :=
  if text.toList.contains '\x00' then none
  else
    match text.toList with
    | 'f' :: 'i' :: 'l' :: 'e' :: ':' :: s => do
      let s := (← afterAuthority? s).takeWhile (· != '#')
      let path ← spelled? (s.takeWhile (· != '?'))
      ofOptions? path (optionsOf ((s.dropWhile (· != '?')).drop 1))
    | _ => some (ofPath text)

end Address

end MusicIndex
