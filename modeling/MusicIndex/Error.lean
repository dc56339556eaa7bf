import MusicIndex.Entity.Link
import MusicIndex.Json.Fault
import MusicIndex.Text.Utf8

namespace MusicIndex

inductive Invalid where
  | blankScheme (value : String)
  | blankValue (scheme : String)
  | blankSource
  | misplacedRole (kind : LinkKind)
  | misplacedShares (kind : LinkKind)
  | shareOutOfRange (name : String) (value : Double)
  | unknownRecordKind (name : String)
  | unknownLinkKind (name : String)
  | shortRow (kind : RecordKind) (id : Nat)
  | recordWithoutIdentifier
  | linkWithIdentifier
  | recordAndLink
  | neitherRecordNorLink
  | blankEntrySource
  | lineNotUtf8 (fault : Text.Utf8.Fault)
  | policyNotReadable (path : String)
deriving DecidableEq

def Invalid.message : Invalid → String
  | .blankScheme value => s!"identifier type must not be empty (value {Text.quoted value})"
  | .blankValue scheme => s!"identifier value must not be empty (type {Text.quoted scheme})"
  | .blankSource => "source name must not be empty"
  | .misplacedRole kind => s!"{kind.name} links carry no role"
  | .misplacedShares kind => s!"{kind.name} links carry no shares"
  | .shareOutOfRange name value => s!"{name} share out of range: {value.text}"
  | .unknownRecordKind name => s!"unknown record kind: {name}"
  | .unknownLinkKind name => s!"unknown link kind: {name}"
  | .shortRow kind id => s!"{kind.name} row {id} is missing natural-key columns"
  | .recordWithoutIdentifier => "record entry has no identifier"
  | .linkWithIdentifier => "link entry must not carry an identifier"
  | .recordAndLink => "entry carries both a record and a link"
  | .neitherRecordNorLink => "entry carries neither a record nor a link"
  | .blankEntrySource => "source must not be empty"
  | .lineNotUtf8 fault => s!"line is not valid UTF-8: {fault.message}"
  | .policyNotReadable path => s!"failed to parse source policy from {path}"

inductive FileFault where
  | missing
  | exists
  | notDirectory
  | isDirectory
  | nameTooLong
  | nulInName
  | notUtf8
deriving DecidableEq

def FileFault.message : FileFault → String
  | .missing => "No such file or directory (os error 2)"
  | .exists => "File exists (os error 17)"
  | .notDirectory => "Not a directory (os error 20)"
  | .isDirectory => "Is a directory (os error 21)"
  | .nameTooLong => "File name too long (os error 36)"
  | .nulInName => "file name contained an unexpected NUL byte"
  | .notUtf8 => "stream did not contain valid UTF-8"

inductive StoreFault where
  | readOnly
  | insertRefused
  | alreadyRefused (table : String)
  | notRefused (table : String)
  | notDatabase
  | cannotOpen (path : String)
  | cannotOpenJournal
deriving DecidableEq

def StoreFault.message : StoreFault → String
  | .readOnly => "attempt to write a readonly database"
  | .insertRefused => "rejected"
  | .alreadyRefused table => s!"trigger reject_{table} already exists"
  | .notRefused table => s!"no such trigger: reject_{table}"
  | .notDatabase => "file is not a database"
  | .cannotOpen path => s!"unable to open database file: {path}"
  | .cannotOpenJournal => "unable to open database file"

inductive Error where
  | database (fault : StoreFault)
  | file (fault : FileFault)
  | serialization (fault : Json.Fault)
  | identifierNotFound (kind : RecordKind) (identifier : Identifier)
  | sourceNotFound (id : Int)
  | invalid (cause : Invalid)
deriving DecidableEq

namespace Error

/-- The fault of a text, with the place where it lies. -/
def ofText [Json.Places] (text : String) (fault : Json.Fault) : Error :=
  .serialization (.placed fault (Json.Places.place text))

def message : Error → String
  | .database fault => s!"database error: {fault.message}"
  | .file fault => s!"I/O error: {fault.message}"
  | .serialization fault => s!"serialization error: {fault.message}"
  | .identifierNotFound kind identifier =>
    s!"identifier not found: {kind.name} {identifier.text}"
  | .sourceNotFound id => s!"source not found: {id}"
  | .invalid cause => s!"invalid data: {cause.message}"

def isNotFound : Error → Bool
  | .identifierNotFound _ _ | .sourceNotFound _ => true
  | _ => false

/-- True where the data of a feed entry is to blame. -/
def isOfEntry : Error → Bool
  | .invalid _ | .serialization _ => true
  | _ => false

end Error

def RecordKind.parse (name : String) : Except Error RecordKind :=
  match RecordKind.ofName? name with
  | some kind => .ok kind
  | none => .error (.invalid (.unknownRecordKind name))

def LinkKind.parse (name : String) : Except Error LinkKind :=
  match LinkKind.ofName? name with
  | some kind => .ok kind
  | none => .error (.invalid (.unknownLinkKind name))

end MusicIndex
