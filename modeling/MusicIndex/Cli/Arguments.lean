namespace MusicIndex.Cli

inductive ConfigCommand where
  | showAll
  | path
  | init
  | exampleFile
deriving DecidableEq

inductive Command where
  | ingest (path : String) (source : Option String)
  | lookup (kind scheme value : String) (depth : Nat) (json : Bool)
  | links (kind scheme value : String) (reverse : Bool)
  | graph (kind scheme value : String) (depth : Nat)
  | status
  | sources
  | config (command : ConfigCommand)
deriving DecidableEq

structure Invocation where
  database : Option String
  verbose : Bool
  command : Command
deriving DecidableEq

inductive Request where
  | version
  | help
  | run (invocation : Invocation)
deriving DecidableEq

/-- What an option does: it takes a value of some form, or is set, or asks for something else than a
command. -/
inductive OptionEffect where
  | value (accepts : String → Bool)
  | flag
  | version
  | help

structure OptionSpec where
  name : String
  letter : Option Char
  effect : OptionEffect

/-- What may stand at one level of the arguments: options, and either the name of a command, which
begins the next level, or other arguments up to a number. -/
structure Level where
  options : List OptionSpec
  isBranch : Bool
  arguments : Nat
  accepts : String → Bool

/-- What stands at one level; a flag that is set has the empty value. -/
structure Given where
  values : List (String × String)
  arguments : List String

inductive Scan where
  | refused
  | version
  | help
  | branch (given : Given) (name : String) (rest : List String)
  | finished (given : Given)

namespace Given

def none : Given := ⟨[], []⟩

def value? (g : Given) (name : String) : Option String :=
  g.values.lookup name

def isSet (g : Given) (name : String) : Bool :=
  (g.value? name).isSome

def add? (g : Given) (name value : String) : Option Given :=
  if g.isSet name then Option.none else some { g with values := g.values ++ [(name, value)] }

end Given

def isOption (s : String) : Bool :=
  s.startsWith "-" && s != "-"

def scanLetters (level : Level) (given : Given) : List Char → Scan
  | [] => .finished given
  | c :: rest =>
    match level.options.find? (·.letter == some c) with
    | none => .refused
    | some spec =>
      match spec.effect with
      | .value _ => .refused
      | .version => .version
      | .help => .help
      | .flag =>
        match given.add? spec.name "" with
        | some given => scanLetters level given rest
        | none => .refused

def splitValue (s : List Char) : String × Option String :=
  let name := String.ofList (s.takeWhile (· != '='))
  match s.dropWhile (· != '=') with
  | [] => (name, none)
  | _ :: value => (name, some (String.ofList value))

def scan (level : Level) (given : Given) : List String → Scan
  | [] => .finished given
  | arg :: rest =>
    match arg.toList with
    | ['-', '-'] =>
      if level.isBranch then (if rest.isEmpty then .finished given else .refused)
      else if given.arguments.length + rest.length ≤ level.arguments ∧ rest.all level.accepts then
        .finished { given with arguments := given.arguments ++ rest }
      else .refused
    | '-' :: '-' :: text =>
      let (name, value) := splitValue text
      match level.options.find? (·.name == name) with
      | none => .refused
      | some spec =>
        match spec.effect, value, rest with
        | .version, none, _ => .version
        | .help, none, _ => .help
        | .flag, none, rest =>
          match given.add? name "" with
          | some given => scan level given rest
          | none => .refused
        | .value accepts, some value, rest =>
          match given.add? name value with
          | some given => if accepts value then scan level given rest else .refused
          | none => .refused
        | .value accepts, none, value :: rest =>
          match given.add? name value with
          | some given =>
            if !isOption value && accepts value then scan level given rest else .refused
          | none => .refused
        | _, _, _ => .refused
    | '-' :: c :: letters =>
      match scanLetters level given (c :: letters) with
      | .finished given => scan level given rest
      | other => other
    | _ =>
      if level.isBranch then .branch given arg rest
      else if given.arguments.length < level.arguments ∧ level.accepts arg then
        scan level { given with arguments := given.arguments ++ [arg] } rest
      else .refused

def natural? (s : String) : Option Nat :=
  let digits :=
    match s.toList with
    | '+' :: rest => rest
    | cs => cs
  if digits.isEmpty ∨ !digits.all Char.isDigit then none
  else
    let n := digits.foldl (fun n c => n * 10 + (c.toNat - 48)) 0
    if n < Nat.pow 2 64 then some n else none

def isGiven (s : String) : Bool :=
  s != ""

def commonOptions : List OptionSpec :=
  [⟨"db", none, .value isGiven⟩, ⟨"verbose", some 'v', .flag⟩, ⟨"help", some 'h', .help⟩]

def rootLevel : Level :=
  ⟨⟨"version", some 'V', .version⟩ :: commonOptions, true, 0, fun _ => true⟩

def leafLevel (options : List OptionSpec) (arguments : Nat) : Level :=
  ⟨options ++ commonOptions, false, arguments, fun _ => true⟩

def ingestLevel : Level :=
  { leafLevel [⟨"source", none, .value fun _ => true⟩] 1 with accepts := isGiven }

def lookupLevel : Level :=
  leafLevel [⟨"depth", none, .value fun s => (natural? s).isSome⟩, ⟨"json", none, .flag⟩] 3

def linksLevel : Level :=
  leafLevel [⟨"reverse", none, .flag⟩] 3

def graphLevel : Level :=
  leafLevel [⟨"depth", none, .value fun s => (natural? s).isSome⟩] 3

def configLevel : Level :=
  ⟨commonOptions, true, 0, fun _ => true⟩

def Given.depth (g : Given) (standard : Nat) : Nat :=
  ((g.value? "depth").bind natural?).getD standard

def commandOf? (name : String) (g : Given) : Option Command :=
  match name, g.arguments with
  | "ingest", [path] => some (.ingest path (g.value? "source"))
  | "lookup", [kind, scheme, value] =>
    some (.lookup kind scheme value (g.depth 1) (g.isSet "json"))
  | "links", [kind, scheme, value] => some (.links kind scheme value (g.isSet "reverse"))
  | "graph", [kind, scheme, value] => some (.graph kind scheme value (g.depth 2))
  | "status", [] => some .status
  | "sources", [] => some .sources
  | _, _ => none

def levelOf? (name : String) : Option Level :=
  match name with
  | "ingest" => some ingestLevel
  | "lookup" => some lookupLevel
  | "links" => some linksLevel
  | "graph" => some graphLevel
  | "status" => some (leafLevel [] 0)
  | "sources" => some (leafLevel [] 0)
  | _ => none

def configCommand? (name : String) : Option ConfigCommand :=
  match name with
  | "show" => some .showAll
  | "path" => some .path
  | "init" => some .init
  | "example" => some .exampleFile
  | _ => none

def configHelp? : List String → Option Request
  | [] | ["help"] => some .help
  | [name] => (configCommand? name).map fun _ => .help
  | _ => none

def help? : List String → Option Request
  | [] | ["help"] => some .help
  | "config" :: rest => configHelp? rest
  | [name] => (levelOf? name).map fun _ => .help
  | _ => none

/-- The request that a command makes, with what was given at its levels, the innermost first. -/
def requestOf (levels : List Given) (command : Command) : Request :=
  .run ⟨levels.findSome? (·.value? "db"), levels.any (·.isSet "verbose"), command⟩

def finish? (outer : List Given) (result : Scan) (command : Given → Option Command) :
    Option Request :=
  match result with
  | .finished g => (command g).map (requestOf (g :: outer))
  | .version => some .version
  | .help => some .help
  | _ => none

def configRequest? (outer : Given) (args : List String) : Option Request :=
  match scan configLevel .none args with
  | .branch given name rest =>
    if name = "help" then configHelp? rest
    else do
      let command ← configCommand? name
      finish? [given, outer] (scan (leafLevel [] 0) .none rest) fun _ => some (.config command)
  | result => finish? [outer] result fun _ => none

def request? (args : List String) : Option Request :=
  match scan rootLevel .none args with
  | .branch given name rest =>
    if name = "help" then help? rest
    else if name = "config" then configRequest? given rest
    else do
      let level ← levelOf? name
      finish? [given] (scan level .none rest) (commandOf? name)
  | result => finish? [] result fun _ => none

end MusicIndex.Cli
