import SourceSearch.Path

/-!
# Command line arguments

A command line names one command and gives it flags and values in any order.  Arguments are read
from left to right: the first one that asks for help or for the version, or that has no place,
decides what the command line means.  After `--` every argument is a value.
-/

namespace SourceSearch

/-- What the program is asked to do. -/
inductive Command where
  /-- Rebuild the index in a folder from the files below another. -/
  | build (crawl index : Path) (quiet : Bool)
  /-- Find the documents with a word that contains a term. -/
  | search (index : Path) (term : String) (json explain : Bool)
  /-- Find the documents that satisfy a query. -/
  | query (index : Path) (query : String) (json explain : Bool)
  /-- Compare the declared and the stored sizes of postings. -/
  | check (index : Path) (trigrams : List String) (metadata : Bool)
  deriving DecidableEq

/-- A command with the number of times that more messages were asked for. -/
structure Invocation where
  /-- How often the verbose flag was given. -/
  verbose : Nat
  /-- The command. -/
  command : Command
  deriving DecidableEq

/-- Why a command line is no invocation. -/
inductive Refusal where
  /-- It asks for help. -/
  | help
  /-- It asks for the version. -/
  | version
  /-- It has no meaning. -/
  | malformed
  deriving DecidableEq

namespace CommandLine

/-- The flags of all commands. -/
inductive Flag where
  | help
  | version
  | verbose
  | quiet
  | json
  | explain
  | metadata
  deriving DecidableEq

namespace Flag

/-- The name of a flag after two hyphens. -/
def long : Flag → String
  | help => "help"
  | version => "version"
  | verbose => "verbose"
  | quiet => "quiet"
  | json => "json"
  | explain => "explain"
  | metadata => "metadata"

/-- The letter of a flag after one hyphen. -/
def short? : Flag → Option Char
  | help => some 'h'
  | version => some 'V'
  | verbose => some 'v'
  | quiet => some 'q'
  | _ => none

end Flag

/-- The arguments that a command takes. -/
structure Form where
  /-- The flags. -/
  flags : List Flag
  /-- The number of leading values that are paths; a path is not empty. -/
  paths : Nat
  /-- The number of values that are needed. -/
  needed : Nat
  /-- More values may follow. -/
  many : Bool

/-- The arguments read so far. -/
structure Given where
  /-- How often the verbose flag was given, up to 255. -/
  verbose : Nat := 0
  /-- The other flags; none is given twice. -/
  flags : List Flag := []
  /-- The values in order. -/
  values : List String := []

namespace Given

/-- Read a flag. -/
def takeFlag (given : Given) : Flag → Except Refusal Given
  | .help => .error .help
  | .version => .error .version
  | .verbose => .ok { given with verbose := min 255 (given.verbose + 1) }
  | flag =>
      if flag ∈ given.flags then .error .malformed
      else .ok { given with flags := flag :: given.flags }

/-- Read a value. -/
def takeValue (form : Form) (given : Given) (value : String) : Except Refusal Given :=
  if form.needed ≤ given.values.length ∧ ¬ form.many then .error .malformed
  else if given.values.length < form.paths ∧ value = "" then .error .malformed
  else .ok { given with values := given.values ++ [value] }

/-- Read a flag by its name. -/
def takeLong (form : Form) (given : Given) (name : String) : Except Refusal Given :=
  match form.flags.find? (·.long = name) with
  | some flag => given.takeFlag flag
  | none => .error .malformed

/-- Read a flag by its letter. -/
def takeShort (form : Form) (given : Given) (letter : Char) : Except Refusal Given :=
  match form.flags.find? (·.short? = some letter) with
  | some flag => given.takeFlag flag
  | none => .error .malformed

/-- Read one argument: a named flag, a group of letters, or a value.  A hyphen alone is a value. -/
def take (form : Form) (given : Given) (argument : String) : Except Refusal Given :=
  match argument.toList with
  | '-' :: '-' :: name => given.takeLong form (String.ofList name)
  | '-' :: letter :: letters => (letter :: letters).foldlM (takeShort form) given
  | _ => given.takeValue form argument

/-- Read the arguments of a command in order. -/
def takeAll (form : Form) (given : Given) : List String → Except Refusal Given
  | [] => .ok given
  | argument :: rest =>
      if argument = "--" then rest.foldlM (takeValue form) given
      else given.take form argument >>= fun given => takeAll form given rest

end Given

/-- The commands by name, each with the arguments that it takes and what they make of it. -/
def commands : List (String × Form × (Given → Option Command)) := [
  ("index", ⟨[.quiet, .verbose, .help], 2, 2, false⟩, fun given =>
    match given.values with
    | [crawl, index] => some (.build ⟨crawl⟩ ⟨index⟩ (.quiet ∈ given.flags))
    | _ => none),
  ("search", ⟨[.json, .explain, .verbose, .help], 1, 2, false⟩, fun given =>
    match given.values with
    | [index, term] =>
        some (.search ⟨index⟩ term (.json ∈ given.flags) (.explain ∈ given.flags))
    | _ => none),
  ("query", ⟨[.json, .explain, .verbose, .help], 1, 2, false⟩, fun given =>
    match given.values with
    | [index, query] =>
        some (.query ⟨index⟩ query (.json ∈ given.flags) (.explain ∈ given.flags))
    | _ => none),
  ("check", ⟨[.metadata, .verbose, .help], 1, 2, true⟩, fun given =>
    match given.values with
    | index :: trigrams => some (.check ⟨index⟩ trigrams (.metadata ∈ given.flags))
    | _ => none)]

/-- The arguments in front of a command. -/
def frontForm : Form := ⟨[.verbose, .help, .version], 0, 0, false⟩

/-- The command that explains others. -/
def helpCommand : String := "help"

/-- What a request for help asks for: a single command or the program. -/
def readHelp : List String → Refusal
  | [] => .help
  | [name] =>
      if name = helpCommand ∨ (commands.lookup name).isSome then .help else .malformed
  | _ => .malformed

/-- Read the arguments of a command; its own verbose flags count instead of those before it. -/
def readCommand (verbose : Nat) (form : Form) (make : Given → Option Command)
    (arguments : List String) : Except Refusal Invocation := do
  let given ← Given.takeAll form {} arguments
  if given.values.length < form.needed then throw .malformed
  match make given with
  | some command =>
      return { verbose := if given.verbose = 0 then verbose else given.verbose, command }
  | none => throw .malformed

/-- Read a command line with the flags given so far. -/
def readAfter (given : Given) : List String → Except Refusal Invocation
  | [] => .error .malformed
  | argument :: rest =>
      match commands.lookup argument with
      | some (form, make) => readCommand given.verbose form make rest
      | none =>
          if argument = helpCommand then .error (readHelp rest)
          else if argument = "--" then .error .malformed
          else given.take frontForm argument >>= fun given => readAfter given rest

/-- Read a command line without the name of the program. -/
def read (arguments : List String) : Except Refusal Invocation := readAfter {} arguments

end CommandLine
end SourceSearch
