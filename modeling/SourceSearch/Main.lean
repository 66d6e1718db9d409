import SourceSearch.CommandLine.Run

/-!
# The program

Loads the folders that a command works on into a file tree, runs the command there, prints what it
prints, and carries the changes of the tree back to the disk.
-/

namespace SourceSearch
namespace Main

/-- The names that lead to an absolute path. -/
def namesOf (path : String) : Location := (Path.mk path).steps

/-- The absolute path of a location. -/
def pathOf (location : Location) : String := "/" ++ "/".intercalate location

/-- Load a regular file; one that may not be opened shows its size only. -/
def loadFile (path : String) : IO FileNode := do
  try return .file (← IO.FS.readBinFile path)
  catch _ => return .sealed (← (← IO.FS.realPath path).metadata).byteSize.toNat

/-- Load what stands at an absolute path, together with the targets of the links that it holds. -/
partial def load (path : String) : IO (FileNode × List String) := do
  let parent ← IO.FS.realPath path
  let mut entries : List (String × FileNode) := []
  let mut targets : List String := []
  for entry in ← parent.readDir do
    let below := path ++ "/" ++ entry.fileName
    match (← entry.path.symlinkMetadata).type with
    | .dir =>
        let (node, more) ← load below
        entries := (entry.fileName, node) :: entries
        targets := more ++ targets
    | .file => entries := (entry.fileName, ← loadFile below) :: entries
    | .symlink =>
        try
          let target := (← IO.FS.realPath entry.path).toString
          entries := (entry.fileName, .link ⟨target⟩) :: entries
          targets := target :: targets
        catch _ => entries := (entry.fileName, .link ⟨below⟩) :: entries
    | .other => pure ()
  return (.folder entries, targets)

/-- Put a node into a tree and make the folders above it. -/
def place (tree : FileTree) (location : Location) (node : FileNode) : FileTree :=
  let (tree, _) := tree.makeFolders ⟨pathOf location.dropLast⟩
  tree.put location node

/-- The absolute path leads to a folder. -/
def isFolder (path : String) : IO Bool := do
  return (← (← IO.FS.realPath path).metadata).type == .dir

/-- Load absolute paths, and those that they link to, as far as none of the paths in `loaded` leads
to them. -/
partial def loadAll (loaded : List Location) (tree : FileTree) : List String → IO FileTree
  | [] => return tree
  | path :: rest => do
      let location := namesOf path
      if loaded.any (·.isPrefixOf location) then loadAll loaded tree rest
      else if ← isFolder path then
        let (node, targets) ← load path
        loadAll (location :: loaded) (place tree location node) (rest ++ targets)
      else
        loadAll (location :: loaded) (place tree location (← loadFile path)) rest

/-- The absolute path, without links, of what an argument names. -/
def realPath? (argument : Path) : IO (Option String) := do
  try return some (← IO.FS.realPath argument.text).toString catch _ => return none

/-- Let an argument lead to the absolute path that it stands for. -/
def name (tree : FileTree) (argument : Path) (real : String) : FileTree :=
  let (named, _) := tree.makeFolders argument
  match named.findLink argument with
  | .ok (location, _) =>
      if location = namesOf real then named else named.put location (.link ⟨real⟩)
  | .error _ => named

/-- Load the folders that arguments name, under the names that they are given by. -/
def loadArguments (tree : FileTree) (arguments : List Path) : IO FileTree := do
  let named ← arguments.mapM fun argument => return (argument, ← realPath? argument)
  let tree ← loadAll [] tree (named.filterMap Prod.snd)
  return named.foldl (fun tree (argument, real) =>
    match real with
    | some real => name tree argument real
    | none => tree) tree

/-- Carry the change of a node to the disk. -/
partial def carry (path : String) (before after : Option FileNode) : IO Unit := do
  match before, after with
  | some (.folder _), none => IO.FS.removeDirAll path
  | some _, none => IO.FS.removeFile path
  | none, some (.file content) => IO.FS.writeBinFile path content
  | some (.file old), some (.file new) => unless old == new do IO.FS.writeBinFile path new
  | none, some (.folder entries) => do
      IO.FS.createDirAll path
      for (name, node) in entries do
        carry (path ++ "/" ++ name) none (some node)
  | some (.folder old), some (.folder new) => do
      for (name, node) in old do
        carry (path ++ "/" ++ name) (some node) (new.lookup name)
      for (name, node) in new do
        if (old.lookup name).isNone then carry (path ++ "/" ++ name) none (some node)
  | some (.sealed _), some (.file content) => do
      IO.FS.removeFile path
      IO.FS.writeBinFile path content
  | some (.file _), some (.folder entries) | some (.sealed _), some (.folder entries) => do
      IO.FS.removeFile path
      carry path none (some (.folder entries))
  | some (.folder _), some (.file content) => do
      IO.FS.removeDirAll path
      carry path none (some (.file content))
  | _, _ => pure ()

/-- Print a piece of output. -/
def print (start : Nat) : Printed → IO Unit
  | .result line => IO.println line
  | .notice line => IO.eprintln line
  | .elapsed label => do
      IO.println (label ++ Report.duration ((← IO.monoNanosNow) - start))

/-- Run an invocation of the program. -/
def run (invocation : Invocation) : IO UInt32 := do
  let start ← IO.monoNanosNow
  let home := namesOf (← IO.FS.realPath ".").toString
  let empty := place { entries := [], home } home (.folder [])
  let before ← loadArguments empty (CommandLine.folders invocation.command)
  let (outcome, after) := StateT.run (CommandLine.run invocation.command) before
  carry "" (some before.root) (some after.root)
  outcome.output.forM (print start)
  return outcome.exitCode

end Main
end SourceSearch

/-- Run the program on its arguments. -/
def main (arguments : List String) : IO UInt32 := do
  match SourceSearch.CommandLine.read arguments with
  | .ok invocation => SourceSearch.Main.run invocation
  | .error .help => do
      IO.print SourceSearch.CommandLine.helpText
      return 0
  | .error .version => do
      IO.println SourceSearch.CommandLine.versionLine
      return 0
  | .error .malformed => do
      IO.eprint SourceSearch.CommandLine.helpText
      return 2
