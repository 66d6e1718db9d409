import SourceSearch.Failure
import SourceSearch.FileTree.Operations
import SourceSearch.Json.Decode

/-!
# Tasks on a file tree

A task changes a file tree and may fail; what it has written before it fails stays written.  The
tasks here are the ones that all stores share: writing and reading one record, and removing a
folder.
-/

namespace SourceSearch

/-- A computation that changes a file tree. -/
abbrev DiskM (α : Type) : Type := StateM FileTree α

/-- A computation that changes a file tree and may fail. -/
abbrev TaskM (α : Type) : Type := ExceptT Failure (StateM FileTree) α

namespace TaskM

/-- Run a task on a tree. -/
def runOn {α : Type} (task : TaskM α) (tree : FileTree) : Except Failure α × FileTree :=
  StateT.run (ExceptT.run task) tree

/-- Make a task of a step that gives its result beside the changed tree. -/
def ofStep {α : Type} (step : FileTree → Except Failure α × FileTree) : TaskM α :=
  ExceptT.mk (step : StateM FileTree (Except Failure α))

/-- Look at the tree. -/
def observe {α : Type} (look : FileTree → α) : TaskM α := ofStep fun tree => (.ok (look tree), tree)

/-- Look at the tree, where the answer may be a failure. -/
def examine {α : Type} (look : FileTree → Except Failure α) : TaskM α :=
  ofStep fun tree => (look tree, tree)

/-- Change the tree by an operation that happens as a whole or is refused. -/
def change (refusal : Fault → Failure) (operation : FileTree → Except Fault FileTree) :
    TaskM Unit :=
  ofStep fun tree =>
    match operation tree with
    | .ok changed => (.ok (), changed)
    | .error fault => (.error (refusal fault), tree)

/-- Make a folder and those above it. -/
def makeFolders (refusal : Fault → Failure) (path : Path) : TaskM Unit :=
  ofStep fun tree =>
    match tree.makeFolders path with
    | (changed, none) => (.ok (), changed)
    | (changed, some fault) => (.error (refusal fault), changed)

/-- Name the larger task that a task is part of, should it fail. -/
def within {α : Type} (task : String) (part : TaskM α) : TaskM α :=
  tryCatch part fun cause => throw (.during task cause)

/-- Write a file and make the folders above it. -/
@[irreducible]
def writeFile (path : Path) (content : ByteArray) : TaskM Unit := do
  if let some parent := path.parent? then
    makeFolders (.file parent) parent
  change (.file path) (·.write path content)

/-- Write a record to a file of its own. -/
def writeRecord (path : Path) (record : Json) : TaskM Unit := writeFile path record.toBytes

/-- Remove a folder with all it holds, if it is there. -/
def removeFolder (path : Path) : TaskM Unit :=
  ofStep fun tree =>
    match tree.removeFolder path with
    | .ok changed => (.ok (), changed)
    | .error .missing => (.ok (), tree)
    | .error fault =>
        (.error (.during s!"Failed to remove {path}" (.system fault)), tree)

end TaskM

namespace FileTree

/-- Read the record that a file holds. -/
@[irreducible]
def readRecord {α : Type} (tree : FileTree) (decode : Json → Option α) (path : Path) :
    Except Failure α :=
  match tree.read path with
  | .ok content =>
      match Json.decodeBytes? decode content with
      | some record => .ok record
      | none => .error (.record path)
  | .error .isFolder => .error (.record path)
  | .error fault => .error (.file path fault)

/-- Read the record that a file holds, or nothing if there is no file. -/
def readRecord? {α : Type} (tree : FileTree) (decode : Json → Option α) (path : Path) :
    Except Failure (Option α) :=
  match tree.readRecord decode path with
  | .ok record => .ok (some record)
  | .error (.file _ .missing) => .ok none
  | .error failure => .error failure

end FileTree
end SourceSearch
