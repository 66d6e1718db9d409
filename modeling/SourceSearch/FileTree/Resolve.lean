import SourceSearch.FileTree.Basic

/-!
# Resolving paths

A path is walked step by step, from the root if it is absolute and else from the working folder.
`.` stays, `..` returns to the folder above, and a link is replaced by its target; the number of
links on one walk is bounded.
-/

namespace SourceSearch

/-- Where a walk ends. -/
inductive Found where
  /-- Something stands at the location. -/
  | node (location : Location) (node : FileNode)
  /-- The folder is there, but holds nothing of that name. -/
  | vacant (folder : Location) (name : String)

/-- The greatest number of bytes in a name. -/
def maxNameBytes : Nat := 255

/-- The greatest number of links followed on one walk. -/
def maxLinks : Nat := 40

/-- The steps of a path in order.  A slash at the end asks for a folder, like a final `.`. -/
def Path.steps (path : Path) : List String :=
  let steps := path.pieces.filter (· ≠ "")
  if path.text.toList.getLast? = some '/' then steps ++ ["."] else steps

namespace FileTree

/-- Walk `steps` from the folder at `location`.  A link is left to `again`, which walks from a
folder with the target's steps in front. -/
def walk (tree : FileTree) (followLast : Bool)
    (again : Location → List String → Except Fault Found) :
    Location → List String → Except Fault Found
  | location, [] =>
      match tree.at? location with
      | some node => .ok (.node location node)
      | none => .error .missing
  | location, step :: rest =>
      match tree.at? location with
      | some (.folder entries) =>
          if step = "." then walk tree followLast again location rest
          else if step = ".." then walk tree followLast again location.dropLast rest
          else if maxNameBytes < step.utf8ByteSize then .error .nameTooLong
          else match entries.lookup step with
            | none => if rest = [] then .ok (.vacant location step) else .error .missing
            | some (.link target) =>
                if rest = [] && !followLast then .ok (.node (location ++ [step]) (.link target))
                else again (if target.isAbsolute then [] else location) (target.steps ++ rest)
            | some _ => walk tree followLast again (location ++ [step]) rest
      | _ => .error .notFolder

/-- Walk with at most `links` links on the way. -/
def walkWithin (tree : FileTree) (followLast : Bool) :
    Nat → Location → List String → Except Fault Found
  | 0 => tree.walk followLast fun _ _ => .error .tooManyLinks
  | links + 1 => tree.walk followLast (walkWithin tree followLast links)

/-- Resolve a path; a link at its very end is followed if `followLast` says so. -/
def resolve (tree : FileTree) (path : Path) (followLast : Bool) : Except Fault Found :=
  if path.text.toList.contains '\x00' then .error .nulCharacter
  else if path.text = "" then .error .missing
  else tree.walkWithin followLast maxLinks (tree.startOf path) path.steps

/-- The node that a path leads to, with its location, all links followed. -/
def find (tree : FileTree) (path : Path) : Except Fault (Location × FileNode) :=
  match tree.resolve path true with
  | .ok (.node location node) => .ok (location, node)
  | .ok (.vacant _ _) => .error .missing
  | .error fault => .error fault

/-- The node that a path leads to, where a link at the end stands for itself. -/
def findLink (tree : FileTree) (path : Path) : Except Fault (Location × FileNode) :=
  match tree.resolve path false with
  | .ok (.node location node) => .ok (location, node)
  | .ok (.vacant _ _) => .error .missing
  | .error fault => .error fault

/-- Something stands at the path. -/
def pathExists (tree : FileTree) (path : Path) : Bool := (tree.find path).isOk

/-- The path leads to a regular file. -/
def isFile (tree : FileTree) (path : Path) : Bool :=
  match tree.find path with
  | .ok (_, node) => node.isFile
  | .error _ => false

/-- The path leads to a folder. -/
def isFolder (tree : FileTree) (path : Path) : Bool :=
  match tree.find path with
  | .ok (_, node) => node.isFolder
  | .error _ => false

end FileTree
end SourceSearch
