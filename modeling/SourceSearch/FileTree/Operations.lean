import SourceSearch.FileTree.Resolve

/-!
# File operations

Reading, writing, listing, making and removing, as functions on trees.  An operation that is
refused says why; only the making of nested folders can be refused half way and leaves what it has
made.
-/

namespace SourceSearch
namespace FileTree

/-- The bytes of a file. -/
def read (tree : FileTree) (path : Path) : Except Fault ByteArray :=
  match tree.find path with
  | .ok (_, .file content) => .ok content
  | .ok (_, .sealed _) => .error .denied
  | .ok _ => .error .isFolder
  | .error fault => .error fault

/-- The size of a file. -/
def size? (tree : FileTree) (path : Path) : Option Nat :=
  match tree.find path with
  | .ok (_, node) => node.size?
  | .error _ => none

/-- The text of a file that holds well-formed UTF-8. -/
def readText (tree : FileTree) (path : Path) : Except Fault String :=
  match tree.read path with
  | .ok bytes =>
      match String.fromUTF8? bytes with
      | some text => .ok text
      | none => .error .notText
  | .error fault => .error fault

/-- Write a file, in place of a file that is there. -/
def write (tree : FileTree) (path : Path) (content : ByteArray) : Except Fault FileTree :=
  match tree.resolve path true with
  | .ok (.node location (.file _)) => .ok (tree.put location (.file content))
  | .ok (.node _ (.sealed _)) => .error .denied
  | .ok (.node _ _) => .error .isFolder
  | .ok (.vacant folder name) => .ok (tree.put (folder ++ [name]) (.file content))
  | .error fault => .error fault

/-- The names and nodes of a folder. -/
def list (tree : FileTree) (path : Path) : Except Fault (List (String × FileNode)) :=
  match tree.find path with
  | .ok (_, .folder entries) => .ok entries
  | .ok _ => .error .notFolder
  | .error fault => .error fault

/-- Make the folders of `steps` from a location on, as far as they are not there. -/
def makeFoldersFrom (tree : FileTree) : Location → List String → FileTree × Option Fault
  | _, [] => (tree, none)
  | location, step :: rest =>
      match tree.walkWithin true maxLinks location [step] with
      | .ok (.node next (.folder _)) => makeFoldersFrom tree next rest
      | .ok (.node _ _) => (tree, some (if rest = [] then .occupied else .notFolder))
      | .ok (.vacant folder name) =>
          if folder = location ∧ name = step then
            makeFoldersFrom (tree.put (folder ++ [name]) (.folder [])) (folder ++ [name]) rest
          else (tree, some .occupied)
      | .error fault => (tree, some fault)

/-- Make a folder and the folders above it. -/
def makeFolders (tree : FileTree) (path : Path) : FileTree × Option Fault :=
  if path.text.toList.contains '\x00' then (tree, some .nulCharacter)
  else tree.makeFoldersFrom (tree.startOf path) path.steps

/-- Remove a folder with all it holds; a link is removed itself. -/
def removeFolder (tree : FileTree) (path : Path) : Except Fault FileTree :=
  match tree.findLink path with
  | .ok (_, .file _) => .error .notFolder
  | .ok (_, .sealed _) => .error .notFolder
  | .ok (location, _) => .ok (tree.erase location)
  | .error fault => .error fault

/-- Remove whatever stands at a path; a link is removed itself. -/
def remove (tree : FileTree) (path : Path) : Except Fault FileTree :=
  match tree.findLink path with
  | .ok (location, _) => .ok (tree.erase location)
  | .error fault => .error fault

/-- Put a link at a path where nothing stands. -/
def makeLink (tree : FileTree) (path target : Path) : Except Fault FileTree :=
  match tree.resolve path false with
  | .ok (.vacant folder name) => .ok (tree.put (folder ++ [name]) (.link target))
  | .ok (.node _ _) => .error .occupied
  | .error fault => .error fault

end FileTree
end SourceSearch
