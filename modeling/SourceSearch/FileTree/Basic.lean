import SourceSearch.Path

/-!
# File trees

A tree of folders, files and symbolic links as a plain value.  Of permissions it has those of files
only: a file can be opened or it cannot.  A location is the list of names that leads from the root
to a node; reading and changing the node at a location never follows links.
-/

namespace SourceSearch

/-- What stands at a name in a folder. -/
inductive FileNode where
  /-- A regular file. -/
  | file (content : ByteArray)
  /-- A regular file that may not be opened; no more is seen of it than its size. -/
  | sealed (size : Nat)
  /-- A symbolic link. -/
  | link (target : Path)
  /-- A folder with its entries by name. -/
  | folder (entries : List (String × FileNode))
  deriving Inhabited

/-- The names that lead from the root to a node. -/
abbrev Location := List String

/-- Why a file operation is refused. -/
inductive Fault where
  /-- There is nothing at the path. -/
  | missing
  /-- A step leads through something that is no folder. -/
  | notFolder
  /-- A file was asked for and a folder stands there. -/
  | isFolder
  /-- The file may not be opened. -/
  | denied
  /-- The name is taken. -/
  | occupied
  /-- A name is too long for a folder entry. -/
  | nameTooLong
  /-- Too many links were followed. -/
  | tooManyLinks
  /-- The path holds the character that ends names. -/
  | nulCharacter
  /-- The file is not text. -/
  | notText
  deriving DecidableEq

namespace Fault

/-- The system's text for a fault. -/
def message : Fault → String
  | missing => "No such file or directory (os error 2)"
  | notFolder => "Not a directory (os error 20)"
  | isFolder => "Is a directory (os error 21)"
  | denied => "Permission denied (os error 13)"
  | occupied => "File exists (os error 17)"
  | nameTooLong => "File name too long (os error 36)"
  | tooManyLinks => "Too many levels of symbolic links (os error 40)"
  | nulCharacter => "file name contained an unexpected NUL byte"
  | notText => "stream did not contain valid UTF-8"

end Fault

/-- Change the entry of a name: `change` gets the present value and gives the new one, where `none`
stands for no entry.  No second entry of the name stays. -/
def alterEntry {β : Type} (name : String) (change : Option β → Option β) :
    List (String × β) → List (String × β)
  | [] => (change none).toList.map fun value => (name, value)
  | (key, value) :: rest =>
      if key = name then
        ((change (some value)).toList.map fun value => (key, value)) ++ rest.filter (·.1 ≠ name)
      else (key, value) :: alterEntry name change rest

namespace FileNode

/-- The node is a regular file. -/
def isFile : FileNode → Bool
  | file _ => true
  | sealed _ => true
  | _ => false

/-- The size of a regular file, which is seen without opening it. -/
def size? : FileNode → Option Nat
  | file content => some content.size
  | sealed size => some size
  | _ => none

/-- The node is a folder. -/
def isFolder : FileNode → Bool
  | folder _ => true
  | _ => false

/-- The node at a location below this one. -/
def at? : Location → FileNode → Option FileNode
  | [], node => some node
  | name :: rest, folder entries => (entries.lookup name).bind (at? rest)
  | _ :: _, _ => none

/-- Change what stands at a location, which lies below folders; elsewhere nothing changes. -/
def alter (change : Option FileNode → Option FileNode) : Location → FileNode → FileNode
  | [], node => node
  | [name], folder entries => folder (alterEntry name change entries)
  | name :: rest, folder entries =>
      folder (alterEntry name (Option.map (alter change rest)) entries)
  | _, node => node

end FileNode

/-- A whole tree, given by the entries of its root, and the folder that relative paths start
from. -/
structure FileTree where
  /-- The entries of the root folder. -/
  entries : List (String × FileNode)
  /-- The working folder. -/
  home : Location := []
  deriving Inhabited

namespace FileTree

/-- The tree with nothing in it. -/
def empty : FileTree := { entries := [] }

/-- The root folder as a node. -/
def root (tree : FileTree) : FileNode := .folder tree.entries

/-- The node at a location, no links followed. -/
def at? (tree : FileTree) (location : Location) : Option FileNode := tree.root.at? location

/-- Change what stands at a location. -/
def alter (tree : FileTree) (location : Location)
    (change : Option FileNode → Option FileNode) : FileTree :=
  match tree.root.alter change location with
  | .folder entries => { tree with entries }
  | _ => tree

/-- Where the walk along a path starts. -/
def startOf (tree : FileTree) (path : Path) : Location := if path.isAbsolute then [] else tree.home

/-- Put a node at a location, in place of what stands there. -/
def put (tree : FileTree) (location : Location) (node : FileNode) : FileTree :=
  tree.alter location fun _ => some node

/-- Take away what stands at a location. -/
def erase (tree : FileTree) (location : Location) : FileTree :=
  tree.alter location fun _ => none

end FileTree
end SourceSearch
