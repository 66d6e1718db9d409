import SourceSearch.FileTree.Resolve

/-!
# Files below a path

The regular files that lie below a path, where excluded paths are not entered.  Links are passed
over, or they are followed unless they lead back into a folder that is being listed.
-/

namespace SourceSearch
namespace FileTree

mutual

/-- The paths of the regular files in a node that stands at `path` and `location`.  A link is left
to `onLink`, which gets its path and the folders that it lies in. -/
def filesAt (excluded : List Path) (onLink : Path → List Location → List Path) (path : Path)
    (location : Location) (above : List Location) : FileNode → List Path
  | .file _ => [path]
  | .sealed _ => [path]
  | .link _ => onLink path above
  | .folder entries => filesAmong excluded onLink path location (location :: above) entries

/-- The paths of the regular files in the entries of a folder. -/
def filesAmong (excluded : List Path) (onLink : Path → List Location → List Path) (path : Path)
    (location : Location) (above : List Location) : List (String × FileNode) → List Path
  | [] => []
  | (name, node) :: rest =>
      (if excluded.any (path / name).same then []
        else filesAt excluded onLink (path / name) (location ++ [name]) above node) ++
        filesAmong excluded onLink path location above rest

end

/-- The files behind a link, where at most `links` more links are followed.  A broken link and one
that leads back to a folder above have none. -/
def filesBehind (tree : FileTree) (excluded : List Path) :
    (links : Nat) → Path → List Location → List Path
  | 0, _, _ => []
  | links + 1, path, above =>
      match tree.find path with
      | .ok (location, node) =>
          if location ∈ above then []
          else filesAt excluded (filesBehind tree excluded links) path location above node
      | .error _ => []

/-- The paths of the regular files below a path.  The path itself may be a link, and it may be a
file; it is never excluded. -/
def filesBelow (tree : FileTree) (followLinks : Bool) (excluded : List Path) (path : Path) :
    List Path :=
  let onLink := if followLinks then filesBehind tree excluded maxLinks else fun _ _ => []
  match tree.find path with
  | .ok (location, node) => filesAt excluded onLink path location [] node
  | .error _ => []

end FileTree
end SourceSearch
