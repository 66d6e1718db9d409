import SourceSearch.Text.Basic

/-!
# Paths

A path is kept as the text it was given by, which is what messages show.  Its meaning is its list
of components: repeated and trailing slashes and inner `.` make no difference, `..` stays.
-/

namespace SourceSearch

/-- A path as it was written. -/
structure Path where
  /-- The text of the path. -/
  text : String
  deriving DecidableEq, Inhabited

namespace Path

instance : ToString Path := ⟨Path.text⟩

/-- One step of a path. -/
inductive Component where
  /-- The leading slash of an absolute path. -/
  | root
  /-- A leading `.`. -/
  | here
  /-- A step to the parent. -/
  | up
  /-- An ordinary name. -/
  | name (text : String)
  deriving DecidableEq

namespace Component

/-- The kinds of components in their order: root, `.`, `..`, names. -/
def rank : Component → Nat
  | root => 0
  | here => 1
  | up => 2
  | name _ => 3

/-- Components are ordered by kind, and names among themselves by their text. -/
def le : Component → Component → Bool
  | name a, name b => a ≤ b
  | a, b => a.rank ≤ b.rank

/-- The name of an ordinary component. -/
def name? : Component → Option String
  | name text => some text
  | _ => none

end Component

/-- The pieces of a path text between slashes. -/
def pieces (path : Path) : List String := (path.text.toList.splitOn '/').map String.ofList

/-- The component that a piece stands for after the first place; empty pieces and `.` stand for
none. -/
def component? (piece : String) : Option Component :=
  if piece = "" ∨ piece = "." then none
  else if piece = ".." then some .up
  else some (.name piece)

/-- The path starts at the root. -/
def isAbsolute (path : Path) : Bool := path.text.toList.head? == some '/'

/-- The components of a path. -/
def components (path : Path) : List Component :=
  match path.pieces with
  | [] => []
  | [""] => []
  | "" :: rest => .root :: rest.filterMap component?
  | "." :: rest => .here :: rest.filterMap component?
  | pieces => pieces.filterMap component?

/-- Both paths have the same components. -/
def same (a b : Path) : Bool := a.components = b.components

/-- Order paths component by component. -/
def leComponents : List Component → List Component → Bool
  | [], _ => true
  | _ :: _, [] => false
  | a :: as, b :: bs => if a = b then leComponents as bs else a.le b

/-- The order of paths by their components. -/
def le (a b : Path) : Bool := leComponents a.components b.components

/-- Append a path to another; an absolute one replaces it. -/
def join (base : Path) (addition : String) : Path :=
  let added : Path := ⟨addition⟩
  if added.isAbsolute then added
  else if base.text = "" ∨ base.text.toList.getLast? = some '/' then ⟨base.text ++ addition⟩
  else ⟨base.text ++ "/" ++ addition⟩

instance : HDiv Path String Path := ⟨join⟩

/-- Append a suffix to the last component. -/
def withSuffix (path : Path) (suffix : String) : Path := ⟨path.text ++ suffix⟩

/-- A piece that stands for no component when it follows another piece. -/
def isIdle (piece : String) : Bool := piece == "" || piece == "."

/-- Drop idle pieces at the end, but keep the first piece, which may stand for the root. -/
def dropIdle : List String → List String
  | [] => []
  | first :: rest => first :: (rest.reverse.dropWhile isIdle).reverse

/-- The path of a list of pieces. -/
def ofPieces (pieces : List String) : Path :=
  if pieces = [""] then ⟨"/"⟩ else ⟨"/".intercalate pieces⟩

/-- The path without its last component; the root and the empty path have no parent. -/
def parent? (path : Path) : Option Path :=
  match path.components.getLast? with
  | none => none
  | some .root => none
  | some _ =>
      let kept := dropIdle path.pieces
      if kept.length ≤ 1 then some ⟨""⟩
      else some (ofPieces (dropIdle kept.dropLast))

/-- The last component, if it is an ordinary name. -/
def fileName? (path : Path) : Option String :=
  path.components.getLast?.bind Component.name?

/-- What follows the last dot of the file name; a dot in front starts no extension. -/
def extension? (path : Path) : Option String :=
  path.fileName?.bind fun name =>
    let reversed := name.toList.reverse
    let after := reversed.takeWhile (· != '.')
    let before := (reversed.dropWhile (· != '.')).drop 1
    if before.isEmpty then none else some (String.ofList after.reverse)

/-- The components that follow those of `root`. -/
def strip? (path root : Path) : Option (List Component) :=
  if root.components <+: path.components then
    some (path.components.drop root.components.length)
  else none

/-- The names that lead from `root` down to `path`: at least one, and ordinary names only. -/
def namesBelow? (path root : Path) : Option (List String) := do
  let below ← path.strip? root
  let names ← (below.filter (· ≠ .here)).mapM Component.name?
  if names.isEmpty then none else some names

end Path
end SourceSearch
