import SourceSearch.FileTree.Task

/-!
# Record stores

A store keeps records below a folder.  A record is named by a key and a suffix and lies in the
subfolder that is called like the first two bytes of its key.  Keys that would lead out of the
store are refused.
-/

namespace SourceSearch

/-- A store of records below a folder. -/
structure Store where
  /-- The folder. -/
  root : Path
  deriving DecidableEq

namespace Store

/-- The first two bytes of a key, unless they end within a character: two ASCII characters or one
character of two bytes. -/
def shard? (key : String) : Option String :=
  match key.toList with
  | a :: rest =>
      if a.utf8Size = 2 then some (String.ofList [a])
      else match rest with
        | b :: _ => if a.utf8Size = 1 ∧ b.utf8Size = 1 then some (String.ofList [a, b]) else none
        | [] => none
  | [] => none

/-- The subfolder of a key that is admitted: its first two bytes hold no dot, and the key holds no
slash of either kind. -/
def folder? (key : String) : Option String :=
  match shard? key with
  | some shard =>
      if '.' ∈ shard.toList ∨ '/' ∈ key.toList ∨ '\\' ∈ key.toList then none else some shard
  | none => none

/-- The file of a record. -/
def path (store : Store) (key suffix : String) : Except Failure Path :=
  match folder? key with
  | some folder => .ok (store.root / folder / (key ++ suffix))
  | none => .error (.invalidKey key)

/-- The record is there. -/
def contains (store : Store) (tree : FileTree) (key suffix : String) : Bool :=
  match store.path key suffix with
  | .ok path => tree.isFile path
  | .error _ => false

/-- Store bytes as a record. -/
def put (store : Store) (key suffix : String) (content : ByteArray) : TaskM Unit := do
  let path ← TaskM.examine fun _ => store.path key suffix
  TaskM.writeFile path content

/-- Store a document as a record. -/
def putRecord (store : Store) (key suffix : String) (record : Json) : TaskM Unit :=
  store.put key suffix record.toBytes

/-- The bytes of a record, or nothing if it was never written. -/
def get (store : Store) (tree : FileTree) (key suffix : String) :
    Except Failure (Option ByteArray) := do
  let path ← store.path key suffix
  match tree.read path with
  | .ok content => return some content
  | .error .missing => return none
  | .error fault => throw (.file path fault)

/-- A decoded record, or nothing if it was never written. -/
def getRecord {α : Type} (store : Store) (tree : FileTree) (decode : Json → Option α)
    (key suffix : String) : Except Failure (Option α) := do
  let path ← store.path key suffix
  tree.readRecord? decode path

/-- The text before a suffix, if a name ends in it. -/
def stripSuffix? (suffix name : String) : Option String :=
  if suffix.toList.isSuffixOf name.toList then
    some (String.ofList (name.toList.take (name.length - suffix.length)))
  else none

/-- The keys of the names in one subfolder. -/
def keysIn (store : Store) (tree : FileTree) (suffix folder : String) :
    Except Failure (List String) :=
  let path := store.root / folder
  if tree.isFolder path then
    match tree.list path with
    | .ok entries => .ok (entries.filterMap fun entry => stripSuffix? suffix entry.1)
    | .error fault => .error (.file path fault)
  else .ok []

/-- The keys of all records with a suffix, sorted. -/
def keys (store : Store) (tree : FileTree) (suffix : String) : Except Failure (List String) :=
  match tree.list store.root with
  | .error .missing => .ok []
  | .error fault => .error (.file store.root fault)
  | .ok entries => do
      let found ← entries.mapM fun entry => store.keysIn tree suffix entry.1
      return found.flatten.mergeSort fun a b => a ≤ b

end Store
end SourceSearch
